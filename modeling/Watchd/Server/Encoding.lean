import Watchd.Server.Shared

/-!
# Encoded batches

A shared batch is marshaled once: its memo holds a message with nothing but those
bytes, as unknown fields, which protobuf copies out again.  The memos of the code
are thus those of `Served` with each message in its encoded form, and what
arrives is the message itself.

`Served.batch_arrives` states it for every run.
-/

namespace Watchd.Wire

open Watchd.Cdc Watchd.Watch Watchd.Lib

/-- A message as protobuf holds it: known fields, and unknown ones as bytes. -/
structure Outgoing where
  message : Message := .unset
  unknown : List UInt8 := []

/-- Protobuf, on the messages of the API: `proto.Marshal`, which `stream.Send` applies as well, and
what the receiver decodes. -/
structure Proto where
  marshal : Outgoing → List UInt8
  unmarshal : List UInt8 → Option Message

/-- An equivalent message that holds only the bytes of `msg`, as unknown fields. -/
def encodedMessage (p : Proto) (msg : Message) : Outgoing :=
  { unknown := p.marshal { message := msg } }

namespace Proto

variable (p : Proto)

/-- Unknown fields are copied: a message with no others is marshaled to their bytes. -/
def CopiesUnknown : Prop := ∀ bytes, p.marshal { unknown := bytes } = bytes

/-- What the receiver decodes. -/
def arrives (out : Outgoing) : Option Message := p.unmarshal (p.marshal out)

/-- The message is delivered as it was given. -/
def Delivers (msg : Message) : Prop := p.arrives { message := msg } = some msg

variable {p} {msg : Message}

/-- **The receiver sees the original message.** -/
theorem Delivers.encoded (h : p.Delivers msg) (hunknown : p.CopiesUnknown) :
    p.arrives (encodedMessage p msg) = some msg := by
  unfold arrives encodedMessage
  rw [hunknown]
  exact h

end Proto

namespace Server

variable (srv : Server) (p : Proto)

/-- `batchMessage`, with the encoded forms that the memos hold. -/
def batchOutgoing (memos : MemoId → Option Outgoing) (b : Batch) : Outgoing :=
  match b.memo with
  | none => { message := srv.convertBatch b }
  | some memo => (memos memo).getD (encodedMessage p (srv.convertBatch b))

/-- The memos once the message of `b` has been made. -/
def loadOutgoing (memos : MemoId → Option Outgoing) (b : Batch) : MemoId → Option Outgoing :=
  match b.memo with
  | none => memos
  | some memo => Function.update memos memo (some (srv.batchOutgoing p memos b))

end Server

/-- The memos of the code. -/
def Memos.encoded (p : Proto) (memos : Memos) : MemoId → Option Outgoing :=
  fun memo => (memos memo).map (encodedMessage p)

section Encoded

variable {srv : Server} {p : Proto} {memos : Memos} {b : Batch}

theorem batchOutgoing_of_memo {memo : MemoId} (h : b.memo = some memo) :
    srv.batchOutgoing p (memos.encoded p) b = encodedMessage p (srv.batchMessage memos b) := by
  simp only [Server.batchOutgoing, h, Memos.encoded, Server.batchMessage, Option.bind_some]
  cases memos memo <;> rfl

theorem batchOutgoing_of_none (h : b.memo = none) :
    srv.batchOutgoing p (memos.encoded p) b = { message := srv.batchMessage memos b } := by
  simp only [Server.batchOutgoing, h, Server.batchMessage, Option.bind_none, Option.getD_none]

/-- Loading keeps the memos the encoded ones. -/
theorem loadOutgoing_encoded :
    srv.loadOutgoing p (memos.encoded p) b = (srv.load memos b).encoded p := by
  cases h : b.memo with
  | none => simp only [Server.loadOutgoing, Server.load, h]
  | some memo =>
    simp only [Server.loadOutgoing, Server.load, h, batchOutgoing_of_memo h]
    funext memo'
    by_cases hmemo : memo' = memo
    · subst hmemo
      simp [Memos.encoded]
    · simp [Memos.encoded, Function.update_of_ne hmemo]

theorem arrives_batchOutgoing (h : p.Delivers (srv.batchMessage memos b))
    (hunknown : p.CopiesUnknown) :
    p.arrives (srv.batchOutgoing p (memos.encoded p) b) = some (srv.batchMessage memos b) := by
  cases hmemo : b.memo with
  | none =>
    rw [batchOutgoing_of_none hmemo]
    exact h
  | some memo =>
    rw [batchOutgoing_of_memo hmemo]
    exact h.encoded hunknown

end Encoded

/-- In every run, whichever stream loaded its memo first, a batch arrives as its own conversion. -/
theorem Served.batch_arrives {srv : Server} {p : Proto} {s : Served}
    {ok : Served → Served.Label → Prop} (h : Reaches (served srv) ok s) {id : WatcherId}
    {ws : WatchState} {b : Batch} (hws : s.system.watches[id]? = some ws)
    (hb : batchAt ws.phase = some b) (hp : p.Delivers (srv.convertBatch b))
    (hunknown : p.CopiesUnknown) :
    p.arrives (srv.batchOutgoing p (s.memos.encoded p) b) = some (srv.convertBatch b) := by
  have heq := batchMessage_eq h hws hb
  rw [← heq] at hp
  rw [arrives_batchOutgoing hp hunknown, heq]

namespace Demo

/-! A protobuf for the streams below: the wire format of the API's schema. -/

/-- A number below `2 ^ 14`, seven bits a byte. -/
def varint (n : Nat) : List UInt8 :=
  if n < 128 then [n.toUInt8] else [(n % 128 + 128).toUInt8, (n / 128).toUInt8]

/-- A field of a variable length. -/
def delimited (number : UInt8) (bytes : List UInt8) : List UInt8 :=
  (8 * number + 2) :: varint bytes.length ++ bytes

/-- A text of ASCII characters. -/
def ascii (text : String) : List UInt8 := text.toList.map fun c => c.toNat.toUInt8

/-- A string of a message: the default is left out. -/
def stringField (number : UInt8) (text : String) : List UInt8 :=
  if text = "" then [] else delimited number (ascii text)

/-- An enumeration of a message: the default is left out. -/
def enumField (number value : UInt8) : List UInt8 :=
  if value = 0 then [] else [8 * number, value]

/-- The entries of a map, in the order of these columns. -/
def mapField {α : Type} (number : UInt8) (value : α → List UInt8)
    (entries : Finmap fun _ : String => α) : List UInt8 :=
  ["id", "title", "body", "size", "tenant_id", "user_id"].flatMap fun column =>
    (entries.lookup column).elim [] fun v =>
      delimited number (delimited 1 (ascii column) ++ delimited 2 (value v))

/-- The member of a oneof is written even if it is the default. -/
def wireValue : WireValue → List UInt8
  | .text text => delimited 1 text
  | .null => [0x10, 0]
  | .unchangedToast => delimited 3 []
  | .unset => []

/-- The numbers of the operations. -/
def wireOperation : WireOperation → UInt8
  | .unspecified => 0
  | .insert => 1
  | .update => 2
  | .delete => 3

/-- The numbers of the reasons. -/
def wireReason : WireReason → UInt8
  | .unspecified => 0
  | .cursorUnavailable => 1
  | .slowWatcher => 2
  | .snapshotWindowClosed => 3
  | .sourceStopped => 4
  | .schemaChanged => 5

/-- A `Change`. -/
def wireChange (c : WireChange) : List UInt8 :=
  enumField 1 (wireOperation c.operation) ++ stringField 2 c.table ++ mapField 3 id c.key ++
    mapField 4 wireValue c.values

/-- A `WatchResponse`: a oneof of the events. -/
def wireMessage : Message → List UInt8
  | .snapshotBegin => delimited 1 []
  | .snapshotRows rows =>
    delimited 2 (rows.flatMap fun row => delimited 1 (mapField 1 wireValue row))
  | .snapshotEnd => delimited 3 []
  | .batch b => delimited 4
      (stringField 1 b.cursor ++ b.changes.flatMap fun c => delimited 2 (wireChange c))
  | .progress cursor => delimited 5 (stringField 1 cursor)
  | .resync reason => delimited 6 (enumField 1 (wireReason reason))
  | .unset => []

/-- Unknown fields follow the known ones.  The receiver knows `sent`. -/
def proto (sent : List Message) : Proto where
  marshal out := wireMessage out.message ++ out.unknown
  unmarshal bytes := sent.find? fun msg => wireMessage msg = bytes

theorem proto_copiesUnknown (sent : List Message) : (proto sent).CopiesUnknown := fun _ => rfl

theorem proto_delivers (msg : Message) : (proto [msg]).Delivers msg := by
  simp [Proto.Delivers, Proto.arrives, proto]

end Demo

end Watchd.Wire
