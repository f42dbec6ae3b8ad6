import Watchd.Lib.Loops
import Watchd.Watch.Grammar

/-!
# The messages of a Watch stream

The API's messages, what `Server.send` makes of a watch's events, and the hub
together with the streams the server writes.  A page of snapshot rows becomes
any number of messages, so a send that fails may leave some of them on the
stream; every other event is one message.

`Served.staged`: every stream leads through the stages of a watch's events.
-/

namespace Watchd.Wire

open Watchd.Cdc Watchd.Watch Watchd.Lib

/-! ## The API -/

/-- A `Value`. -/
inductive WireValue
  | text (text : Text)
  | null
  | unchangedToast
  /-- a kind the receiver does not know -/
  | unset
  deriving DecidableEq, Repr

/-- A `Row`: values by column name. -/
abbrev WireRow := Finmap fun _ : String => WireValue

/-- An `Operation`. -/
inductive WireOperation
  | unspecified
  | insert
  | update
  | delete
  deriving DecidableEq, Repr

/-- A `Change`. -/
structure WireChange where
  operation : WireOperation
  table : String
  key : TextMap
  values : WireRow
  deriving DecidableEq

/-- A `Batch`, without its commit time. -/
structure WireBatch where
  cursor : String
  changes : List WireChange
  deriving DecidableEq

/-- A `ResyncReason`. -/
inductive WireReason
  | unspecified
  | cursorUnavailable
  | slowWatcher
  | snapshotWindowClosed
  | sourceStopped
  | schemaChanged
  deriving DecidableEq, Repr

/-- A `WatchResponse`. -/
inductive Message
  | snapshotBegin
  | snapshotRows (rows : List WireRow)
  | snapshotEnd
  | batch (batch : WireBatch)
  | progress (cursor : String)
  | resync (reason : WireReason)
  /-- without an event the receiver knows -/
  | unset
  deriving DecidableEq

/-- The kind of the event a message carries. -/
def Message.kind : Message → Option Kind
  | .snapshotBegin => some .snapshotBegin
  | .snapshotRows _ => some .snapshotRows
  | .snapshotEnd => some .snapshotEnd
  | .batch _ | .progress _ => some .live
  | .resync _ => some .resync
  | .unset => none

/-! ## The server -/

/-- A server, over `pglogrepl.LSN.String` and `proto.Size`. -/
structure Server where
  sourceID : String
  maxRowsMessageBytes : Nat
  lsnString : Nat → String
  size : WireRow → Nat

/-- The reason as the API has it. -/
def resyncReasons : ResyncReason → WireReason
  | .unset => .unspecified
  | .cursorUnavailable => .cursorUnavailable
  | .slowWatcher => .slowWatcher
  | .snapshotWindowClosed => .snapshotWindowClosed
  | .sourceStopped => .sourceStopped
  | .schemaChanged => .schemaChanged

/-- The operation as the API has it. -/
def operations : Operation → WireOperation
  | .insert => .insert
  | .update => .update
  | .delete => .delete

/-- A value as the API has it. -/
def convertChangeValue (v : Value) : WireValue :=
  match v.kind with
  | .text => .text v.text
  | .null => .null
  | .unchangedToast => .unchangedToast

/-- The values of a change by column name; of two equal names the last one wins. -/
def convertChangeValues (columns : List String) (values : List Value) : WireRow :=
  fill ∅ (columns.zip (values.map convertChangeValue))

/-- A change as the API has it. -/
def convertChange (c : Change) : WireChange :=
  ⟨operations c.operation, c.table, c.key, convertChangeValues c.columns c.values⟩

/-- A row of a snapshot as the API has it. -/
def convertRow (row : Row) : WireRow :=
  collect (fun _ value => some (match value with
    | some text => .text text
    | none => .null)) row

/-- The values of the memos that have been loaded. -/
abbrev Memos := MemoId → Option Message

namespace Server

variable (srv : Server)

/-- The wire form of a cursor names its source. -/
def encodeCursor (c : Cursor) : String := srv.sourceID ++ "@" ++ srv.lsnString c.lsn

/-- The message of a batch. -/
def convertBatch (b : Batch) : Message :=
  .batch ⟨srv.encodeCursor b.cursor, b.changes.map convertChange⟩

/-- The message of a batch: the first watcher a shared batch is sent to converts it for all. -/
def batchMessage (memos : Memos) (b : Batch) : Message :=
  (b.memo.bind memos).getD (srv.convertBatch b)

/-- The memos once the message of `b` has been made. -/
def load (memos : Memos) (b : Batch) : Memos :=
  match b.memo with
  | none => memos
  | some memo => Function.update memos memo (some (srv.batchMessage memos b))

/-- Where `sendRows` stands: the messages sent, and the one it is packing. -/
structure Packing where
  sent : List Message := []
  message : List WireRow := []
  messageBytes : Nat := 0

/-- Sends what has been packed. -/
def Packing.flush (p : Packing) : Packing :=
  if p.message = [] then p else { sent := p.sent ++ [.snapshotRows p.message] }

/-- Adds a row, after a flush if it does not fit. -/
def packRow (p : Packing) (row : Row) : Packing :=
  let converted := convertRow row
  let rowBytes := srv.size converted
  let p := if p.messageBytes + rowBytes > srv.maxRowsMessageBytes then p.flush else p
  { p with
    message := p.message ++ [converted]
    messageBytes := p.messageBytes + rowBytes }

/-- The messages of a page of rows. -/
def sendRows (rows : List Row) : List Message := (rows.foldl srv.packRow {}).flush.sent

/-- The messages of one event. -/
def send (memos : Memos) : Event → List Message
  | .snapshotBegin => [.snapshotBegin]
  | .snapshotRows rows => srv.sendRows rows
  | .snapshotEnd => [.snapshotEnd]
  | .batch b => [srv.batchMessage memos b]
  | .progress c => [.progress (srv.encodeCursor c)]
  | .resync reason => [.resync (resyncReasons reason)]

end Server

/-! ## Packing rows -/

/-- The rows a message carries. -/
def Message.rows : Message → List WireRow
  | .snapshotRows rows => rows
  | _ => []

namespace Server

variable (srv : Server)

/-- What the packing so far carries, sent or not. -/
def Packing.rows (p : Packing) : List WireRow := p.sent.flatMap Message.rows ++ p.message

theorem Packing.flush_rows (p : Packing) : p.flush.rows = p.rows := by
  unfold flush
  split
  · rfl
  · simp [rows, Message.rows]

theorem packRow_rows (p : Packing) (row : Row) :
    (srv.packRow p row).rows = p.rows ++ [convertRow row] := by
  unfold packRow
  by_cases hfull : p.messageBytes + srv.size (convertRow row) > srv.maxRowsMessageBytes
  · rw [← Packing.flush_rows p]
    simp [hfull, Packing.rows]
  · simp [hfull, Packing.rows]

theorem Packing.flush_message (p : Packing) : p.flush.message = [] := by
  unfold flush
  split
  · assumption
  · rfl

/-- **Packing loses nothing**: the messages of a page carry its rows, in order. -/
theorem sendRows_rows (rows : List Row) :
    (srv.sendRows rows).flatMap Message.rows = rows.map convertRow := by
  have hfold : ∀ (rows : List Row) (p : Packing),
      (rows.foldl srv.packRow p).rows = p.rows ++ rows.map convertRow := by
    intro rows
    induction rows with
    | nil => intro p; simp
    | cons row rows ih => intro p; simp [ih, packRow_rows]
  have hall := Packing.flush_rows (rows.foldl srv.packRow {})
  rw [hfold, Packing.rows, Packing.flush_message] at hall
  simpa [Packing.rows, sendRows] using hall

/-- A page becomes row messages only. -/
theorem sendRows_kind (rows : List Row) :
    ∀ msg ∈ srv.sendRows rows, msg.kind = some .snapshotRows := by
  have hflush : ∀ p : Packing, (∀ msg ∈ p.sent, msg.kind = some .snapshotRows) →
      ∀ msg ∈ p.flush.sent, msg.kind = some .snapshotRows := by
    intro p hp msg hmsg
    unfold Packing.flush at hmsg
    split at hmsg
    · exact hp msg hmsg
    · rcases List.mem_append.1 hmsg with hmem | hmem
      · exact hp msg hmem
      · rw [List.mem_singleton.1 hmem]
        rfl
  refine hflush _ ?_
  have hfold : ∀ (rows : List Row) (p : Packing), (∀ msg ∈ p.sent, msg.kind = some .snapshotRows) →
      ∀ msg ∈ (rows.foldl srv.packRow p).sent, msg.kind = some .snapshotRows := by
    intro rows
    induction rows with
    | nil => exact fun p hp => hp
    | cons row rows ih =>
      intro p hp
      refine ih _ ?_
      unfold packRow
      by_cases hfull : p.messageBytes + srv.size (convertRow row) > srv.maxRowsMessageBytes
      · simpa [hfull] using hflush p hp
      · simpa [hfull] using hp
  exact hfold rows {} nofun

end Server

/-! ## The hub and its streams -/

/-- The batch whose message a Watch call is about to send. -/
def batchAt : Phase → Option Batch
  | .backlog (b :: _) _ => some b
  | .deliver _ _ _ _ item => some item.batch
  | _ => none

/-- A hub behind a server, with every message put on each watch's stream. -/
structure Served where
  system : System
  memos : Memos := fun _ => none
  streams : WatcherId → List Message := fun _ => []

/-- The steps of the hub behind its server. -/
inductive Served.Label
  | hub (label : Watch.Label)
  /-- a page of rows of which the first `n` messages got out; the snapshotter returns `err` -/
  | cut (id : WatcherId) (rows : List Row) (n : Nat) (err : GoError)

namespace Served

variable (srv : Server) (s : Served)

/-- The event a step of watch `id` sends. -/
def sends (id : WatcherId) (act : Act) : Option Event :=
  s.system.watches[id]?.bind fun ws =>
    (ws.phase.step ws.request (fun tick => decide (tick ∈ s.system.closed))
      s.system.hub id act).bind
      Move.sent

/-- The memos after a step.  A batch whose send fails has been converted, too. -/
def loaded : Watch.Label → Memos
  | .watch id _ =>
    match s.system.watches[id]?.bind fun ws => batchAt ws.phase with
    | some b => srv.load s.memos b
    | none => s.memos
  | _ => s.memos

/-- The streams with messages put on one of them. -/
def put (id : WatcherId) (messages : List Message) : WatcherId → List Message :=
  Function.update s.streams id (s.streams id ++ messages)

@[simp] theorem put_self (id : WatcherId) (messages : List Message) :
    s.put id messages id = s.streams id ++ messages :=
  Function.update_self ..

theorem put_of_ne {id id' : WatcherId} (h : id' ≠ id) (messages : List Message) :
    s.put id messages id' = s.streams id' :=
  Function.update_of_ne h ..

/-- The streams after a step. -/
def written : Watch.Label → WatcherId → List Message
  | .watch id act => s.put id ((s.sends id act).toList.flatMap (srv.send s.memos))
  | _ => s.streams

/-- One step of the hub, with what the server writes in it. -/
def step : Label → Option Served
  | .hub l => (s.system.step l).map fun system => ⟨system, s.loaded srv l, s.written srv l⟩
  | .cut id rows n err =>
    match s.system.watches[id]?.map WatchState.phase with
    | some (.reading _) =>
      (s.system.step (.watch id (.read (.error err)))).map fun system =>
        ⟨system, s.memos, s.put id ((srv.sendRows rows).take n)⟩
    | _ => none

end Served

/-- The machine of a hub made by `New` behind a server. -/
def served (srv : Server) : Machine Served Served.Label where
  init s := ∃ system, machine.init system ∧ s = { system := system }
  step := Served.step srv

/-- What a replay on a new hub computes holds in a reachable state. -/
theorem Served.exists_of_run (srv : Server) (parseLSN : String → Option Nat) (cfg : Watch.Config)
    (ls : List Served.Label) (P : Served → Prop) [DecidablePred P]
    (h : ((Hub.new parseLSN cfg).toOption.bind fun hub =>
      runWhile (served srv) anyStep { system := { hub := hub } } ls).any (fun s => P s) = true) :
    ∃ s, Reaches (served srv) anyStep s ∧ P s := by
  obtain ⟨s, hs, hP⟩ := (Option.any_eq_true _ _).1 h
  obtain ⟨hub, hhub, hrun⟩ := Option.bind_eq_some_iff.1 hs
  have hnew := toOption_eq_some_iff.1 hhub
  exact ⟨s, .of_runWhile (.init ⟨_, ⟨_, _, _, hnew, rfl⟩, rfl⟩) hrun, of_decide_eq_true hP⟩

/-! ## The stages of a stream -/

/-- The messages lead through the stages of a stream to `q`. -/
def Leads (msgs : List Message) (q : Stage) : Prop :=
  ∃ ks : List Kind, msgs.map Message.kind = ks.map some ∧ Stage.opened.after ks = some q

/-- Every value of a memo is the message of a batch. -/
def Memos.Live (memos : Memos) : Prop := ∀ memo msg, memos memo = some msg → msg.kind = some .live

section Leads

variable {srv : Server} {memos : Memos} {msgs : List Message} {q q' : Stage}

theorem Leads.append (h : Leads msgs q) {new : List Message} (ks : List Kind)
    (hnew : new.map Message.kind = ks.map some) (hafter : q.after ks = some q') :
    Leads (msgs ++ new) q' := by
  obtain ⟨ks₀, hmsgs, hq⟩ := h
  refine ⟨ks₀ ++ ks, by rw [List.map_append, List.map_append, hmsgs, hnew], ?_⟩
  rw [Stage.after_append, hq]
  exact hafter

theorem Server.batchMessage_kind (hmemos : memos.Live) (b : Batch) :
    (srv.batchMessage memos b).kind = some .live := by
  unfold Server.batchMessage
  cases hmemo : b.memo.bind memos with
  | none => rfl
  | some msg =>
    obtain ⟨memo, -, hmsg⟩ := Option.bind_eq_some_iff.1 hmemo
    exact hmemos memo msg hmsg

theorem Memos.Live.load (hmemos : memos.Live) (b : Batch) : (srv.load memos b).Live := by
  unfold Server.load
  split
  · exact hmemos
  · next memo _ =>
    intro memo' msg hmsg
    by_cases heq : memo' = memo
    · subst heq
      rw [Function.update_self, Option.some.injEq] at hmsg
      rw [← hmsg]
      exact Server.batchMessage_kind hmemos b
    · rw [Function.update_of_ne heq] at hmsg
      exact hmemos memo' msg hmsg

/-- Some of a page's messages keep a stream inside its snapshot. -/
theorem Leads.rows (h : Leads msgs .reading) {new : List Message}
    (hnew : ∀ msg ∈ new, msg.kind = some .snapshotRows) : Leads (msgs ++ new) .reading := by
  refine h.append (List.replicate new.length .snapshotRows) ?_ (Stage.after_rows _)
  rw [List.map_replicate]
  exact List.eq_replicate_iff.2 ⟨List.length_map .., List.forall_mem_map.2 hnew⟩

/-- **Translation keeps the stages**: the messages of an event lead where the event does. -/
theorem Leads.send (h : Leads msgs q) (hmemos : memos.Live) {e : Event}
    (hq : q.sent (some e) = some q') : Leads (msgs ++ srv.send memos e) q' := by
  cases e with
  | snapshotRows rows =>
    -- the only event that is not one message; it is sent inside a snapshot
    cases q with
    | reading =>
      cases hq
      exact h.rows (srv.sendRows_kind rows)
    | _ => cases hq
  | batch b => exact h.append [.live] (by simp [Server.send, Server.batchMessage_kind hmemos]) hq
  | snapshotBegin => exact h.append [.snapshotBegin] rfl hq
  | snapshotEnd => exact h.append [.snapshotEnd] rfl hq
  | progress cursor => exact h.append [.live] rfl hq
  | resync reason => exact h.append [.resync] rfl hq

/-- A part of a stream that leads through the stages does so, too. -/
theorem Leads.of_prefix (h : Leads msgs q) {received : List Message}
    (hpre : received <+: msgs) : ∃ q', Leads received q' := by
  obtain ⟨ks, hks, hq⟩ := h
  have htake : received.map Message.kind = (ks.take received.length).map some := by
    rw [List.map_take, ← hks, ← List.map_take, ← List.prefix_iff_eq_take.1 hpre]
  obtain ⟨q', hq'⟩ := Stage.after_of_prefix (List.take_prefix received.length ks) hq
  exact ⟨q', _, htake, hq'⟩

end Leads

/-! ## Every stream leads through the stages -/

namespace Served

variable {srv : Server} {s : Served}

/-- Behind a server the hub takes the steps it takes alone. -/
theorem reaches {ok : Served → Served.Label → Prop} (h : Reaches (served srv) ok s) :
    Reaches machine anyStep s.system := by
  refine h.invariant (I := fun s => Reaches machine anyStep s.system) ?_ ?_
  · rintro s ⟨system, hinit, rfl⟩
    exact .init hinit
  · intro s l s' _ hreach _ hstep
    cases l with
    | hub l =>
      obtain ⟨system, hsystem, rfl⟩ := Option.map_eq_some_iff.1 hstep
      exact .step hreach trivial hsystem
    | cut id rows n err =>
      simp only [served, step] at hstep
      split at hstep
      · obtain ⟨system, hsystem, rfl⟩ := Option.map_eq_some_iff.1 hstep
        exact .step (l := .watch id (.read (.error err))) hreach trivial hsystem
      · cases hstep

/-- Every stream is at a stage the place of its Watch call allows. -/
structure Staged (s : Served) : Prop where
  memos : s.memos.Live
  fresh : ∀ id, s.system.watches.length ≤ id → s.streams id = []
  streams : ∀ id ws, s.system.watches[id]? = some ws →
    ∃ q, Leads (s.streams id) q ∧ ws.phase.allows q

theorem Staged.loaded (h : s.Staged) (l : Watch.Label) : (s.loaded srv l).Live := by
  unfold Served.loaded
  split
  · split
    · exact h.memos.load _
    · exact h.memos
  · exact h.memos

/-- A step of one watch that puts messages on its stream, to a stage its new place allows. -/
theorem Staged.moved (h : s.Staged) {id : WatcherId} {ws : WatchState} {m : Move} {memos : Memos}
    {new : List Message} (hmemos : memos.Live) (hws : s.system.watches[id]? = some ws)
    (hnew : ∀ q, Leads (s.streams id) q → ws.phase.allows q →
      ∃ q', Leads (s.streams id ++ new) q' ∧ m.phase.allows q') :
    Staged ⟨s.system.moved id ws m, memos, s.put id new⟩ := by
  have hlt : id < s.system.watches.length := (List.getElem?_eq_some_iff.1 hws).1
  refine ⟨hmemos, ?_, ?_⟩
  · intro id' hid'
    have hid' : s.system.watches.length ≤ id' := by simpa [System.moved] using hid'
    have hne : id' ≠ id := (hlt.trans_le hid').ne'
    exact (s.put_of_ne hne new).trans (h.fresh id' hid')
  · intro id' ws' hws'
    simp only [System.moved, List.getElem?_set, if_pos hlt] at hws'
    split at hws'
    · next heq =>
      subst heq
      cases hws'
      obtain ⟨q, hq, hallows⟩ := h.streams id ws hws
      show ∃ q, Leads (s.put id new id) q ∧ m.phase.allows q
      rw [put_self]
      exact hnew q hq hallows
    · next hne =>
      show ∃ q, Leads (s.put id new id') q ∧ ws'.phase.allows q
      rw [s.put_of_ne (Ne.symm hne)]
      exact h.streams id' ws' hws'

theorem Staged.hub (h : s.Staged) {l : Watch.Label} {system : System}
    (hstep : s.system.step l = some system) :
    Staged ⟨system, s.loaded srv l, s.written srv l⟩ := by
  by_cases hl : ∃ id act, l = .watch id act
  · obtain ⟨id, act, rfl⟩ := hl
    obtain ⟨ws, hws, hmap⟩ := Option.bind_eq_some_iff.1 hstep
    obtain ⟨m, hm, rfl⟩ := Option.map_eq_some_iff.1 hmap
    have hsends : s.sends id act = m.sent := by simp [sends, hws, hm]
    refine h.moved (h.loaded _) hws fun q hq hallows => ?_
    obtain ⟨q', hsent, hq'⟩ := Phase.step_stage hm hallows
    refine ⟨q', ?_, hq'⟩
    rw [hsends]
    cases he : m.sent with
    | none =>
      rw [he] at hsent
      cases hsent
      simpa using hq
    | some e =>
      rw [he] at hsent
      simpa using hq.send h.memos hsent
  · have hother : ∀ id act, l ≠ .watch id act := fun id act heq => hl ⟨id, act, heq⟩
    have hstepped := System.step_stepped hstep
    have hwritten : s.written srv l = s.streams := by
      cases l with
      | watch id act => exact absurd rfl (hother id act)
      | _ => rfl
    refine ⟨h.loaded l, ?_, ?_⟩
    · intro id hid
      rw [hwritten]
      exact h.fresh id (hstepped.length_le.trans hid)
    · intro id ws' hws'
      rw [hwritten]
      cases hstepped.origin hws' with
      | kept ws ended hws _ => exact h.streams id ws hws
      | opened req p _ hid hp =>
        rw [h.fresh id hid.ge]
        refine ⟨.opened, ⟨[], rfl, rfl⟩, ?_⟩
        rcases hp with rfl | ⟨err, rfl⟩
        · rfl
        · trivial
      | moved act ws m hl _ _ _ => exact absurd hl (hother id act)

/-- **Every stream leads through the stages**, whatever it was cut off at. -/
theorem staged {ok : Served → Served.Label → Prop} (h : Reaches (served srv) ok s) : s.Staged := by
  refine h.invariant ?_ ?_
  · rintro s ⟨system, ⟨parseLSN, cfg, hub, -, rfl⟩, rfl⟩
    exact ⟨nofun, fun _ _ => rfl, fun id ws hws => by simp at hws⟩
  · intro s l s' _ hs _ hstep
    cases l with
    | hub l =>
      obtain ⟨system, hsystem, rfl⟩ := Option.map_eq_some_iff.1 hstep
      exact hs.hub hsystem
    | cut id rows n err =>
      simp only [served, step] at hstep
      split at hstep
      · next streamed hphase =>
        obtain ⟨ws, hws, hp⟩ := Option.map_eq_some_iff.1 hphase
        obtain ⟨system, hsystem, rfl⟩ := Option.map_eq_some_iff.1 hstep
        obtain ⟨ws', hws', hmap⟩ := Option.bind_eq_some_iff.1 hsystem
        obtain rfl : ws' = ws := Option.some.inj (hws'.symm.trans hws)
        obtain ⟨m, hm, rfl⟩ := Option.map_eq_some_iff.1 hmap
        refine hs.moved hs.memos hws fun q hq hallows => ?_
        obtain rfl : q = .reading := by simpa [hp, Phase.allows] using hallows
        obtain ⟨q', hsent, hq'⟩ := Phase.step_stage hm hallows
        have hnone : m.sent = none := by
          rw [hp] at hm
          simp only [Phase.step] at hm
          split at hm
          · cases hm
            rfl
          · split at hm <;> cases hm <;> rfl
        rw [hnone] at hsent
        cases hsent
        refine ⟨.reading, hq.rows fun msg hmsg => ?_, hq'⟩
        exact srv.sendRows_kind rows msg (List.mem_of_mem_take hmsg)
      · cases hstep

end Served

end Watchd.Wire
