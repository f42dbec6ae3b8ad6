import Watchd.Cdc.Consume

/-!
# Receiving the replication stream

`consumeCopyData` handles one CopyData message of a replication connection: WAL
data goes through the decoder and, at a COMMIT, into the sink; only what the
sink has accepted is acknowledged.  The sink is any function on a state `σ`.

`consumeCopyData_heard` says what a message can come to.
-/

namespace Watchd.Cdc

/-- A CopyData message as `pglogrepl` parses it. -/
inductive CopyData
  | empty
  | malformedXLogData
  /-- WAL data: the length of its payload, and the message unless that does not parse -/
  | xlogData (walBytes : Nat) (message : Option Message)
  | malformedKeepalive
  | keepalive (serverWALEnd : Nat) (replyRequested : Bool)
  | other (discriminator : UInt8)
  deriving DecidableEq, Repr

/-- What of the configuration a stream reads. -/
structure ReaderConfig where
  sourceID : String
  maxTransactionBytes : Int
  maxTransactionChanges : Int
  maxValueBytes : Int
  deriving DecidableEq, Repr

/-- The decoder of a new stream. -/
def ReaderConfig.newDecoder (cfg : ReaderConfig) : Decoder :=
  newDecoderWithLimits cfg.maxTransactionBytes cfg.maxTransactionChanges cfg.maxValueBytes

/-- The variables of one `receive` loop. -/
structure Stream where
  decoder : Decoder
  safeLSN : Nat

/-- What handling one message leaves: the loop's variables, the sink's state, the position a status
update was sent with, and the error that ends the connection. -/
structure Handled (σ : Type) where
  stream : Stream
  sink : σ
  acked : Option Nat := none
  err : Option GoError := none

section

variable {σ : Type} (cfg : ReaderConfig) (sink : σ → Transaction → σ × Option GoError)

/-- `acknowledge`: a status update with the safe position is sent; `sendErr` is its error. -/
def acknowledge (sendErr : Option GoError) (s : Stream) (hub : σ) : Handled σ :=
  ⟨s, hub, some s.safeLSN, sendErr⟩

/-- A committed transaction on its way to the sink. -/
def acceptTransaction (sendErr : Option GoError) (s : Stream) (hub : σ) (t : Transaction)
    (transactionEndLSN : Nat) : Handled σ :=
  let t := { t with cursor := { t.cursor with sourceID := cfg.sourceID } }
  match sink hub t with
  | (hub, some err) => ⟨s, hub, none, some (.wrapBoth (.sentinel .sinkRejected) err)⟩
  | (hub, none) => acknowledge sendErr { s with safeLSN := transactionEndLSN } hub

/-- One pgoutput message: what the decoder returns is accepted by the sink and then
acknowledged. -/
def consumeMessage (reads : Reads) (sendErr : Option GoError) (s : Stream) (hub : σ)
    (message : Message) : Handled σ :=
  match s.decoder.consume (some reads) message with
  | (d, .error err) => ⟨{ s with decoder := d }, hub, none, some err⟩
  | (d, .ok none) => ⟨{ s with decoder := d }, hub, none, none⟩
  | (d, .ok (some t)) =>
    match message with
    | .commit _ transactionEndLSN =>
      if transactionEndLSN = 0 then
        ⟨{ s with decoder := d }, hub, none, some (errorf .malformedReplicationData
          ": decoder emitted a transaction without a commit end LSN")⟩
      else acceptTransaction cfg sink sendErr { s with decoder := d } hub t transactionEndLSN
    | _ =>
      ⟨{ s with decoder := d }, hub, none, some (errorf .malformedReplicationData
        ": decoder emitted a transaction without a commit end LSN")⟩

/-- The safe position after a keepalive: between transactions everything before its position has
been accepted. -/
def Stream.advance (s : Stream) (serverWALEnd : Nat) : Stream :=
  if !s.decoder.inTransaction ∧ serverWALEnd > s.safeLSN then { s with safeLSN := serverWALEnd }
  else s

/-- Handles one CopyData message.  `reads` is what the decoder finds in the registry of baselines,
`sendErr` what sending a status update returns. -/
def consumeCopyData (reads : Reads) (sendErr : Option GoError) (s : Stream) (hub : σ) :
    CopyData → Handled σ
  | .empty => ⟨s, hub, none, some (.sentinel .malformedReplicationData)⟩
  | .malformedXLogData =>
    ⟨s, hub, none, some (errorf .malformedReplicationData ": parse XLogData")⟩
  | .xlogData walBytes message =>
    if walBytes = 0 then
      ⟨s, hub, none, some (errorf .malformedReplicationData ": XLogData has no WAL payload")⟩
    else if walBytes > cfg.maxTransactionBytes then
      ⟨s, hub, none, some (.sentinel .transactionTooLarge)⟩
    else
      match message with
      | none => ⟨s, hub, none, some (errorf .malformedReplicationData ": parse pgoutput")⟩
      | some message => consumeMessage cfg sink reads sendErr s hub message
  | .malformedKeepalive =>
    ⟨s, hub, none, some (errorf .malformedReplicationData ": parse primary keepalive")⟩
  | .keepalive serverWALEnd replyRequested =>
    let s := s.advance serverWALEnd
    if replyRequested then acknowledge sendErr s hub else ⟨s, hub, none, none⟩
  | .other discriminator =>
    ⟨s, hub, none, some (errorf .unexpectedReplicationMessage
      (": CopyData discriminator " ++ quoteByte discriminator))⟩

end

/-! ## What handling a message can do -/

/-- The transaction the decoder emits at a COMMIT, as the sink gets it. -/
def Decoder.committed (d : Decoder) (cfg : ReaderConfig) (changes : List Change)
    (commitLSN transactionEndLSN : Nat) : Transaction where
  cursor := ⟨cfg.sourceID, transactionEndLSN⟩
  changes := changes
  commitTime := d.pendingCommitTime
  incompatible := d.events
  commitLSN := commitLSN
  xid := d.pendingXid

/-- The outcomes of `consumeCopyData`. -/
inductive Heard {σ : Type} (cfg : ReaderConfig) (sink : σ → Transaction → σ × Option GoError)
    (reads : Reads) (sendErr : Option GoError) (s : Stream) (hub : σ) :
    CopyData → Handled σ → Prop
  | broken (data : CopyData) (s' : Stream) (err : GoError) :
    Heard cfg sink reads sendErr s hub data ⟨s', hub, none, some err⟩
  | consumed (walBytes : Nat) {msg : Message} {d' : Decoder}
      (h : Consumed s.decoder (some reads) msg d' (.ok none)) :
    Heard cfg sink reads sendErr s hub (.xlogData walBytes (some msg))
      ⟨{ s with decoder := d' }, hub, none, none⟩
  | rejected (walBytes commitLSN transactionEndLSN : Nat) {changes : List Change} {hub' : σ}
      {err : GoError} (s' : Stream) (h : s.decoder.pending = some changes)
      (hsink : sink hub (s.decoder.committed cfg changes commitLSN transactionEndLSN) =
        (hub', some err)) (err' : GoError) :
    Heard cfg sink reads sendErr s hub
      (.xlogData walBytes (some (.commit commitLSN transactionEndLSN)))
      ⟨s', hub', none, some err'⟩
  | accepted (walBytes commitLSN transactionEndLSN : Nat) {changes : List Change} {hub' : σ}
      (h : s.decoder.pending = some changes)
      (hsink : sink hub (s.decoder.committed cfg changes commitLSN transactionEndLSN) =
        (hub', none)) :
    Heard cfg sink reads sendErr s hub
      (.xlogData walBytes (some (.commit commitLSN transactionEndLSN)))
      ⟨⟨{ s.decoder with events := [], pending := none, pendingBytes := 0 }, transactionEndLSN⟩,
        hub', some transactionEndLSN, sendErr⟩
  | keepalive (serverWALEnd : Nat) (replyRequested : Bool) :
    Heard cfg sink reads sendErr s hub (.keepalive serverWALEnd replyRequested)
      ⟨s.advance serverWALEnd, hub,
        if replyRequested then some (s.advance serverWALEnd).safeLSN else none,
        if replyRequested then sendErr else none⟩

section

variable {σ : Type} (cfg : ReaderConfig) (sink : σ → Transaction → σ × Option GoError)
  (reads : Reads) (sendErr : Option GoError) (s : Stream) (hub : σ)

theorem consumeMessage_heard (walBytes : Nat) (msg : Message) :
    Heard cfg sink reads sendErr s hub (.xlogData walBytes (some msg))
      (consumeMessage cfg sink reads sendErr s hub msg) := by
  have hc := s.decoder.consume_consumed (some reads) msg
  unfold consumeMessage
  generalize hr : s.decoder.consume (some reads) msg = r at hc
  obtain ⟨d', r⟩ := r
  cases r with
  | error err => exact .broken _ _ err
  | ok r =>
    cases r with
    | none => exact .consumed walBytes hc
    | some t =>
      cases hc with
      | commit commitLSN transactionEndLSN hp =>
        simp only
        split
        · exact .broken _ _ _
        · unfold acceptTransaction
          simp only
          cases hsink : sink hub (s.decoder.committed cfg _ commitLSN transactionEndLSN) with
          | mk hub' err =>
            simp only [Decoder.committed] at hsink
            rw [hsink]
            cases err with
            | none => exact .accepted walBytes commitLSN transactionEndLSN hp hsink
            | some err => exact .rejected walBytes commitLSN transactionEndLSN _ hp hsink _

theorem consumeCopyData_heard (data : CopyData) :
    Heard cfg sink reads sendErr s hub data
      (consumeCopyData cfg sink reads sendErr s hub data) := by
  cases data with
  | xlogData walBytes message =>
    unfold consumeCopyData
    simp only
    split
    · exact .broken _ _ _
    · split
      · exact .broken _ _ _
      · cases message with
        | none => exact .broken _ _ _
        | some msg => exact consumeMessage_heard cfg sink reads sendErr s hub walBytes msg
  | keepalive serverWALEnd replyRequested =>
    cases replyRequested
    · exact .keepalive serverWALEnd false
    · exact .keepalive serverWALEnd true
  | _ => exact .broken _ _ _

end

end Watchd.Cdc
