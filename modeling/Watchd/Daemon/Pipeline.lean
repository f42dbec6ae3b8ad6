import Watchd.Cdc.Reader
import Watchd.Daemon.Replication
import Watchd.Lib.Shadow

/-!
# The reader's loop, feeding the hub

`Run` as a whole, with its attempts, its waits, its two contexts and the retention
policy, whose sink is the hub.  Beside it runs the machine that only knows of
connections (`Daemon.machine`): every step of the loop is one of its steps or none,
so what holds whatever connections are made, cut and resumed holds of `Run`.

* `run_refines`: that simulation;
* `run_loses_nothing`: no transaction is lost or taken twice by `Run`.
-/

namespace Watchd.Daemon

open Watchd.Cdc Watchd.Lib Watchd.Watch

/-! ## The machine -/

/-- A reader running on a hub, and the registry of baselines. -/
structure Pipeline where
  reader : Reader.State System
  shapes : Shapes := {}

namespace Pipeline

/-- The steps of the pipeline. -/
inductive Label
  /-- a step of `Run` or of the monitor but a message -/
  | run (l : Reader.Label)
  | receive (received : Received) (recording : Recording) (sendErr : Option GoError)
  /-- a spec is validated -/
  | record (shape : RelationShape)
  /-- any step of the hub and its watches but `Accept` -/
  | hub (l : Watch.Label)

/-- The registry after a message, of which only CopyData makes the decoder read it. -/
def shapesAfter (s : Shapes) (recording : Recording) : Received → Shapes
  | .copyData _ => (recording.reads s).table
  | _ => s

/-- One step; a message is decoded with what has been recorded up to then. -/
def step (p : Pipeline) : Label → Option Pipeline
  | .run (.receive ..) => none
  | .run l => (p.reader.step sink l).map fun reader => { p with reader := reader }
  | .receive received recording sendErr =>
    (p.reader.step sink (.receive received (recording.reads p.shapes) sendErr)).map fun reader =>
      ⟨reader, shapesAfter p.shapes recording received⟩
  | .record shape => some { p with shapes := p.shapes.record shape }
  | .hub (.accept _) => none
  | .hub l => (p.reader.sink.step l).map fun system =>
      { p with reader := { p.reader with sink := system } }

/-- The pipeline, from what `NewReader` and `New` return. -/
def machine : Machine Pipeline Label where
  init p := ∃ config parseLSN cfg hub bootstrapLSN, newReader config true = .ok p.reader.config ∧
    Hub.new parseLSN cfg = .ok hub ∧
    p = ⟨{ config := p.reader.config, sink := { hub := hub }, bootstrapLSN := bootstrapLSN }, {}⟩
  step := step

/-! ## Its shadow -/

/-- The stream of a phase, if `receive` runs. -/
def streamOf : Reader.Phase → Option Stream
  | .streaming stream _ => some stream
  | _ => none

/-- Where `read` starts replication, if it gets that far. -/
def startOf (s : Reader.State System) (result : Except GoError Nat) : Option Nat :=
  s.bootstrapLSN.or result.toOption

/-- What a step of the pipeline is to the connections. -/
def shadow (p : Pipeline) : Label → Option Daemon.Label
  | .run (.connect result) => (startOf p.reader result).map .connect
  | .run _ => none
  | .receive (.copyData data) recording sendErr => some (.receive data recording sendErr)
  | .receive .timeout _ sendErr => some (if p.reader.streamDone then .cut else .timeout sendErr)
  | .receive .. => some .cut
  | .record shape => some (.record shape)
  | .hub l => some (.hub l)

/-- The daemon stands where the pipeline does. -/
structure Shadows (p : Pipeline) (d : State) : Prop where
  config : d.config = p.reader.config.toReaderConfig
  system : d.system = p.reader.sink
  shapes : d.shapes = p.shapes
  conn : d.conn.map (·.stream) = streamOf p.reader.phase

end Pipeline

/-! ## The count of accepted transactions -/

section Counting

variable {σ : Type} {sink : σ → Transaction → σ × Option GoError} {cfg : ReaderConfig}

/-- What handling a message leaves, without the count. -/
def uncounted (h : Handled (σ × Nat)) : Handled σ := ⟨h.stream, h.sink.1, h.acked, h.err⟩

theorem acceptTransaction_counting (sendErr : Option GoError) (s : Stream) (hub : σ)
    (accepted : Nat)
    (t : Transaction) (endLSN : Nat) :
    uncounted (acceptTransaction cfg (Reader.counting sink) sendErr s (hub, accepted) t endLSN) =
      acceptTransaction cfg sink sendErr s hub t endLSN := by
  simp only [acceptTransaction, Reader.counting]
  rcases sink hub _ with ⟨hub', _ | err⟩
  · rfl
  · rfl

theorem consumeMessage_counting (reads : Reads) (sendErr : Option GoError) (s : Stream) (hub : σ)
    (accepted : Nat) (message : Message) :
    uncounted (consumeMessage cfg (Reader.counting sink) reads sendErr s (hub, accepted) message) =
      consumeMessage cfg sink reads sendErr s hub message := by
  unfold consumeMessage
  rcases s.decoder.consume (some reads) message with ⟨d, err | _ | t⟩
  · rfl
  · rfl
  · cases message with
    | commit commitLSN endLSN =>
      dsimp only
      split
      · rfl
      · exact acceptTransaction_counting ..
    | _ => rfl

/-- Counting what the sink accepts changes nothing else. -/
theorem consumeCopyData_counting (reads : Reads) (sendErr : Option GoError) (s : Stream) (hub : σ)
    (accepted : Nat) (data : CopyData) :
    uncounted (consumeCopyData cfg (Reader.counting sink) reads sendErr s (hub, accepted) data) =
      consumeCopyData cfg sink reads sendErr s hub data := by
  cases data with
  | xlogData walBytes message =>
    simp only [consumeCopyData]
    split
    · rfl
    · split
      · rfl
      · cases message with
        | none => rfl
        | some message => exact consumeMessage_counting ..
  | keepalive serverWALEnd replyRequested => cases replyRequested <;> rfl
  | _ => rfl

end Counting

namespace Pipeline

variable {p p' : Pipeline} {d : State}

/-! ## The shadow follows -/

/-- A step of `Run` without its connection changing is none of the daemon's. -/
theorem Shadows.kept (h : Shadows p d) {reader : Reader.State System}
    (hconfig : reader.config = p.reader.config) (hsink : reader.sink = p.reader.sink)
    (hstream : streamOf reader.phase = streamOf p.reader.phase) :
    Shadows { p with reader := reader } d :=
  ⟨h.config.trans (by rw [hconfig]), h.system.trans hsink.symm, h.shapes, h.conn.trans hstream.symm⟩

theorem afterRead_fields (s : Reader.State System) (err : Option GoError) (accepted : Nat) :
    (s.afterRead err accepted).config = s.config ∧ (s.afterRead err accepted).sink = s.sink ∧
      streamOf (s.afterRead err accepted).phase = none := by
  unfold Reader.State.afterRead
  dsimp only
  split
  · exact ⟨rfl, rfl, rfl⟩
  · split
    · exact ⟨rfl, rfl, rfl⟩
    · cases err with
      | none => exact ⟨rfl, rfl, rfl⟩
      | some err =>
        dsimp only
        split
        · exact ⟨rfl, rfl, rfl⟩
        · split
          · exact ⟨rfl, rfl, rfl⟩
          · exact ⟨rfl, rfl, rfl⟩

theorem Shadows.stay (h : Shadows p d) {l : Label} (hs : p.step l = some p')
    (hl : p.shadow l = none) : Shadows p' d := by
  cases l with
  | receive received => cases received <;> cases hl
  | record shape => cases hl
  | hub l => cases hl
  | run l =>
    cases l with
    | receive => cases hs
    | cancel =>
      cases hs
      exact h.kept rfl rfl rfl
    | sample slot keepSize =>
      obtain ⟨reader, hreader, rfl⟩ := Option.map_eq_some_iff.1 hs
      simp only [Reader.State.step] at hreader
      split at hreader
      · cases hreader
        exact h.kept rfl rfl rfl
      · cases hreader
        exact h.kept rfl rfl rfl
    | connect result =>
      obtain ⟨reader, hreader, rfl⟩ := Option.map_eq_some_iff.1 hs
      simp only [Reader.State.step] at hreader
      split at hreader
      · next hphase =>
        cases hreader
        obtain ⟨hboot, hresult⟩ := Option.or_eq_none_iff.1 (Option.map_eq_none_iff.1 hl)
        cases result with
        | ok start => cases hresult
        | error err =>
          simp only [Reader.State.read, hboot]
          exact h.kept rfl rfl (by rw [hphase]; rfl)
      · cases hreader
    | next =>
      obtain ⟨reader, hreader, rfl⟩ := Option.map_eq_some_iff.1 hs
      simp only [Reader.State.step] at hreader
      split at hreader
      · next err accepted hphase =>
        cases hreader
        obtain ⟨hconfig, hsink, hstream⟩ := afterRead_fields p.reader err accepted
        exact h.kept hconfig hsink (by rw [hstream, hphase]; rfl)
      · cases hreader
    | wait fired =>
      obtain ⟨reader, hreader, rfl⟩ := Option.map_eq_some_iff.1 hs
      simp only [Reader.State.step] at hreader
      split at hreader
      · next hphase =>
        have hnone : streamOf p.reader.phase = none := by rw [hphase]; rfl
        split_ifs at hreader <;> cases hreader <;> exact h.kept rfl rfl hnone.symm
      · cases hreader
    | drop err =>
      obtain ⟨reader, hreader, rfl⟩ := Option.map_eq_some_iff.1 hs
      simp only [Reader.State.step] at hreader
      split at hreader
      · next hphase =>
        cases hreader
        exact h.kept rfl rfl (by rw [hphase]; rfl)
      · cases hreader

/-- The connection that `receive` runs on. -/
theorem Shadows.exists_conn (h : Shadows p d) {stream : Stream} {accepted : Nat}
    (hphase : p.reader.phase = .streaming stream accepted) :
    ∃ c, d.conn = some c ∧ c.stream = stream := by
  have hconn := h.conn
  rw [hphase] at hconn
  exact Option.map_eq_some_iff.1 hconn

theorem after_stream (c : Conn) (watchers : List WatcherId) (handled : Handled System)
    (data : CopyData) : (c.after watchers handled data).map (·.stream) =
      if handled.err.isSome then none else some handled.stream := by
  cases data with
  | xlogData walBytes message =>
    cases message with
    | none =>
      simp only [Conn.after]
      split <;> rfl
    | some message =>
      simp only [Conn.after]
      split <;> rfl
  | _ =>
    simp only [Conn.after]
    split <;> rfl

theorem Shadows.copyData (h : Shadows p d) {stream : Stream} {accepted : Nat}
    (hphase : p.reader.phase = .streaming stream accepted) (data : CopyData) (recording : Recording)
    (sendErr : Option GoError) :
    ∃ d', d.step (.receive data recording sendErr) = some d' ∧
      Shadows ⟨p.reader.receive sink stream accepted (recording.reads p.shapes) sendErr
        (.copyData data), (recording.reads p.shapes).table⟩ d' := by
  obtain ⟨c, hconn, rfl⟩ := h.exists_conn hphase
  let handled := consumeCopyData p.reader.config.toReaderConfig (Reader.counting sink)
    (recording.reads p.shapes) sendErr c.stream (p.reader.sink, accepted) data
  have hplain : consumeCopyData d.config sink (recording.reads d.shapes) sendErr c.stream d.system
      data = uncounted handled := by
    rw [h.config, h.shapes, h.system]
    exact (consumeCopyData_counting ..).symm
  refine ⟨d.handled (recording.reads d.shapes).table (uncounted handled)
    (c.after d.system.hub.registry.watchers (uncounted handled) data), ?_, ?_⟩
  · simp only [State.step, hconn, Option.map_some, hplain]
  · have hconn' := after_stream c d.system.hub.registry.watchers (uncounted handled) data
    have htable : (recording.reads d.shapes).table = (recording.reads p.shapes).table := by
      rw [h.shapes]
    cases herr : handled.err with
    | some err =>
      have hreceive : p.reader.receive sink c.stream accepted (recording.reads p.shapes) sendErr
          (.copyData data) =
        { p.reader with sink := handled.sink.1 }.readReturns handled.sink.2 err := by
        simp only [Reader.State.receive]
        rw [show (consumeCopyData _ _ _ _ _ _ _).err = some err from herr]
      rw [hreceive]
      refine ⟨h.config, rfl, htable, hconn'.trans ?_⟩
      simp only [uncounted, herr, Option.isSome_some, if_true]
      rfl
    | none =>
      have hreceive : p.reader.receive sink c.stream accepted (recording.reads p.shapes) sendErr
          (.copyData data) =
          { p.reader with
            sink := handled.sink.1
            phase := .streaming handled.stream handled.sink.2 } := by
        simp only [Reader.State.receive]
        rw [show (consumeCopyData _ _ _ _ _ _ _).err = none from herr]
      rw [hreceive]
      refine ⟨h.config, rfl, htable, hconn'.trans ?_⟩
      simp only [uncounted, herr, Option.isSome_none, Bool.false_eq_true, if_false]
      rfl

theorem Shadows.cut (h : Shadows p d) {stream : Stream} {accepted : Nat}
    (hphase : p.reader.phase = .streaming stream accepted) (err : GoError) :
    ∃ d', d.step .cut = some d' ∧
      Shadows { p with reader := p.reader.readReturns accepted err } d' := by
  obtain ⟨c, hconn, -⟩ := h.exists_conn hphase
  refine ⟨{ d with conn := none }, ?_, h.config, h.system, h.shapes, rfl⟩
  simp only [State.step, hconn, Option.map_some]

/-- The status interval passes: an update is sent, unless the stream is done. -/
theorem Shadows.timeout (h : Shadows p d) {stream : Stream} {accepted : Nat}
    (hphase : p.reader.phase = .streaming stream accepted) (reads : Reads)
    (sendErr : Option GoError) :
    ∃ d', d.step (if p.reader.streamDone then .cut else .timeout sendErr) = some d' ∧
      Shadows
        { p with reader := p.reader.receive sink stream accepted reads sendErr .timeout } d' := by
  by_cases hdone : p.reader.streamDone = true
  · simp only [Reader.State.receive, if_pos hdone]
    exact h.cut hphase _
  · obtain ⟨c, hconn, rfl⟩ := h.exists_conn hphase
    simp only [Reader.State.receive, if_neg hdone]
    refine ⟨d.handled d.shapes (acknowledge sendErr c.stream d.system)
      (if sendErr.isSome then none else some c), ?_, ?_⟩
    · simp only [State.step, hconn, Option.map_some]
    · cases sendErr with
      | none => exact ⟨h.config, h.system, h.shapes, rfl⟩
      | some err => exact ⟨h.config, h.system, h.shapes, rfl⟩

theorem Shadows.connected (h : Shadows p d) (hphase : p.reader.phase = .connecting)
    {result : Except GoError Nat} {start : Nat} (hstart : startOf p.reader result = some start) :
    ∃ d', d.step (.connect start) = some d' ∧
      Shadows { p with reader := p.reader.read result } d' := by
  have hconn : d.conn = none := by
    have hconn := h.conn
    rw [hphase] at hconn
    exact Option.map_eq_none_iff.1 hconn
  refine ⟨{ d with conn := some { stream := ⟨d.config.newDecoder, start⟩, start := start } },
    ?_, ?_⟩
  · simp only [State.step, hconn]
  · cases hboot : p.reader.bootstrapLSN with
    | some lsn =>
      simp only [startOf, hboot, Option.some_or] at hstart
      cases hstart
      simp only [Reader.State.read, hboot]
      exact ⟨h.config, h.system, h.shapes, by rw [h.config]; rfl⟩
    | none =>
      simp only [startOf, hboot, Option.none_or] at hstart
      cases result with
      | error err => cases hstart
      | ok lsn =>
        cases hstart
        simp only [Reader.State.read, hboot]
        exact ⟨h.config, h.system, h.shapes, by rw [h.config]; rfl⟩

theorem Shadows.move (h : Shadows p d) {l : Label} (hs : p.step l = some p') {k : Daemon.Label}
    (hl : p.shadow l = some k) : ∃ d', d.step k = some d' ∧ Shadows p' d' := by
  cases l with
  | run l =>
    cases l with
    | connect result =>
      obtain ⟨start, hstart, rfl⟩ := Option.map_eq_some_iff.1 hl
      obtain ⟨reader, hreader, rfl⟩ := Option.map_eq_some_iff.1 hs
      simp only [Reader.State.step] at hreader
      split at hreader
      · next hphase =>
        cases hreader
        exact h.connected hphase hstart
      · cases hreader
    | _ => cases hl
  | receive received recording sendErr =>
    obtain ⟨reader, hreader, rfl⟩ := Option.map_eq_some_iff.1 hs
    simp only [Reader.State.step] at hreader
    split at hreader
    · next stream accepted hphase =>
      cases hreader
      cases received with
      | copyData data =>
        cases hl
        exact h.copyData hphase data recording sendErr
      | timeout =>
        cases hl
        exact h.timeout hphase _ sendErr
      | _ =>
        cases hl
        exact h.cut hphase _
    · cases hreader
  | record shape =>
    cases hl
    cases hs
    exact ⟨_, rfl, h.config, h.system, by rw [h.shapes], h.conn⟩
  | hub l =>
    cases hl
    have hhub : (p.reader.sink.step l).map (fun system =>
          ({ p with reader := { p.reader with sink := system } } : Pipeline)) = some p' ∧
        d.step (.hub l) = (d.system.step l).map fun system => { d with system := system } := by
      cases l with
      | accept t => cases hs
      | _ => exact ⟨hs, rfl⟩
    obtain ⟨hmap, hd⟩ := hhub
    obtain ⟨system, hsystem, rfl⟩ := Option.map_eq_some_iff.1 hmap
    refine ⟨{ d with system := system }, ?_, h.config, rfl, h.shapes, h.conn⟩
    rw [hd, h.system, hsystem]
    rfl

/-- The machine of connections, run beside the reader. -/
def shadowing : Shadowing machine Daemon.machine where
  start p := { config := p.reader.config.toReaderConfig, system := p.reader.sink }
  label := shadow
  Rel := Shadows
  init p hp := by
    obtain ⟨config, parseLSN, cfg, hub, bootstrapLSN, -, hnew, hp⟩ := hp
    have hsink : p.reader.sink = { hub := hub } := by rw [hp]
    refine ⟨⟨_, parseLSN, cfg, hub, hnew, by rw [hsink]⟩, rfl, rfl, ?_, ?_⟩
    · rw [hp]
    · rw [hp]
      rfl
  stay _ _ _ _ h hs hl := h.stay hs hl
  move _ _ _ _ _ h hs hl := h.move hs hl

/-! ## What follows for `Run` -/

/-- The reader runs against a walsender: every step that the connections see keeps to what is
assumed of PostgreSQL. -/
def served (txs : List SourceTransaction) (initial : Nat) (p : Pipeline × State)
    (l : Label) : Prop :=
  ∀ k, p.1.shadow l = some k → walsender txs initial p.2 k

instance (txs : List SourceTransaction) (initial : Nat) (p : Pipeline × State) (l : Label) :
    Decidable (served txs initial p l) :=
  decidable_of_iff ((p.1.shadow l).all fun k => walsender txs initial p.2 k) (by
    unfold served
    cases p.1.shadow l <;> simp)

end Pipeline

section Run

variable {txs : List SourceTransaction} {initial : Nat} {p : Pipeline × State}

/-- **`Run` refines the machine of connections**, and its hub runs as the hub's own machine does:
what holds of every run of either holds of the reader's loop. -/
theorem run_refines {p : Pipeline} (h : Reaches Pipeline.machine anyStep p) :
    (∃ d, Reaches Daemon.machine anyStep d ∧ Pipeline.Shadows p d) ∧
      Reaches Watch.machine anyStep p.reader.sink := by
  obtain ⟨d, hd⟩ := Shadowing.exists_both (S := Pipeline.shadowing) h
  have hrel : Pipeline.Shadows p d := Shadowing.rel hd
  have hreach : Reaches Daemon.machine anyStep d :=
    Shadowing.reaches_right (hd.mono fun _ _ _ _ _ => trivial)
  refine ⟨⟨d, hreach, hrel⟩, ?_⟩
  rw [← hrel.system]
  exact system_reaches hreach

theorem lossless_of_reaches {d : State} (hpair : txs.Pairwise SourceTransaction.Precedes)
    (hinitial : ∀ tx ∈ txs, initial ≤ tx.commitLSN)
    (h : Reaches Daemon.machine (walsender txs initial) d) : Lossless txs d := by
  refine Reaches.invariant (I := Lossless txs) ?_ ?_ h
  · rintro s ⟨config, parseLSN, cfg, hub, -, rfl⟩
    exact ⟨rfl, (fun a ha => by cases ha), fun c hc => by cases hc⟩
  · intro s l s' hreach hloss hok hstep
    exact hloss.stepped hpair hinitial (Reaches.inv (system_reaches hreach)) hok
      (State.step_stepped hstep)

/-- **`Run` loses and repeats nothing, however it reconnects.**  Whatever fails, times out, is
retried or stopped by the retention policy, while watches come and go: the hub has taken a prefix of
the committed sequence, each transaction once and in order, and neither the position the stream
would acknowledge next nor one that it has acknowledged is past a transaction that the hub has not
taken. So a slot that only ever moved to acknowledged positions still has everything else. -/
theorem run_loses_nothing (hordered : txs.IsChain SourceTransaction.Precedes)
    (hinitial : ∀ tx ∈ txs, initial ≤ tx.commitLSN)
    (h : Reaches Pipeline.shadowing.both (Pipeline.served txs initial) p) :
    p.1.reader.sink.accepted.map identity <+:
      txs.map (·.identity p.1.reader.config.sourceID) ∧
    (∀ stream accepted, p.1.reader.phase = .streaming stream accepted → ∀ tx ∈ txs,
      tx.commitLSN < stream.safeLSN →
        tx.identity p.1.reader.config.sourceID ∈ p.1.reader.sink.accepted.map identity) ∧
    ∀ a ∈ p.2.acks, ∀ tx ∈ txs, tx.commitLSN < a →
      tx.identity p.1.reader.config.sourceID ∈ p.1.reader.sink.accepted.map identity := by
  have hrel : Pipeline.Shadows p.1 p.2 := Shadowing.rel h
  have hloss := lossless_of_reaches (pairwise_of_chain hordered) hinitial
      (Shadowing.reaches_right h)
  have htaken : ∀ lsn, Covered txs p.2.system.accepted.length lsn → ∀ tx ∈ txs, tx.commitLSN < lsn →
      tx.identity p.2.config.sourceID ∈ p.2.system.accepted.map identity := by
    intro lsn hcovered tx htx hlt
    obtain ⟨i, hi⟩ := List.mem_iff_getElem?.1 htx
    rw [hloss.taken]
    refine List.mem_map.2 ⟨tx, List.mem_of_getElem? (i := i) ?_, rfl⟩
    rw [List.getElem?_take_of_lt (hcovered i tx hi hlt), hi]
  have hfirst : p.2.system.accepted.map identity <+: txs.map (·.identity p.2.config.sourceID) := by
    rw [hloss.taken]
    exact (List.take_prefix _ _).map _
  rw [hrel.system, hrel.config] at hfirst htaken
  refine ⟨hfirst, fun stream accepted hphase => ?_, fun a ha => ?_⟩
  · obtain ⟨c, hconn, rfl⟩ := hrel.exists_conn hphase
    have hcovered := (hloss.conn c hconn).safe
    rw [hrel.system] at hcovered
    exact htaken _ hcovered
  · have hcovered := hloss.acks a ha
    rw [hrel.system] at hcovered
    exact htaken _ hcovered

end Run

namespace Demo

open Watchd.Watch.Demo (parseLSN relation)

/-- A reader with the default settings on the hub of the members projection. -/
def pipeline : Option Pipeline :=
  (Hub.new parseLSN (Watch.Demo.config 10 10)).toOption.map fun hub =>
    ⟨{ config := Cdc.Demo.defaults, sink := { hub := hub } }, {}⟩

theorem pipeline_init {p : Pipeline} (h : pipeline = some p) : Pipeline.machine.init p := by
  obtain ⟨hub, hhub, rfl⟩ := Option.map_eq_some_iff.1 h
  have hconfig : newReader (namesOnly "main" "db" "slot" "pub") true = .ok Cdc.Demo.defaults :=
    newReader_namesOnly (by decide) (by decide) (by decide) (by decide)
  exact ⟨_, parseLSN, _, _, none, hconfig, toOption_eq_some_iff.1 hhub, rfl⟩

/-- A message arrives. -/
def arrives (msg : Message) : Pipeline.Label :=
  .receive (.copyData (.xlogData 20 (some msg))) {} none

/-- The server ends the first stream within the second transaction; after a wait `Run` starts over,
and sends a status update when nothing more comes. -/
def retrying : List Pipeline.Label :=
  let body := [.relation (relation 'd' 1), insertion]
  let one := .begin first.xid first.commitTime :: (body ++ [.commit first.commitLSN first.endLSN])
  let two := [.begin second.xid second.commitTime, insertion,
    .commit second.commitLSN second.endLSN]
  [.run (.connect (.ok 400))] ++ (one ++ two.take 2).map arrives ++
    [.receive .copyDone {} none, .run .next, .run (.wait true), .run (.connect (.ok 400))] ++
    (one ++ two).map arrives ++ [.receive .timeout {} none]

theorem retrying_runs :
    ∃ p, Reaches Pipeline.shadowing.both (Pipeline.served [first, second] 400) p ∧
      p.1.reader.attempts = 1 ∧ p.2.acks = [510, 510, 610, 610] ∧
      p.1.reader.sink.accepted.length = 2 ∧ p.1.reader.config.sourceID = "main" := by
  have hrun : ((pipeline.map fun p => (p, Pipeline.shadowing.start p)).bind
      (runWhile Pipeline.shadowing.both (Pipeline.served [first, second] 400) ·
        retrying)).any (fun p => p.1.reader.attempts = 1 ∧ p.2.acks = [510, 510, 610, 610] ∧
      p.1.reader.sink.accepted.length = 2 ∧ p.1.reader.config.sourceID = "main") = true := by
    decide
  obtain ⟨p, hp, hP⟩ := (Option.any_eq_true _ _).1 hrun
  obtain ⟨p₀, hp₀, hrun⟩ := Option.bind_eq_some_iff.1 hp
  obtain ⟨start, hstart, rfl⟩ := Option.map_eq_some_iff.1 hp₀
  exact ⟨p, .of_runWhile (.init ⟨pipeline_init hstart, rfl⟩) hrun, of_decide_eq_true hP⟩

end Demo

theorem run_refines_run :
    ∃ p d, Reaches Pipeline.machine anyStep p ∧ p.reader.attempts = 1 ∧
      p.reader.sink.accepted.length = 2 ∧ Reaches Daemon.machine anyStep d ∧
      d.system.accepted.length = 2 := by
  obtain ⟨p, hreach, hattempts, -, hlength, -⟩ := Demo.retrying_runs
  have hrun : Reaches Pipeline.machine anyStep p.1 := Shadowing.reaches_left hreach
  obtain ⟨⟨d, hd, hrel⟩, -⟩ := run_refines hrun
  exact ⟨p.1, d, hrun, hattempts, hlength, hd, by rw [hrel.system, hlength]⟩

theorem run_loses_nothing_run :
    ∃ p, Reaches Pipeline.shadowing.both (Pipeline.served [Demo.first, Demo.second] 400) p ∧
      p.1.reader.attempts = 1 ∧ p.2.acks = [510, 510, 610, 610] ∧
      p.1.reader.sink.accepted.length = 2 ∧
      p.1.reader.sink.accepted.map identity <+:
        [Demo.first, Demo.second].map (·.identity "main") := by
  obtain ⟨p, hreach, hattempts, hacks, hlength, hsource⟩ := Demo.retrying_runs
  have hchain : [Demo.first, Demo.second].IsChain SourceTransaction.Precedes :=
    .cons_cons (show 510 ≤ 600 by decide) (.singleton _)
  have hlost := run_loses_nothing hchain (by decide) hreach
  rw [hsource] at hlost
  exact ⟨p, hreach, hattempts, hacks, hlength, hlost.1⟩

end Watchd.Daemon
