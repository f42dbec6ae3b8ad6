import Watchd.Cdc.Stream
import Watchd.Watch.Reachable

/-!
# The daemon: a reader feeding a hub

One reader owns at most one replication connection at a time, each with a fresh
decoder over the one registry of baselines; its sink is `Hub.Accept`.  Watches
run on the hub and baselines are recorded at the same time.  As in the hub's
machine, a connection carries history variables that no step reads.

Without the reader it is a run of the hub alone (`system_reaches`).
-/

namespace Watchd.Daemon

open Watchd.Cdc Watchd.Lib Watchd.Watch

/-! ## Baselines recorded while the decoder runs -/

/-- Baselines recorded one after the other. -/
def recordAll (s : Shapes) (shapes : List RelationShape) : Shapes := shapes.foldl Shapes.record s

/-- The baselines recorded between the decoder's reads of the registry in one message. -/
structure Recording where
  beforeGeneration : List RelationShape := []
  beforeOID : List RelationShape := []
  beforeTable : List RelationShape := []
  deriving DecidableEq

/-- What the decoder's reads find. -/
def Recording.reads (r : Recording) (s : Shapes) : Reads where
  skip := s
  generation := recordAll s r.beforeGeneration
  oid := recordAll (recordAll s r.beforeGeneration) r.beforeOID
  table := recordAll (recordAll (recordAll s r.beforeGeneration) r.beforeOID) r.beforeTable

/-! ## Connections -/

/-- A replication connection. -/
structure Conn where
  stream : Stream
  /-- the position replication was started at -/
  start : Nat
  /-- the pgoutput messages received, oldest first -/
  sent : List Message := []
  /-- the tables whose relation the decoder has found incompatible, with the watchers that were
  registered when it first did -/
  found : Finmap fun _ : String => List WatcherId := ∅
  /-- the tables of the row changes dropped since the last BEGIN -/
  dropped : List String := []

/-- The relation a message makes the decoder look at. -/
def relation? : Message → Option UInt32
  | .relation m => some m.relationID
  | msg => msg.row?

/-- The relation `id`, if the decoder holds it as incompatible. -/
def incompatible? (d : Decoder) (id : Option UInt32) : Option RelationInfo :=
  (id.bind d.relations.lookup).filter (·.incompatible.isSome)

/-- Notes a message the decoder has consumed, with the decoder it left. -/
def Conn.note (c : Conn) (watchers : List WatcherId) (d : Decoder) (msg : Message) : Conn :=
  { c with
    sent := c.sent ++ [msg]
    found :=
      match incompatible? d (relation? msg) with
      | some info => if info.table ∈ c.found then c.found else c.found.insert info.table watchers
      | none => c.found
    dropped :=
      match msg with
      | .begin _ _ => []
      | msg => ((incompatible? d msg.row?).map (·.table)).toList ++ c.dropped }

/-! ## The machine -/

/-- The reader's stream together with the hub it feeds. -/
structure State where
  config : ReaderConfig
  system : System
  shapes : Shapes := {}
  conn : Option Conn := none
  /-- every position a status update was sent with, whether or not the send failed -/
  acks : List Nat := []

/-- The steps of the stream and the hub. -/
inductive Label
  /-- replication starts on a new connection -/
  | connect (start : Nat)
  /-- a CopyData message arrives -/
  | receive (data : CopyData) (recording : Recording) (sendErr : Option GoError)
  /-- the status interval passes without a message -/
  | timeout (sendErr : Option GoError)
  /-- the connection is lost -/
  | cut
  /-- a spec is validated -/
  | record (shape : RelationShape)
  /-- any step of the hub and its watches but `Accept` -/
  | hub (l : Watch.Label)

/-- `Hub.Accept` as the reader's sink. -/
def sink (s : System) (t : Transaction) : System × Option GoError :=
  match s.hub.accept t with
  | .error err => (s, some err)
  | .ok _ => (s.accept t, none)

/-- The connection after a message: an error ends it. -/
def Conn.after (c : Conn) (watchers : List WatcherId) (h : Handled System) :
    CopyData → Option Conn
  | .xlogData _ (some msg) =>
    if h.err.isSome then none
    else some { c.note watchers h.stream.decoder msg with stream := h.stream }
  | _ => if h.err.isSome then none else some { c with stream := h.stream }

/-- The state after the reader handled a message, or a timeout, of connection `c`. -/
def State.handled (s : State) (shapes : Shapes) (h : Handled System) (conn : Option Conn) : State :=
  { s with
    system := h.sink
    shapes := shapes
    conn := conn
    acks := s.acks ++ h.acked.toList }

/-- One step; a connection that fails is closed, and the next one starts over. -/
def State.step (s : State) : Label → Option State
  | .connect start =>
    match s.conn with
    | some _ => none
    | none =>
      some { s with conn := some { stream := ⟨s.config.newDecoder, start⟩, start := start } }
  | .receive data recording sendErr =>
    s.conn.map fun c =>
      let h := consumeCopyData s.config sink (recording.reads s.shapes) sendErr c.stream
        s.system data
      s.handled (recording.reads s.shapes).table h
        (c.after s.system.hub.registry.watchers h data)
  | .timeout sendErr =>
    s.conn.map fun c =>
      s.handled s.shapes (acknowledge sendErr c.stream s.system)
        (if sendErr.isSome then none else some c)
  | .cut => s.conn.map fun _ => { s with conn := none }
  | .record shape => some { s with shapes := s.shapes.record shape }
  | .hub (.accept _) => none
  | .hub l => (s.system.step l).map fun system => { s with system := system }

/-- The stream and the hub, from a new hub. -/
def machine : Machine State Label where
  init s := ∃ config parseLSN cfg h, Hub.new parseLSN cfg = .ok h ∧
    s = { config := config, system := { hub := h } }
  step := State.step

/-! ## Steps -/

/-- What a step of the daemon can do. -/
inductive State.Stepped (s : State) : Label → State → Prop
  | connect (start : Nat) (h : s.conn = none) :
    Stepped s (.connect start)
      { s with conn := some { stream := ⟨s.config.newDecoder, start⟩, start := start } }
  | receive (data : CopyData) (recording : Recording) (sendErr : Option GoError) {c : Conn}
      {h : Handled System} (hconn : s.conn = some c)
      (hh : Heard s.config sink (recording.reads s.shapes) sendErr c.stream s.system data h) :
    Stepped s (.receive data recording sendErr)
      (s.handled (recording.reads s.shapes).table h
        (c.after s.system.hub.registry.watchers h data))
  | timeout (sendErr : Option GoError) {c : Conn} (hconn : s.conn = some c) :
    Stepped s (.timeout sendErr)
      { s with
        conn := if sendErr.isSome then none else some c
        acks := s.acks ++ [c.stream.safeLSN] }
  | cut : Stepped s .cut { s with conn := none }
  | record (shape : RelationShape) :
    Stepped s (.record shape) { s with shapes := s.shapes.record shape }
  | hub {l : Watch.Label} {system : System} (hl : ∀ t, l ≠ .accept t)
      (h : s.system.step l = some system) :
    Stepped s (.hub l) { s with system := system }

theorem State.step_stepped {s s' : State} {l : Label} (h : s.step l = some s') :
    s.Stepped l s' := by
  cases l with
  | connect start =>
    cases hconn : s.conn with
    | some c =>
      simp only [State.step, hconn] at h
      cases h
    | none =>
      simp only [State.step, hconn] at h
      cases h
      exact .connect start hconn
  | receive data recording sendErr =>
    obtain ⟨c, hconn, rfl⟩ := Option.map_eq_some_iff.1 h
    exact .receive data recording sendErr hconn (consumeCopyData_heard ..)
  | timeout sendErr =>
    obtain ⟨c, hconn, rfl⟩ := Option.map_eq_some_iff.1 h
    exact .timeout sendErr hconn
  | cut =>
    obtain ⟨c, -, rfl⟩ := Option.map_eq_some_iff.1 h
    exact .cut
  | record shape =>
    cases h
    exact .record shape
  | hub l =>
    have hmap : (∀ t, l ≠ .accept t) ∧
        (s.system.step l).map (fun system => { s with system := system }) = some s' := by
      cases l with
      | accept t => cases h
      | _ => exact ⟨nofun, h⟩
    obtain ⟨hl, hmap⟩ := hmap
    obtain ⟨system, hsystem, rfl⟩ := Option.map_eq_some_iff.1 hmap
    exact .hub hl hsystem

theorem sink_of_error {s s' : System} {t : Transaction} {err : GoError}
    (h : sink s t = (s', some err)) : s' = s := by
  unfold sink at h
  split at h
  · cases h
    rfl
  · cases h

theorem sink_of_ok {s s' : System} {t : Transaction} (h : sink s t = (s', none)) :
    s' = s.accept t := by
  unfold sink at h
  split at h
  · cases h
  · cases h
    rfl

/-- Handling a message leaves the hub alone, or the hub accepts one transaction. -/
theorem sink_of_heard {cfg : ReaderConfig} {reads : Reads} {sendErr : Option GoError}
    {stream : Stream} {s : System} {data : CopyData} {h : Handled System}
    (hh : Heard cfg sink reads sendErr stream s data h) :
    h.sink = s ∨ ∃ t, h.sink = s.accept t := by
  cases hh with
  | broken _ _ _ => exact .inl rfl
  | consumed _ _ => exact .inl rfl
  | rejected _ _ _ _ _ hsink _ => exact .inl (sink_of_error hsink)
  | accepted _ _ _ _ hsink => exact .inr ⟨_, sink_of_ok hsink⟩
  | keepalive _ _ => exact .inl rfl

theorem Conn.after_keepalive {c c' : Conn} {watchers : List WatcherId} {h : Handled System}
    {position : Nat} {replyRequested : Bool}
    (ha : c.after watchers h (.keepalive position replyRequested) = some c') :
    c' = { c with stream := h.stream } := by
  simp only [Conn.after] at ha
  split at ha
  · cases ha
  · cases ha
    rfl

/-- The hub of a daemon runs as the hub's own machine does. -/
theorem system_reaches {ok : State → Label → Prop} {s : State} (h : Reaches machine ok s) :
    Reaches Watch.machine anyStep s.system := by
  refine Reaches.invariant (I := fun s : State => Reaches Watch.machine anyStep s.system) ?_ ?_ h
  · rintro s ⟨config, parseLSN, cfg, hub, hnew, rfl⟩
    exact .init ⟨parseLSN, cfg, hub, hnew, rfl⟩
  · intro s l s' _ hreach _ hstep
    cases State.step_stepped hstep with
    | receive data recording sendErr hconn hh =>
      rcases sink_of_heard hh with heq | ⟨t, heq⟩
      · simpa only [State.handled, heq] using hreach
      · simp only [State.handled, heq]
        exact hreach.step (l := .accept t) trivial rfl
    | hub _ hsystem => exact hreach.step trivial hsystem
    | _ => exact hreach

end Watchd.Daemon
