import Watchd.Lib.Transition
import Watchd.Watch.Program

/-!
# The hub with its watches

Any number of Watch calls run against one hub while `Accept` and `Stop` are
called.  The state keeps, beside the code's own, history variables that no step
reads: every transaction the hub took as new, every event each watch sent, and
what a watch found at the moments its guarantees speak about.
-/

namespace Watchd.Watch

open Watchd.Cdc Watchd.Lib

/-- The moment the hub ended a watcher. -/
structure Ended where
  /-- the transaction being accepted -/
  transaction : Transaction
  /-- how many transactions the hub had accepted before it -/
  accepted : Nat

/-- What happened to a watch, for stating its guarantees. -/
structure History where
  /-- what the watch needs: set by its resume cursor, or by the snapshot it got -/
  need : Option Need := none
  /-- the ring's contents at registration -/
  ring : List Transaction := []
  /-- how many transactions the hub had accepted at registration -/
  registeredAt : Nat := 0
  /-- how many transactions the hub had accepted when `live` last read its position -/
  readAt : Nat := 0
  /-- whether the hub had ended the watcher by then -/
  endedAtRead : Bool := false
  /-- whether some read of the position found nothing received -/
  readNothing : Bool := false
  ended : Option Ended := none

/-- A Watch call: where it stands, what it has sent, and its history. -/
structure WatchState where
  request : Request
  phase : Phase
  sent : List Event := []
  history : History := {}

/-- The hub and its Watch calls. -/
structure System where
  hub : Hub
  watches : List WatchState := []
  /-- ticks owned by an `Accept` that has released the lock and has yet to close them -/
  closing : List TickId := []
  closed : List TickId := []
  /-- every transaction the hub took as new, oldest first -/
  accepted : List Transaction := []

/-- The steps of the system. -/
inductive Label
  /-- `Accept`, up to the release of the lock -/
  | accept (t : Transaction)
  /-- `Accept` closes its tick -/
  | close (tick : TickId)
  | stop
  /-- a new Watch call -/
  | open_ (req : Request)
  | watch (id : WatcherId) (act : Act)

/-- Notes what the watch needs, its registration and its position reads. -/
def History.note (hist : History) (s : System) (id : WatcherId) : Phase → Phase → History
  | .start, .resume cursor => { hist with need := some (.after cursor) }
  | .reading _, .overflowCheck _ snapshot => { hist with need := some (.notCovered snapshot) }
  | .resume _, .backlog _ _ | .snapshot, .snapshotBegin _ =>
    { hist with ring := s.hub.window.ring, registeredAt := s.accepted.length }
  | .position _ _, .drain _ _ _ _ =>
    { hist with
      readAt := s.accepted.length
      endedAtRead := (s.hub.registry.cell id).overflow
      readNothing := hist.readNothing || s.hub.window.received.isNone }
  | _, _ => hist

/-- The watch after its move `m`. -/
def WatchState.moved (s : System) (id : WatcherId) (ws : WatchState) (m : Move) : WatchState :=
  { ws with
    phase := m.phase
    sent := ws.sent ++ m.sent.toList
    history := ws.history.note s id ws.phase m.phase }

/-- Notes that accepting `t` ended watcher `id`. -/
def WatchState.noteAccept (s : System) (t : Transaction) (h' : Hub) (id : WatcherId)
    (ws : WatchState) : WatchState :=
  if id ∈ s.hub.registry.watchers ∧ id ∉ h'.registry.watchers then
    { ws with history := { ws.history with
        ended := some ⟨t, s.accepted.length⟩ } }
  else ws

namespace System

/-- `Accept` of a transaction, on the whole system. -/
def accept (s : System) (t : Transaction) : System :=
  match s.hub.isNew t, s.hub.accept t with
  | .ok true, .ok (h', tick) =>
    { s with
      hub := h'
      watches := s.watches.mapIdx (WatchState.noteAccept s t h')
      closing := s.closing ++ tick.toList
      accepted := s.accepted ++ [t] }
  | _, _ => s

/-- A new Watch call: its watcher is made, or its projection is unknown. -/
def openWatch (s : System) (req : Request) : System :=
  match s.hub.projections.lookup req.projection with
  | none =>
    { s with watches := s.watches ++ [⟨req, .returned (some (errorf .unknownProjection
        (": " ++ quote req.projection))), [], {}⟩] }
  | some p =>
    { s with
      hub := { s.hub with
        registry := s.hub.registry.setCell s.watches.length ⟨p, req.scope, [], false, .unset⟩ }
      watches := s.watches ++ [⟨req, .start, [], {}⟩] }

/-- The state after watch `id` made the move `m`. -/
def moved (s : System) (id : WatcherId) (ws : WatchState) (m : Move) : System :=
  { s with hub := m.hub, watches := s.watches.set id (ws.moved s id m) }

/-- One step. -/
def step (s : System) : Label → Option System
  | .accept t => some (s.accept t)
  | .close tick =>
    if tick ∈ s.closing then
      some { s with closing := s.closing.erase tick, closed := tick :: s.closed }
    else none
  | .stop => some { s with hub := { s.hub with stopped := true } }
  | .open_ req => some (s.openWatch req)
  | .watch id act =>
    s.watches[id]?.bind fun ws =>
      (ws.phase.step ws.request (fun tick => decide (tick ∈ s.closed)) s.hub id act).map
        (s.moved id ws)

end System

/-- The machine of a hub made by `New` with its watches. -/
def machine : Machine System Label where
  init s := ∃ parseLSN cfg h, Hub.new parseLSN cfg = .ok h ∧ s = { hub := h }
  step := System.step

end Watchd.Watch
