import Watchd.Cdc.Types
import Watchd.Lib.Transition

/-!
# The SDK's Sync loop

`Sync` opens one Watch stream after another and applies their events to a
`Store`.  A step of the machine is one interaction with the outside: opening a
stream, receiving from it, what `Sync` does when a stream has ended, and the
wait before a retry.  What the server sends, how a stream ends and when the
context is cancelled is the step's label; the store is any implementation of
the interface.
-/

namespace Watchd.Sdk

open Watchd.Cdc Watchd.Lib

/-! ## The data of the SDK -/

/-- A column's value in the SDK. -/
structure Value where
  text : Text := []
  null : Bool := false
  unchanged : Bool := false
  deriving DecidableEq, Repr

/-- A row by column name. -/
abbrev Row := Finmap fun _ : String => Value

/-- What a change does; a server may know more. -/
inductive Operation
  | unknown
  | insert
  | update
  | delete
  deriving DecidableEq, Repr

/-- A change in the SDK. -/
structure Change where
  operation : Operation
  table : String
  key : TextMap
  values : Row
  deriving DecidableEq

/-- One committed source transaction's changes to the scope. -/
structure Batch where
  cursor : String
  changes : List Change
  deriving DecidableEq

/-- The synchronization state of a projection. -/
structure State where
  fresh : Bool := false
  cursor : String := ""
  deriving DecidableEq, Repr

/-- The server's events, converted. -/
inductive Event
  | snapshotBegin
  | snapshotRows (rows : List Row)
  | snapshotEnd
  | batch (batch : Batch)
  | progress (cursor : String)
  | resync
  /-- an event this client does not know, with its type -/
  | unknown (type : String)
  deriving DecidableEq

/-- The gRPC status codes. -/
inductive Code
  | ok
  | canceled
  | unknown
  | invalidArgument
  | deadlineExceeded
  | notFound
  | alreadyExists
  | permissionDenied
  | resourceExhausted
  | failedPrecondition
  | aborted
  | outOfRange
  | unimplemented
  | internal
  | unavailable
  | dataLoss
  | unauthenticated
  deriving DecidableEq, Repr

/-- What ends a stream. -/
inductive StreamError
  /-- `errResync` -/
  | resync
  /-- a failure of the store: `errStore` -/
  | store (doing text : String)
  /-- an error with a gRPC status -/
  | status (code : Code)
  | new (text : String)
  deriving DecidableEq, Repr

/-- `status.Code`: errors without a status have code Unknown. -/
def StreamError.code : StreamError → Code
  | .status code => code
  | _ => .unknown

/-- No retry can help. -/
def isPermanent (err : StreamError) : Bool :=
  match err.code with
  | .notFound | .invalidArgument | .failedPrecondition | .permissionDenied | .unauthenticated
  | .unimplemented => true
  | _ => false

/-- The `Store` interface, over a store's state `σ` and its snapshot writers `ω`.  An operation may
fail with an error text. -/
structure Store (σ ω : Type) where
  cursor : σ → σ × Except String String
  beginSnapshot : σ → σ × Except String ω
  put : σ → ω → List Row → σ × ω × Option String
  commit : σ → ω → σ × Option String
  abort : σ → ω → σ × Option String
  apply : σ → Batch → σ × Option String
  saveCursor : σ → String → σ × Option String

/-! ## The state of a Sync call -/

/-- What can be observed of a Sync call from outside. -/
inductive Obs
  /-- a stream was opened with this resume cursor -/
  | opened (cursor : String)
  /-- a Resync event was delivered -/
  | resync
  /-- a writer's `Commit` succeeded -/
  | committed
  /-- `OnState` was called -/
  | state (state : State)
  deriving DecidableEq

/-- Where a Sync call stands. -/
inductive Phase (ω : Type)
  /-- about to open a stream -/
  | opening
  /-- receiving on a stream opened with `cursor`; `heard` tells whether an event has arrived -/
  | streaming (cursor : String) (heard : Bool) (writer : Option ω)
  /-- `stream` has returned -/
  | ended (err : StreamError)
  /-- waiting before the next stream -/
  | waiting
  | returned (err : Option StreamError)

/-- A running `Sync` with what its callbacks were told. -/
structure Sync (σ ω : Type) where
  store : σ
  phase : Phase ω := .opening
  minBackoff : Nat
  maxBackoff : Nat
  backoff : Nat
  /-- force a snapshot, ignoring the stored cursor -/
  snapshot : Bool := false
  /-- resyncs since the last confirmed progress -/
  resyncs : Nat := 0
  state : State := {}
  reported : Bool := false
  progressed : Bool := false
  /-- what has been observed so far, oldest first -/
  trace : List Obs := []

/-- 100 ms. -/
def defaultMinBackoff : Nat := 100000000

/-- 5 s. -/
def defaultMaxBackoff : Nat := 5000000000

/-- The call as it enters its loop; the bounds are in nanoseconds. -/
def Sync.start {σ ω : Type} (store : σ) (minBackoff maxBackoff : Int) : Sync σ ω :=
  let low := if minBackoff ≤ 0 then defaultMinBackoff else minBackoff.toNat
  let high := if maxBackoff < low then max defaultMaxBackoff low else maxBackoff.toNat
  { store := store, minBackoff := low, maxBackoff := high, backoff := low }

/-- What a receive returns. -/
inductive Recv
  | event (event : Event)
  | eof
  | status (code : Code)
  deriving DecidableEq

/-- The steps of `Sync` and of its stream. -/
inductive Label
  /-- the Watch call: it succeeds, or fails with a status -/
  | open_ (failure : Option Code)
  | recv (r : Recv)
  /-- `Sync` goes on after a stream; `cancelled` tells whether its context has ended -/
  | next (cancelled : Bool)
  | wait (cancelled : Bool)
  deriving DecidableEq

namespace Sync

variable {σ ω : Type} (st : Store σ ω)

/-- A callback is told. -/
def observe (s : Sync σ ω) (o : Obs) : Sync σ ω := { s with trace := s.trace ++ [o] }

/-- Records the state and reports it if it changed. -/
def setState (s : Sync σ ω) (fresh : Bool) (cursor : String) : Sync σ ω :=
  if s.reported ∧ (⟨fresh, cursor⟩ : State) = s.state then s
  else { s with state := ⟨fresh, cursor⟩, reported := true }.observe (.state ⟨fresh, cursor⟩)

/-- `stream` returns: an unfinished writer is aborted. -/
def ends (s : Sync σ ω) (writer : Option ω) (err : StreamError) : Sync σ ω :=
  match writer with
  | none => { s with phase := .ended err }
  | some w => { s with phase := .ended err, store := (st.abort s.store w).1 }

/-- The Watch call of `stream`. -/
def watch (s : Sync σ ω) (failure : Option Code) (cursor : String) : Sync σ ω :=
  let s := s.observe (.opened cursor)
  match failure with
  | some code => s.ends st none (.status code)
  | none => { s with phase := .streaming cursor false none }

/-- `stream` up to its loop. -/
def openStream (s : Sync σ ω) (failure : Option Code) : Sync σ ω :=
  let s := { s with progressed := false }
  if s.snapshot then s.watch st failure ""
  else
    match st.cursor s.store with
    | (store, .ok cursor) => { s with store := store }.watch st failure cursor
    | (store, .error err) => { s with store := store }.ends st none (.store "read cursor" err)

/-- Handles one event of a stream opened with `cursor`. -/
def handle (s : Sync σ ω) (cursor : String) (writer : Option ω) : Event → Sync σ ω
  | .snapshotBegin =>
    let s := s.setState false ""
    match st.beginSnapshot s.store with
    | (store, .error err) => { s with store := store }.ends st none (.store "begin snapshot" err)
    | (store, .ok w) => { s with store := store, phase := .streaming cursor true (some w) }
  | .snapshotRows rows =>
    match writer with
    | none => s.ends st none (.new "watchd: snapshot rows outside a snapshot")
    | some w =>
      match st.put s.store w rows with
      | (store, w, some err) =>
        { s with store := store }.ends st (some w) (.store "put snapshot rows" err)
      | (store, w, none) => { s with store := store, phase := .streaming cursor true (some w) }
  | .snapshotEnd =>
    match writer with
    | none => s.ends st none (.new "watchd: snapshot end outside a snapshot")
    | some w =>
      match st.commit s.store w with
      | (store, some err) => { s with store := store }.ends st none (.store "commit snapshot" err)
      | (store, none) =>
        { s with store := store, phase := .streaming cursor true none }.observe .committed
  | .batch batch =>
    match writer with
    | some w => s.ends st (some w) (.new "watchd: batch inside a snapshot")
    | none =>
      match st.apply s.store batch with
      | (store, some err) => { s with store := store }.ends st none (.store "apply batch" err)
      | (store, none) => { s with store := store, phase := .streaming cursor true none }
  | .progress confirmed =>
    match writer with
    | some w => s.ends st (some w) (.new "watchd: progress inside a snapshot")
    | none =>
      match st.saveCursor s.store confirmed with
      | (store, some err) => { s with store := store }.ends st none (.store "save cursor" err)
      | (store, none) =>
        { s with
          store := store
          progressed := true
          phase := .streaming cursor true none }.setState true confirmed
  | .resync => (s.observe .resync).ends st writer .resync
  | .unknown type => s.ends st writer (.new ("watchd: unknown server event " ++ type))

/-- The switch on what ended a stream: the call as it goes on and whether it retries at once, or
`none` where it returns the error. -/
def retry (s : Sync σ ω) : StreamError → Option (Sync σ ω × Bool)
  | .resync => some ({ s with snapshot := true, resyncs := s.resyncs + 1 }, s.resyncs + 1 = 1)
  | .store _ _ => none
  | err =>
    -- the server refused the stored cursor: start over from a snapshot
    if err.code = .invalidArgument ∧ !s.snapshot then some ({ s with snapshot := true }, true)
    else if isPermanent err then none
    else some ({ s with snapshot := false }, false)

/-- What `Sync` does once `stream` has returned `err`. -/
def recover (s : Sync σ ω) (err : StreamError) (cancelled : Bool) : Sync σ ω :=
  let s := s.setState false s.state.cursor
  if cancelled then { s with phase := .returned none }
  else
    match s.retry err with
    | none => { s with phase := .returned (some err) }
    | some (s, retryNow) =>
      let s :=
        if s.progressed then
          { s with backoff := s.minBackoff, resyncs := if err = .resync then 1 else 0 }
        else s
      { s with phase := if retryNow then .opening else .waiting }

/-- One step. -/
def step (s : Sync σ ω) : Label → Option (Sync σ ω)
  | .open_ failure =>
    match s.phase with
    | .opening => some (s.openStream st failure)
    | _ => none
  | .recv r =>
    match s.phase with
    | .streaming cursor _ writer =>
      match r with
      | .event event => some (s.handle st cursor writer event)
      | .eof => some (s.ends st writer (.new "watchd: server ended the stream"))
      | .status code => some (s.ends st writer (.status code))
    | _ => none
  | .next cancelled =>
    match s.phase with
    | .ended err => some (s.recover err cancelled)
    | _ => none
  | .wait cancelled =>
    match s.phase with
    | .waiting =>
      if cancelled then some { s with phase := .returned none }
      else some { s with phase := .opening, backoff := min (s.backoff * 2) s.maxBackoff }
    | _ => none

@[simp] theorem phase_ends (s : Sync σ ω) (writer : Option ω) (err : StreamError) :
    (s.ends st writer err).phase = .ended err := by
  cases writer <;> rfl

@[simp] theorem phase_setState (s : Sync σ ω) (fresh : Bool) (cursor : String) :
    (s.setState fresh cursor).phase = s.phase := by
  unfold setState
  split <;> rfl

@[simp] theorem store_setState (s : Sync σ ω) (fresh : Bool) (cursor : String) :
    (s.setState fresh cursor).store = s.store := by
  unfold setState
  split <;> rfl

@[simp] theorem state_setState (s : Sync σ ω) (fresh : Bool) (cursor : String) :
    (s.setState fresh cursor).state = ⟨fresh, cursor⟩ := by
  unfold setState
  split
  · next h => exact h.2.symm
  · rfl

/-- The steps of a call, by what it does next. -/
inductive Steps (s : Sync σ ω) : Label → Sync σ ω → Prop
  | opens (failure : Option Code) (hphase : s.phase = .opening) :
      Steps s (.open_ failure) (s.openStream st failure)
  | handles {cursor : String} {heard : Bool} {writer : Option ω} (event : Event)
      (hphase : s.phase = .streaming cursor heard writer) :
      Steps s (.recv (.event event)) (s.handle st cursor writer event)
  | eof {cursor : String} {heard : Bool} {writer : Option ω}
      (hphase : s.phase = .streaming cursor heard writer) :
      Steps s (.recv .eof) (s.ends st writer (.new "watchd: server ended the stream"))
  | fails {cursor : String} {heard : Bool} {writer : Option ω} (code : Code)
      (hphase : s.phase = .streaming cursor heard writer) :
      Steps s (.recv (.status code)) (s.ends st writer (.status code))
  | recovers {err : StreamError} (cancelled : Bool) (hphase : s.phase = .ended err) :
      Steps s (.next cancelled) (s.recover err cancelled)
  | stops (hphase : s.phase = .waiting) :
      Steps s (.wait true) { s with phase := .returned none }
  | waits (hphase : s.phase = .waiting) :
      Steps s (.wait false)
        { s with phase := .opening, backoff := min (s.backoff * 2) s.maxBackoff }

variable {st}

theorem step_cases {s s' : Sync σ ω} {l : Label} (h : s.step st l = some s') : s.Steps st l s' := by
  cases l with
  | open_ failure =>
    simp only [step] at h
    split at h
    · next hphase =>
      cases h
      exact .opens failure hphase
    · cases h
  | recv r =>
    simp only [step] at h
    split at h
    · next hphase =>
      cases r with
      | event event =>
        cases h
        exact .handles event hphase
      | eof =>
        cases h
        exact .eof hphase
      | status code =>
        cases h
        exact .fails code hphase
    · cases h
  | next cancelled =>
    simp only [step] at h
    split at h
    · next hphase =>
      cases h
      exact .recovers cancelled hphase
    · cases h
  | wait cancelled =>
    simp only [step] at h
    split at h
    · next hphase =>
      cases cancelled with
      | true =>
        cases h
        exact .stops hphase
      | false =>
        cases h
        exact .waits hphase
    · cases h

/-- Only a stream receives. -/
theorem streaming_of_recv {s s' : Sync σ ω} {r : Recv} (h : s.step st (.recv r) = some s') :
    ∃ cursor heard writer, s.phase = .streaming cursor heard writer := by
  cases step_cases h with
  | handles event hphase => exact ⟨_, _, _, hphase⟩
  | eof hphase => exact ⟨_, _, _, hphase⟩
  | fails code hphase => exact ⟨_, _, _, hphase⟩

/-- A retry decides only how the next stream is opened. -/
theorem retry_eq {s s' : Sync σ ω} {err : StreamError} {retryNow : Bool}
    (h : s.retry err = some (s', retryNow)) :
    ∃ snapshot resyncs, s' = { s with snapshot := snapshot, resyncs := resyncs } := by
  unfold retry at h
  split at h
  · cases h
    exact ⟨_, _, rfl⟩
  · cases h
  · split at h
    · cases h
      exact ⟨_, _, rfl⟩
    · split at h
      · cases h
      · cases h
        exact ⟨_, _, rfl⟩

/-- What follows a stream reports the projection stale, opens none, and decides how the call goes
on. -/
theorem recover_eq (s : Sync σ ω) (err : StreamError) (cancelled : Bool) :
    ∃ phase backoff snapshot resyncs, s.recover err cancelled =
        { s.setState false s.state.cursor with
          phase := phase, backoff := backoff, snapshot := snapshot, resyncs := resyncs } ∧
      ∀ cursor heard writer, phase ≠ .streaming cursor heard writer := by
  unfold recover
  dsimp only
  split
  · exact ⟨_, _, _, _, rfl, by simp⟩
  · split
    · exact ⟨_, _, _, _, rfl, by simp⟩
    · next t retryNow hretry =>
      obtain ⟨snapshot, resyncs, rfl⟩ := retry_eq hretry
      have hphase : ∀ cursor heard (writer : Option ω),
          (if retryNow = true then Phase.opening else .waiting) ≠
            .streaming cursor heard writer := by
        intro cursor heard writer
        split <;> simp
      split <;> exact ⟨_, _, _, _, rfl, hphase⟩

variable (st)

theorem step_recv {s : Sync σ ω} {cursor : String} {heard : Bool} {writer : Option ω}
    (hp : s.phase = .streaming cursor heard writer) (event : Event) :
    s.step st (.recv (.event event)) = some (s.handle st cursor writer event) := by
  simp only [step, hp]

end Sync

/-- The machine of one Sync call over a store. -/
def machine {σ ω : Type} (st : Store σ ω) : Machine (Sync σ ω) Label where
  init s := ∃ store minBackoff maxBackoff, s = .start store minBackoff maxBackoff
  step := Sync.step st

end Watchd.Sdk
