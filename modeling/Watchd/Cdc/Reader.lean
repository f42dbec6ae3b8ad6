import Mathlib.Data.List.DropRight
import Watchd.Cdc.Retry
import Watchd.Cdc.RetentionPolicy
import Watchd.Lib.History

/-!
# The reader's loop

`Run` calls `read` again and again; each call owns one replication connection and
returns with an error.  A retryable error is followed by a wait and another
connection, as long as the attempts last.  Beside the loop the retention policy
samples the slot, and stops the stream for good at the budget.  The sink is any
function on a state `σ`.

* `retention_reaches`: the reader's samples are a run of the retention policy;
* `retryExhausted_iff`: `Run` gives up exactly when it has seen more outages than
  it has attempts, in all its life.
-/

namespace Watchd.Cdc

open Watchd.Lib

/-! ## What the server says -/

/-- `strings.Contains`. -/
def containsText (text part : String) : Bool := decide (part.toList <:+: text.toList)

/-- The class of a server error, and whether it is worth a retry. -/
def classifySQLState (sqlState message : String) : GoError :=
  if containsText message.toLower "requested wal segment" ∧
      containsText message.toLower "removed" then
    .classified (.sentinel .slotInvalidated) false sqlState
  else if sqlState = "42501" then .classified (.sentinel .insufficientPrivileges) false sqlState
  else if sqlState = "42704" then .classified (.sentinel .slotInvalidated) false sqlState
  else if sqlState = "55006" then .classified (.sentinel .slotInUse) true sqlState
  else if sqlState = "57P01" ∨ sqlState = "57P02" ∨ sqlState = "57P03" then
    .classified (.sentinel .replicationEnded) true sqlState
  else .classified (.sentinel .postgresServer) false sqlState

/-- What `ReceiveMessage` returns. -/
inductive Received
  | copyData (data : CopyData)
  | errorResponse (code message : String)
  | copyDone
  | other (typeName : String)
  /-- the status interval has passed -/
  | timeout
  | failed (err : GoError)

namespace Reader

/-! ## The machine -/

/-- Where `Run` stands. -/
inductive Phase
  /-- `read` has been called and has no stream yet -/
  | connecting
  /-- `receive` runs; `accepted` transactions of this connection were accepted -/
  | streaming (stream : Stream) (accepted : Nat)
  /-- `read` has returned -/
  | ended (err : Option GoError) (accepted : Nat)
  /-- waiting to reconnect -/
  | waiting
  /-- `budgetExceeded` is dropping the slot -/
  | dropping
  | returned (err : Option GoError)

/-- `Run` with its two contexts, and the retention policy.  `connections` is a history variable. -/
structure State (σ : Type) where
  config : FullReaderConfig
  sink : σ
  phase : Phase := .connecting
  attempts : Nat := 0
  /-- the caller's context is done -/
  cancelled : Bool := false
  /-- what `stopStream` was called with -/
  stopped : Option GoError := none
  retention : RetentionState := .ok
  /-- where the stream that `Bootstrap` left starts -/
  bootstrapLSN : Option Nat := none
  /-- for each connection `Run` has seen end, oldest first, how many transactions were accepted -/
  connections : List Nat := []

/-- The steps of a running reader and of what acts on it. -/
inductive Label
  /-- the caller cancels -/
  | cancel
  /-- the monitor samples the slot -/
  | sample (slot : Except GoError (Option (Option Int))) (keepSize : Except GoError (Int × Bool))
  /-- `read` opens its stream: an error, or the position to start at -/
  | connect (result : Except GoError Nat)
  | receive (received : Received) (reads : Reads) (sendErr : Option GoError)
  /-- `Run` looks at what `read` returned -/
  | next
  /-- the wait is over; `fired` tells whether its time has passed -/
  | wait (fired : Bool)
  /-- dropping the slot has returned -/
  | drop (err : Option GoError)

/-- The error of a context that was cancelled. -/
def ctxErr : GoError := .new "context canceled"

/-- What `Run` returns once the attempts are used up. -/
def retryExhausted (err : GoError) : GoError := errorf .retryExhausted (": " ++ err.text)

section

variable {σ : Type} (sink : σ → Transaction → σ × Option GoError)

/-- The sink, counting what it accepts. -/
def counting (p : σ × Nat) (t : Transaction) : (σ × Nat) × Option GoError :=
  match sink p.1 t with
  | (hub, none) => ((hub, p.2 + 1), none)
  | (hub, some err) => ((hub, p.2), some err)

namespace State

/-- The stream's context is done. -/
def streamDone (s : State σ) : Bool := s.cancelled || s.stopped.isSome

/-- `read` returns. -/
def readReturns (s : State σ) (accepted : Nat) (err : GoError) : State σ :=
  { s with phase := .ended (some err) accepted }

/-- A stream has started at `startLSN`, with a new decoder. -/
def streamFrom (s : State σ) (startLSN : Nat) : State σ :=
  { s with phase := .streaming ⟨s.config.newDecoder, startLSN⟩ 0 }

/-- `read` up to its stream: the one `Bootstrap` left, or a new one. -/
def read (s : State σ) (result : Except GoError Nat) : State σ :=
  match s.bootstrapLSN with
  | some startLSN => { s with bootstrapLSN := none }.streamFrom startLSN
  | none =>
    match result with
    | .error err => s.readReturns 0 err
    | .ok startLSN => s.streamFrom startLSN

/-- One turn of `receive`. -/
def receive (s : State σ) (stream : Stream) (accepted : Nat) (reads : Reads)
    (sendErr : Option GoError) : Received → State σ
  | .copyData data =>
    let h := consumeCopyData s.config.toReaderConfig (counting sink) reads sendErr stream
      (s.sink, accepted) data
    let s := { s with sink := h.sink.1 }
    match h.err with
    | some err => s.readReturns h.sink.2 err
    | none => { s with phase := .streaming h.stream h.sink.2 }
  | .errorResponse code message => s.readReturns accepted (classifySQLState code message)
  | .copyDone => s.readReturns accepted (.classified (.sentinel .replicationEnded) true "")
  | .other typeName =>
    s.readReturns accepted (errorf .unexpectedReplicationMessage (": " ++ typeName))
  | .timeout =>
    if s.streamDone then s.readReturns accepted ctxErr
    else
      match (acknowledge sendErr stream s.sink).err with
      | some err => s.readReturns accepted err
      | none => { s with phase := .streaming stream accepted }
  | .failed err => s.readReturns accepted (if s.streamDone then ctxErr else err)

/-- What `Run` does with what `read` returned. -/
def afterRead (s : State σ) (err : Option GoError) (accepted : Nat) : State σ :=
  let s := { s with connections := s.connections ++ [accepted] }
  if s.cancelled then { s with phase := .returned none }
  else if s.stopped.isSome then { s with phase := .dropping }
  else
    match err with
    | none => { s with phase := .returned none }
    | some err =>
      if !isRetryable err then { s with phase := .returned (some err) }
      else if (s.attempts : Int) ≥ s.config.retryPolicy.maxAttempts then
        { s with phase := .returned (some (retryExhausted err)) }
      else { s with phase := .waiting, attempts := s.attempts + 1 }

/-- The error of `budgetExceeded`; `err` is that of dropping the slot. -/
def budgetExceeded (s : State σ) (err : Option GoError) : GoError :=
  let cause := s.stopped.getD ctxErr
  match err with
  | some err => .wrap "" cause ("; dropping slot " ++ s.config.slotName ++
      " failed, so PostgreSQL still retains its WAL: " ++ err.text)
  | none => .wrap "" cause (": dropped replication slot " ++ s.config.slotName)

/-- One step of `Run`, of the retention monitor or of the caller. -/
def step (s : State σ) : Label → Option (State σ)
  | .cancel => some { s with cancelled := true }
  | .sample slot keepSize =>
    match sampleRetention s.config s.retention slot keepSize with
    -- a failed sample is skipped
    | .error _ => some s
    | .ok (retention, stop) => some { s with retention := retention, stopped := s.stopped <|> stop }
  | .connect result =>
    match s.phase with
    | .connecting => some (s.read result)
    | _ => none
  | .receive received reads sendErr =>
    match s.phase with
    | .streaming stream accepted => some (s.receive sink stream accepted reads sendErr received)
    | _ => none
  | .next =>
    match s.phase with
    | .ended err accepted => some (s.afterRead err accepted)
    | _ => none
  | .wait fired =>
    match s.phase with
    | .waiting =>
      if fired then some { s with phase := .connecting }
      else if s.cancelled then some { s with phase := .returned none }
      else if s.stopped.isSome then some { s with phase := .dropping }
      else none
    | _ => none
  | .drop err =>
    match s.phase with
    | .dropping => some { s with phase := .returned (some (s.budgetExceeded err)) }
    | _ => none

end State

/-- A call of `Run` on a new reader, which `Bootstrap` may have left a stream. -/
def machine : Machine (State σ) Label where
  init s := ∃ config store bootstrapLSN, newReader config true = .ok s.config ∧
    s = { config := s.config, sink := store, bootstrapLSN := bootstrapLSN }
  step := State.step sink

/-! ## One step -/

/-- `read` is running, or has just returned. -/
def Phase.Reading : Phase → Prop
  | .connecting | .streaming .. | .ended .. => True
  | _ => False

/-- What `Run` goes to when it stops for another reason than its attempts. -/
def Phase.Quits : Phase → Prop
  | .dropping => True
  | .returned err => ∀ last, err ≠ some (retryExhausted last)
  | _ => False

namespace State

/-- What `Run` looks at is an outage: the connection ended with a retryable error, and nobody has
told `Run` to stop.  The value is how many transactions the connection had accepted. -/
def outage? (s : State σ) : Option Nat :=
  match s.phase with
  | .ended (some err) accepted => if isRetryable err && !s.streamDone then some accepted else none
  | _ => none

/-- What each step does, as far as the attempts and the retention policy go. -/
inductive Steps (s : State σ) : Label → State σ → Prop
  | cancels : Steps s .cancel { s with cancelled := true }
  | skips {slot : Except GoError (Option (Option Int))} {keepSize : Except GoError (Int × Bool)} :
      Steps s (.sample slot keepSize) s
  | samples {slot : Except GoError (Option (Option Int))} {keepSize : Except GoError (Int × Bool)}
      {retention : RetentionState} {stop : Option GoError}
      (hsample : sampleRetention s.config s.retention slot keepSize = .ok (retention, stop)) :
      Steps s (.sample slot keepSize)
        { s with retention := retention, stopped := s.stopped <|> stop }
  /-- the connection goes on, or ends -/
  | reads {l : Label} {phase : Phase} {store : σ} {bootstrapLSN : Option Nat}
      (hl : l ≠ .next) (hphase : s.phase.Reading) (hnext : phase.Reading) :
      Steps s l { s with phase := phase, sink := store, bootstrapLSN := bootstrapLSN }
  | quits {err : Option GoError} {accepted : Nat} {phase : Phase}
      (hphase : s.phase = .ended err accepted) (houtage : s.outage? = none)
      (hquits : phase.Quits) :
      Steps s .next { s with phase := phase, connections := s.connections ++ [accepted] }
  | exhausts {err : GoError} {accepted : Nat} (hphase : s.phase = .ended (some err) accepted)
      (houtage : s.outage? = some accepted)
      (hattempts : s.config.retryPolicy.maxAttempts ≤ s.attempts) :
      Steps s .next
        { s with
          phase := .returned (some (retryExhausted err))
          connections := s.connections ++ [accepted] }
  | backsOff {err : Option GoError} {accepted : Nat} (hphase : s.phase = .ended err accepted)
      (houtage : s.outage? = some accepted)
      (hattempts : s.attempts < s.config.retryPolicy.maxAttempts) :
      Steps s .next
        { s with
          phase := .waiting
          attempts := s.attempts + 1
          connections := s.connections ++ [accepted] }
  | reconnects (hphase : s.phase = .waiting) : Steps s (.wait true) { s with phase := .connecting }
  | leaves {phase : Phase} (hphase : s.phase = .waiting) (hquits : phase.Quits) :
      Steps s (.wait false) { s with phase := phase }
  | drops {err : Option GoError} (hphase : s.phase = .dropping) :
      Steps s (.drop err) { s with phase := .returned (some (s.budgetExceeded err)) }

variable {sink}

/-- `read` goes on or returns, and touches nothing but its stream and the sink. -/
theorem readReturns_steps {s : State σ} {l : Label} (hl : l ≠ .next)
    (hphase : s.phase.Reading) (store : σ) (accepted : Nat) (err : GoError) :
    s.Steps l ({ s with sink := store }.readReturns accepted err) :=
  .reads hl hphase trivial

theorem read_steps {s : State σ} {l : Label} (hl : l ≠ .next)
    (hphase : s.phase.Reading) (result : Except GoError Nat) : s.Steps l (s.read result) := by
  unfold read
  split
  · exact .reads hl hphase trivial
  · split
    · exact readReturns_steps hl hphase s.sink _ _
    · exact .reads hl hphase trivial

theorem receive_steps {s : State σ} {l : Label} (hl : l ≠ .next)
    (hphase : s.phase.Reading) (stream : Stream) (accepted : Nat) (reads : Reads)
    (sendErr : Option GoError) (received : Received) :
    s.Steps l (s.receive sink stream accepted reads sendErr received) := by
  have hreturns := readReturns_steps hl hphase
  cases received with
  | copyData data =>
    simp only [receive]
    split
    · exact hreturns _ _ _
    · exact .reads hl hphase trivial
  | errorResponse code message => exact hreturns s.sink _ _
  | copyDone => exact hreturns s.sink _ _
  | other typeName => exact hreturns s.sink _ _
  | timeout =>
    simp only [receive]
    split
    · exact hreturns s.sink _ _
    · split
      · exact hreturns s.sink _ _
      · exact .reads hl hphase trivial
  | failed err => exact hreturns s.sink _ _

theorem isRetryable_retryExhausted (err : GoError) : isRetryable (retryExhausted err) = true := rfl

theorem afterRead_steps {s : State σ} {err : Option GoError} {accepted : Nat}
    (hphase : s.phase = .ended err accepted) : s.Steps .next (s.afterRead err accepted) := by
  have hnone : (Phase.returned none).Quits := fun last h => by cases h
  unfold afterRead
  dsimp only
  split
  · next hcancelled =>
    exact .quits hphase (by cases err <;> simp [outage?, hphase, streamDone, hcancelled]) hnone
  · next hcancelled =>
    split
    · next hstopped =>
      exact .quits hphase (by cases err <;> simp [outage?, hphase, streamDone, hstopped]) trivial
    · next hstopped =>
      have hdone : s.streamDone = false := by simp [streamDone, hcancelled, hstopped]
      cases err with
      | none => exact .quits hphase (by simp [outage?, hphase]) hnone
      | some err =>
        dsimp only
        split
        · next hterminal =>
          refine .quits hphase (by simp_all [outage?]) fun last h => ?_
          rw [Option.some.inj h, isRetryable_retryExhausted] at hterminal
          cases hterminal
        · next hretryable =>
          have houtage : s.outage? = some accepted := by simp_all [outage?]
          split
          · next hattempts => exact .exhausts hphase houtage hattempts
          · next hattempts => exact .backsOff hphase houtage (not_le.mp hattempts)

theorem step_cases {s s' : State σ} {l : Label} (h : s.step sink l = some s') : s.Steps l s' := by
  cases l with
  | cancel =>
    cases h
    exact .cancels
  | sample slot keepSize =>
    simp only [step] at h
    split at h
    · cases h
      exact .skips
    · next hsample =>
      cases h
      exact .samples hsample
  | connect result =>
    simp only [step] at h
    split at h
    · next hphase =>
      cases h
      exact read_steps (l := .connect result) nofun (by rw [hphase]; trivial) result
    · cases h
  | receive received reads sendErr =>
    simp only [step] at h
    split at h
    · next hphase =>
      cases h
      exact receive_steps (l := .receive received reads sendErr) nofun (by rw [hphase]; trivial)
        _ _ reads sendErr received
    · cases h
  | next =>
    simp only [step] at h
    split at h
    · next hphase =>
      cases h
      exact afterRead_steps hphase
    · cases h
  | wait fired =>
    simp only [step] at h
    split at h
    · next hphase =>
      split at h
      · next hfired =>
        cases h
        cases hfired
        exact .reconnects hphase
      · next hfired =>
        rw [Bool.not_eq_true] at hfired
        subst hfired
        split at h
        · cases h
          exact .leaves hphase fun last h => by cases h
        · split at h
          · cases h
            exact .leaves hphase trivial
          · cases h
    · cases h
  | drop err =>
    simp only [step] at h
    split at h
    · next hphase =>
      cases h
      exact .drops hphase
    · cases h

end State

/-! ## The policy while the reader runs -/

variable {sink}

/-- Where `Run` starts. -/
structure Fresh (s : State σ) : Prop where
  admitted : s.config.Admitted
  phase : s.phase = .connecting
  attempts : s.attempts = 0
  stopped : s.stopped = none
  retention : s.retention = .ok
  connections : s.connections = []

theorem fresh {s : State σ} (h : (machine sink).init s) : Fresh s := by
  obtain ⟨config, store, bootstrapLSN, hconfig, hs⟩ := h
  have hadmitted := (newReader_eq_ok hconfig).2
  rw [hs]
  exact ⟨hadmitted, rfl, rfl, rfl, rfl, rfl⟩

/-- The stream is stopped exactly when the policy is terminal, and then for the budget. -/
theorem stopped_eq {ok : State σ → Label → Prop} {s : State σ}
    (h : Reaches (machine sink) ok s) : s.stopped = s.retention.cause := by
  induction h with
  | init h =>
    rw [(fresh h).stopped, (fresh h).retention]
    rfl
  | step _ _ hs ih =>
    cases State.step_cases hs with
    | samples hsample =>
      dsimp only
      rw [ih]
      exact sampleRetention_cause hsample
    | _ => exact ih

/-! ## The attempts -/

/-- Notes the outages that `Run` has seen in its life, oldest first. -/
def noteOutage (s : State σ) : Label → State σ → List Nat → List Nat
  | .next, _, outages => outages ++ s.outage?.toList
  | _, _, outages => outages

theorem noteOutage_of_ne {s s' : State σ} {l : Label} {outages : List Nat} (hl : l ≠ .next) :
    noteOutage s l s' outages = outages := by
  cases l with
  | next => exact absurd rfl hl
  | _ => rfl

/-- `Run` with a note of its outages. -/
def notingOutages (sink : σ → Transaction → σ × Option GoError) :
    Machine (State σ × List Nat) Label :=
  (machine sink).noting [] noteOutage

/-- What the outages have to do with the attempts, by phase. -/
def Phase.Counted (maxAttempts : Int) (attempts : Nat) (connections outages : List Nat) :
    Phase → Prop
  | .dropping => outages.length ≤ maxAttempts
  | .returned err =>
    (∃ last, err = some (retryExhausted last)) ∧ outages = connections ∧
        (outages.length : Int) = maxAttempts + 1 ∨
      (∀ last, err ≠ some (retryExhausted last)) ∧ outages.length ≤ maxAttempts
  | _ => outages = connections ∧ outages.length = attempts ∧ (attempts : Int) ≤ maxAttempts

section Counted

variable {maxAttempts : Int} {attempts : Nat} {connections outages : List Nat} {phase : Phase}

theorem Phase.Reading.counted_iff (h : phase.Reading) :
    phase.Counted maxAttempts attempts connections outages ↔
      outages = connections ∧ outages.length = attempts ∧ (attempts : Int) ≤ maxAttempts := by
  cases phase with
  | connecting | streaming | ended => exact Iff.rfl
  | waiting | dropping | returned => exact h.elim

theorem Phase.Quits.counted (h : phase.Quits) (hle : outages.length ≤ maxAttempts) :
    phase.Counted maxAttempts attempts connections outages := by
  cases phase with
  | dropping => exact hle
  | returned err => exact .inr ⟨h, hle⟩
  | connecting | streaming | ended | waiting => exact h.elim

end Counted

/-- The budget's error is not that of the attempts. -/
theorem budgetExceeded_ne (s : State σ) (hs : s.stopped = s.retention.cause) (err : Option GoError)
    (last : GoError) : s.budgetExceeded err ≠ retryExhausted last := by
  have hcause : s.stopped.getD ctxErr ≠ .sentinel .retryExhausted := by
    rw [hs]
    cases s.retention <;> simp [RetentionState.cause, ctxErr]
  cases err <;> simp [State.budgetExceeded, retryExhausted, errorf, hcause]

/-- The attempts are never reset: each outage of `Run`'s life is one of them. -/
theorem counted {p : State σ × List Nat} (h : Reaches (notingOutages sink) anyStep p) :
    p.1.phase.Counted p.1.config.retryPolicy.maxAttempts p.1.attempts p.1.connections p.2 := by
  induction h with
  | init h =>
    have hs := fresh h.1
    rw [hs.phase, hs.attempts, hs.connections, h.2]
    exact ⟨rfl, rfl, hs.admitted.retry.2.2.1⟩
  | @step p p' l h _ hs ih =>
    obtain ⟨hstep, hnote⟩ := Machine.noting_step hs
    have hstopped := stopped_eq (Reaches.of_noting anyStep h)
    rw [hnote]
    generalize p'.1 = s' at hstep
    cases State.step_cases hstep with
    | cancels | skips | samples => exact ih
    | reads hl hphase hnext =>
      rw [noteOutage_of_ne hl]
      exact hnext.counted_iff.mpr (hphase.counted_iff.mp ih)
    | quits hphase houtage hquits =>
      rw [hphase] at ih
      obtain ⟨-, hlen, hle⟩ := ih
      rw [noteOutage, houtage, Option.toList_none, List.append_nil]
      exact hquits.counted (by rw [hlen]; exact hle)
    | exhausts hphase houtage hattempts =>
      rw [hphase] at ih
      obtain ⟨heq, hlen, hle⟩ := ih
      rw [noteOutage, houtage, Option.toList_some]
      refine .inl ⟨⟨_, rfl⟩, by rw [heq], ?_⟩
      rw [List.length_append, List.length_singleton, hlen]
      push_cast
      omega
    | backsOff hphase houtage hattempts =>
      rw [hphase] at ih
      obtain ⟨heq, hlen, hle⟩ := ih
      rw [noteOutage, houtage, Option.toList_some]
      refine ⟨by rw [heq], by rw [List.length_append, List.length_singleton, hlen], ?_⟩
      push_cast
      omega
    | reconnects hphase =>
      rw [hphase] at ih
      exact ih
    | leaves hphase hquits =>
      rw [hphase] at ih
      obtain ⟨-, hlen, hle⟩ := ih
      rw [noteOutage_of_ne (l := .wait false) nofun]
      exact hquits.counted (by rw [hlen]; exact hle)
    | drops hphase =>
      rw [hphase] at ih
      refine .inr ⟨fun last herr => ?_, ih⟩
      exact budgetExceeded_ne _ hstopped _ last (Option.some.inj herr)

/-- **The attempts count the life of `Run`, not an outage.**  `Run` gives up exactly when it has
seen one outage more than it has attempts, in all its life.  So its last connections accepted
nothing when it gives up exactly in the runs that have seen no more outages than attempts, or none
after a transaction was accepted. -/
theorem retryExhausted_iff {s : State σ} {outages : List Nat}
    (h : Reaches (notingOutages sink) anyStep (s, outages)) :
    ((∃ err, s.phase = .returned (some (retryExhausted err))) ↔
      (outages.length : Int) > s.config.retryPolicy.maxAttempts) ∧
    ((∀ err, s.phase = .returned (some (retryExhausted err)) →
        ∀ accepted ∈ s.connections.rtake (s.config.retryPolicy.maxAttempts + 1).toNat,
          accepted = 0) ↔
      (outages.length : Int) ≤ s.config.retryPolicy.maxAttempts ∨
        ∀ accepted ∈ outages, accepted = 0) := by
  have hcount : s.phase.Counted s.config.retryPolicy.maxAttempts s.attempts s.connections outages :=
    counted h
  by_cases hexhausted : ∃ err, s.phase = .returned (some (retryExhausted err))
  · obtain ⟨err, hphase⟩ := hexhausted
    have hseen : outages = s.connections ∧
        (outages.length : Int) = s.config.retryPolicy.maxAttempts + 1 := by
      rw [hphase] at hcount
      rcases hcount with ⟨-, heq, hlen⟩ | ⟨hne, -⟩
      · exact ⟨heq, hlen⟩
      · exact absurd rfl (hne err)
    obtain ⟨heq, hlen⟩ := hseen
    -- the last connections are all that there were
    have htake :
        s.connections.rtake (s.config.retryPolicy.maxAttempts + 1).toNat = outages := by
      rw [← hlen, Int.toNat_natCast, heq, List.rtake, Nat.sub_self, List.drop_zero]
    refine ⟨⟨fun _ => by omega, fun _ => ⟨err, hphase⟩⟩, ?_⟩
    rw [htake]
    exact ⟨fun hidle => .inr (hidle err hphase), fun hor _ _ => hor.resolve_left (by omega)⟩
  · have hle : (outages.length : Int) ≤ s.config.retryPolicy.maxAttempts := by
      cases hphase : s.phase with
      | returned err =>
        rw [hphase] at hcount
        rcases hcount with ⟨⟨last, rfl⟩, -⟩ | ⟨-, hle⟩
        · exact absurd ⟨last, hphase⟩ hexhausted
        · exact hle
      | dropping =>
        rw [hphase] at hcount
        exact hcount
      | connecting | streaming | ended | waiting =>
        rw [hphase] at hcount
        obtain ⟨-, hlen, hle⟩ := hcount
        omega
    refine ⟨⟨fun hex => absurd hex hexhausted, fun hgt => by omega⟩, fun _ => .inl hle, ?_⟩
    exact fun _ err hphase => absurd ⟨err, hphase⟩ hexhausted

end

namespace Demo

/-- The defaults, with one attempt to reconnect. -/
def oneAttempt : FullReaderConfig :=
  { Demo.defaults with retryPolicy := { Demo.defaults.retryPolicy with maxAttempts := 1 } }

/-- A sink that accepts every transaction and counts them. -/
def accepts (count : Nat) (_ : Transaction) : Nat × Option GoError := (count + 1, none)

/-- A reader that allows one retry. -/
def start : State Nat where
  config := oneAttempt
  sink := 0

theorem start_init : (machine accepts).init start :=
  ⟨oneAttempt, 0, none, by decide +kernel, rfl⟩

/-- A message, with no baseline recorded in between. -/
def receives (received : Received) : Label := .receive received (.still {}) none

/-- WAL data with a message in it. -/
def wal (walBytes : Nat) (message : Message) : Label :=
  receives (.copyData (.xlogData walBytes (some message)))

/-- A stream that the server ends at once. -/
def idle : List Label := [.connect (.ok 40), receives .copyDone, .next]

/-- A stream that the server ends after a transaction of one row. -/
def streamed (startLSN : Nat) : List Label :=
  [.connect (.ok startLSN), wal 30 (.relation ⟨3, "public", "notes", 0x64, [⟨1, "id", 25⟩]⟩),
    wal 20 (.begin 7 0), wal 12 (.insert ⟨3, some [⟨tupleDataTypeText, [0x31]⟩]⟩),
    wal 25 (.commit (startLSN + 50) (startLSN + 60)), receives .copyDone, .next]

/-- A sample of a slot that retains so much, on a server without a limit. -/
def retains (bytes : Int) : Label := .sample (.ok (some (some bytes))) (.ok (0, true))

/-- What a stream that the server ends fails with. -/
def streamEnded : GoError := .classified (.sentinel .replicationEnded) true ""

end Demo

/-- Two outages, none after a transaction was accepted. -/
theorem retryExhausted_idle :
    ∃ s outages err, Reaches (notingOutages Demo.accepts) anyStep (s, outages) ∧
      s.phase = .returned (some (retryExhausted err)) ∧ outages = [0, 0] ∧
      ∀ accepted ∈ s.connections.rtake (s.config.retryPolicy.maxAttempts + 1).toNat,
        accepted = 0 := by
  have hrun : ∃ p ∈ runWhile (notingOutages Demo.accepts) anyStep (Demo.start, [])
      (Demo.idle ++ [.wait true] ++ Demo.idle),
      p.1.phase = .returned (some (retryExhausted Demo.streamEnded)) ∧ p.2 = [0, 0] :=
    ⟨_, rfl, rfl, rfl⟩
  obtain ⟨⟨s, outages⟩, hs, hphase, houtages⟩ := hrun
  have hreach : Reaches (notingOutages Demo.accepts) anyStep (s, outages) :=
    .of_runWhile (.init ⟨Demo.start_init, rfl⟩) hs
  refine ⟨s, outages, _, hreach, hphase, houtages, ?_⟩
  refine (retryExhausted_iff hreach).2.2 (.inr ?_) _ hphase
  rw [show outages = [0, 0] from houtages]
  decide

/-- Two outages, each after a transaction was accepted, and `Run` gives up. -/
theorem retryExhausted_streamed :
    ∃ s err, Reaches (machine Demo.accepts) anyStep s ∧
      s.phase = .returned (some (retryExhausted err)) ∧
      s.config.retryPolicy.maxAttempts = 1 ∧ s.connections = [1, 1] := by
  have hrun : ∃ s ∈ runWhile (machine Demo.accepts) anyStep Demo.start
      (Demo.streamed 40 ++ [.wait true] ++ Demo.streamed 100),
      s.phase = .returned (some (retryExhausted Demo.streamEnded)) ∧
        s.config.retryPolicy.maxAttempts = 1 ∧ s.connections = [1, 1] :=
    ⟨_, rfl, rfl, rfl, rfl⟩
  obtain ⟨s, hs, hphase, hmax, hconnections⟩ := hrun
  exact ⟨s, _, .of_runWhile (.init Demo.start_init) hs, hphase, hmax, hconnections⟩

end Reader

end Watchd.Cdc
