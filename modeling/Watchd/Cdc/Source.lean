import Mathlib.Data.List.Basic
import Watchd.Cdc.Errors
import Watchd.Lib.History

/-!
# The lifecycle of a source

`Start` calls, `Snapshot` calls, the goroutine of the stream and the one that
waits for the Start context share the lifecycle fields under one lock.  A
goroutine is where it stands in its code; a locked section that calls no Reader
primitive is one step, and the lock is held from step to step where the code
holds it across a primitive.  What a primitive returns, and when, is the step's
`Act`.

The invariant of the threads and the lock holds in every run (`Reaches.inv`).
-/

namespace Watchd.Cdc.Source

open Watchd.Lib

/-- Where a goroutine of the source stands. -/
inductive Phase
  /-- `Start`, before the lock -/
  | start
  /-- `Start` holds the lock while `slotExists` runs -/
  | slotExists
  /-- `Snapshot`, before the lock -/
  | snapshot
  /-- `Snapshot` holds the lock while `bootstrap` runs -/
  | bootstrap
  /-- `Snapshot` still holds the lock while the snapshot primitive runs -/
  | snapshotHeld
  /-- `Snapshot` has released the lock and the snapshot primitive runs -/
  | snapshotFree
  /-- `run` is streaming -/
  | run (ctx : Option Nat)
  /-- `run` has returned, before the lock -/
  | runEnded (err : Option GoError)
  /-- waiting for the Start context -/
  | ctxWait (ctx : Nat)
  /-- the Start context is done, before the lock -/
  | ctxDone
  | returned (result : Option GoError)
  deriving DecidableEq

/-- The lifecycle fields that callers decide by. -/
structure Fields where
  started : Bool := false
  streaming : Bool := false
  stopped : Bool := false
  deriving DecidableEq

/-- A source with the threads that run on it. -/
structure State where
  fields : Fields := {}
  runCtx : Option Nat := none
  /-- `stopOnce` has run -/
  once : Bool := false
  /-- `done` is closed -/
  done : Bool := false
  err : Option GoError := none
  /-- the goroutine that holds `mu` -/
  lock : Option Nat := none
  /-- the Start calls whose context is cancelled -/
  cancelled : List Nat := []
  threads : List Phase := []
  /-- how often `run` was started -/
  runs : Nat := 0
  /-- how often `done` was closed -/
  closes : Nat := 0

/-- What a Reader primitive returns to a goroutine. -/
inductive Act
  | run
  | slot (result : Except GoError Bool)
  | bootstrapped (err : Option GoError)
  | snapshotted (err : Option GoError)
  | ended (err : Option GoError)

/-- The steps of a source and its callers. -/
inductive Label
  /-- a new call of `Start` -/
  | start
  /-- a new call of `Snapshot` -/
  | snapshot
  /-- the context of a Start call is cancelled -/
  | cancel (ctx : Nat)
  | go (id : Nat) (act : Act)

namespace State

/-- `Err`. -/
def reportedErr (s : State) : Option GoError := if s.done then s.err else none

/-- The source can take the call. -/
def readyLocked (s : State) : Option GoError :=
  if !s.fields.started then some (.sentinel .sourceNotStarted)
  else if s.fields.stopped then some (.sentinel .sourceStopped)
  else none

theorem of_ready (s : State) (h : s.readyLocked = none) :
    s.fields.started = true ∧ s.fields.stopped = false := by
  unfold readyLocked at h
  split at h
  · cases h
  · next hstarted =>
    split at h
    · cases h
    · next hstopped => exact ⟨by simpa using hstarted, by simpa using hstopped⟩

/-- A new goroutine. -/
def spawn (s : State) (p : Phase) : State := { s with threads := s.threads ++ [p] }

/-- Goroutine `id` goes on to `p`. -/
def goto (s : State) (id : Nat) (p : Phase) : State := { s with threads := s.threads.set id p }

/-- Starts `Run` on a thread of its own, once. -/
def startRunLocked (s : State) : State :=
  if s.fields.streaming then s
  else
    { s with
      fields := { s.fields with streaming := true }
      runs := s.runs + 1
      threads := s.threads ++ [.run s.runCtx] }

/-- Stops the source, once, with the error it ended with. -/
def stopLocked (s : State) (err : Option GoError) : State :=
  if s.once then s
  else
    { s with
      once := true
      fields := { s.fields with stopped := true }
      err := err
      done := true
      closes := s.closes + 1 }

/-- The end of a `Start` that found out whether the slot exists. -/
def beginStream (s : State) (id : Nat) (slotExists : Bool) : State :=
  let s := { s with fields := { s.fields with started := true }, runCtx := some id }
  (if slotExists then s.startRunLocked else s).spawn (.ctxWait id)

/-- A step of goroutine `id`. -/
def advance (s : State) (id : Nat) : Phase → Act → Option State
  | .start, .run =>
    if s.lock.isSome then none
    else if s.fields.started then
      some (s.goto id (.returned (some (.sentinel .sourceAlreadyStarted))))
    else some ({ s with lock := some id }.goto id .slotExists)
  | .slotExists, .slot (.error err) =>
    some ({ s with lock := none }.goto id (.returned (some err)))
  | .slotExists, .slot (.ok slotExists) =>
    some ({ s.beginStream id slotExists with lock := none }.goto id (.returned none))
  | .snapshot, .run =>
    if s.lock.isSome then none
    else
      match s.readyLocked with
      | some err => some (s.goto id (.returned (some err)))
      | none =>
        if !s.fields.streaming then some ({ s with lock := some id }.goto id .bootstrap)
        else some (s.goto id .snapshotFree)
  | .bootstrap, .bootstrapped none =>
    some ({ s.startRunLocked with lock := none }.goto id (.returned none))
  | .bootstrap, .bootstrapped (some err) =>
    if !err.is .bootstrapSlotExists then
      some ({ s with lock := none }.goto id (.returned (some err)))
    else some (s.startRunLocked.goto id .snapshotHeld)
  | .snapshotHeld, .snapshotted err => some ({ s with lock := none }.goto id (.returned err))
  | .snapshotFree, .snapshotted err => some (s.goto id (.returned err))
  | .run _, .ended err => some (s.goto id (.runEnded err))
  | .runEnded err, .run =>
    if s.lock.isSome then none else some ((s.stopLocked err).goto id (.returned none))
  | .ctxWait ctx, .run => if ctx ∈ s.cancelled then some (s.goto id .ctxDone) else none
  | .ctxDone, .run =>
    if s.lock.isSome then none
    else if !s.fields.streaming then some ((s.stopLocked none).goto id (.returned none))
    else some (s.goto id (.returned none))
  | _, _ => none

/-- One step. -/
def step (s : State) : Label → Option State
  | .start => some (s.spawn .start)
  | .snapshot => some (s.spawn .snapshot)
  | .cancel ctx => some { s with cancelled := ctx :: s.cancelled }
  | .go id act => s.threads[id]?.bind fun p => s.advance id p act

end State

/-- The machine of a source made by `NewSource`. -/
def machine : Machine State Label := ⟨(· = {}), State.step⟩

/-! ## The invariant -/

/-- What holds of goroutine `i` while it stands at a phase. -/
def ThreadOk (f : Fields) (lock : Option Nat) (i : Nat) : Phase → Prop
  | .slotExists => lock = some i ∧ f.started = false
  | .bootstrap => lock = some i ∧ f = ⟨true, false, false⟩
  | .snapshotHeld => lock = some i ∧ f = ⟨true, true, false⟩
  | .snapshotFree | .run _ | .runEnded _ => lock ≠ some i ∧ f.streaming = true
  | .ctxWait _ | .ctxDone => lock ≠ some i ∧ f.started = true
  | _ => lock ≠ some i

/-- The phases that hold the lock. -/
def Phase.holds : Phase → Bool
  | .slotExists | .bootstrap | .snapshotHeld => true
  | _ => false

/-- What holds between the fields, the lock and the threads. -/
structure Inv (s : State) : Prop where
  threads : ∀ i p, s.threads[i]? = some p → ThreadOk s.fields s.lock i p
  lock : ∀ i, s.lock = some i → ∃ p, s.threads[i]? = some p ∧ p.holds = true
  streaming : s.fields.streaming = true → s.fields.started = true
  stopped : s.fields.stopped = true → s.fields.started = true
  runs : s.runs = if s.fields.streaming then 1 else 0
  once : s.once = s.fields.stopped
  done : s.done = s.fields.stopped
  closes : s.closes = if s.done then 1 else 0

theorem ThreadOk.lock_of_holds {f : Fields} {lock : Option Nat} {i : Nat} {p : Phase}
    (h : ThreadOk f lock i p) (hp : p.holds = true) : lock = some i := by
  cases p <;> first | exact h.1 | cases hp

theorem ThreadOk.not_lock {f : Fields} {lock : Option Nat} {i : Nat} {p : Phase}
    (h : ThreadOk f lock i p) (hp : p.holds = false) : lock ≠ some i := by
  cases p <;> first | exact h | exact h.1 | cases hp

/-- The fields only go up, except while someone holds the lock. -/
structure Fields.Le (f f' : Fields) : Prop where
  started : f.started = true → f'.started = true
  streaming : f.streaming = true → f'.streaming = true

/-- A goroutine that does not hold the lock is not disturbed by those who do. -/
theorem ThreadOk.mono {f f' : Fields} {lock lock' : Option Nat} {i : Nat} {p : Phase}
    (h : ThreadOk f lock i p) (hp : p.holds = false) (hle : f.Le f') (hlock : lock' ≠ some i) :
    ThreadOk f' lock' i p := by
  cases p <;> first
    | exact hlock
    | exact ⟨hlock, hle.streaming h.2⟩
    | exact ⟨hlock, hle.started h.2⟩
    | cases hp

namespace Inv

variable {s s' : State} {id : Nat} {p p' : Phase} {new : List Phase}

theorem initial : Inv {} := by
  refine ⟨?_, ?_, ?_, ?_, rfl, rfl, rfl, rfl⟩
  · intro i p hp
    simp at hp
  · intro i hi
    cases hi
  · exact fun hs => hs
  · exact fun hs => hs

/-- The goroutines after one of them has moved and perhaps started others. -/
theorem threads_of (h : Inv s) (id : Nat) (p' : Phase) (new : List Phase)
    (hthreads : s'.threads = s.threads.set id p' ++ new)
    (hother : ∀ j q, j ≠ id → ThreadOk s.fields s.lock j q → ThreadOk s'.fields s'.lock j q)
    (hid : ThreadOk s'.fields s'.lock id p')
    (hnew : ∀ j, s.threads.length ≤ j → ∀ q ∈ new, ThreadOk s'.fields s'.lock j q) :
    ∀ j q, s'.threads[j]? = some q → ThreadOk s'.fields s'.lock j q := by
  intro j q hq
  rw [hthreads] at hq
  by_cases hlt : j < (s.threads.set id p').length
  · rw [List.getElem?_append_left hlt, List.getElem?_set] at hq
    rw [List.length_set] at hlt
    split at hq
    · next heq =>
      subst heq
      rw [if_pos hlt] at hq
      cases hq
      exact hid
    · next hne => exact hother j q (Ne.symm hne) (h.threads j q hq)
  · rw [List.getElem?_append_right (by omega)] at hq
    rw [List.length_set] at hlt
    exact hnew j (by omega) q (List.mem_of_getElem? hq)

/-- Whoever holds the lock stands where the code holds it. -/
theorem lock_of (h : Inv s) (p' : Phase) (new : List Phase) (hlt : id < s.threads.length)
    (hthreads : s'.threads = s.threads.set id p' ++ new)
    (hid : ThreadOk s'.fields s'.lock id p')
    (hlock : ∀ i, i ≠ id → s'.lock = some i → s.lock = some i) :
    ∀ i, s'.lock = some i → ∃ q, s'.threads[i]? = some q ∧ q.holds = true := by
  intro i hi
  rw [hthreads]
  by_cases heq : i = id
  · subst heq
    refine ⟨p', ?_, ?_⟩
    · rw [List.getElem?_append_left (by simpa using hlt), List.getElem?_set_self hlt]
    by_contra hn
    exact hid.not_lock (by simpa using hn) hi
  · obtain ⟨q, hq, hholds⟩ := h.lock i (hlock i heq hi)
    have hlt' := (List.getElem?_eq_some_iff.1 hq).1
    refine ⟨q, ?_, hholds⟩
    rw [List.getElem?_append_left (by simpa using hlt'), List.getElem?_set_ne (Ne.symm heq)]
    exact hq

/-- Only goroutine `id` takes, holds or releases the lock in the step. -/
theorem others (hle : s.fields.Le s'.fields) (hlock : s.lock = none ∨ s.lock = some id)
    (hlock' : s'.lock = none ∨ s'.lock = some id) :
    ∀ j q, j ≠ id → ThreadOk s.fields s.lock j q → ThreadOk s'.fields s'.lock j q := by
  have hne : ∀ {lock : Option Nat} {j : Nat}, lock = none ∨ lock = some id → j ≠ id →
      lock ≠ some j := by
    rintro lock j (rfl | rfl) hj heq
    · cases heq
    · exact hj (Option.some.inj heq).symm
  intro j q hj hq
  cases hp : q.holds with
  | true => exact absurd (hq.lock_of_holds hp) (hne hlock hj)
  | false => exact hq.mono hp hle (hne hlock' hj)

theorem lock_other {lock lock' : Option Nat} (hlock' : lock' = none ∨ lock' = some id) (i : Nat)
    (hne : i ≠ id) (hi : lock' = some i) : lock = some i := by
  rcases hlock' with rfl | rfl
  · cases hi
  · exact absurd (Option.some.inj hi).symm hne

/-- A goroutine moves on and changes nothing else. -/
theorem goto (h : Inv s) (hlt : id < s.threads.length) (hid : ThreadOk s.fields s.lock id p') :
    Inv (s.goto id p') := by
  have hthreads : (s.goto id p').threads = s.threads.set id p' ++ [] := by simp [State.goto]
  refine ⟨?_, ?_, h.streaming, h.stopped, h.runs, h.once, h.done, h.closes⟩
  · exact h.threads_of id p' _ hthreads (fun _ _ _ hq => hq) hid fun _ _ _ hq => by cases hq
  · exact h.lock_of p' _ hlt hthreads hid fun _ _ hi => hi

/-- A goroutine takes or releases the lock. -/
theorem relock (h : Inv s) {lock : Option Nat} (hlt : id < s.threads.length)
    (hlock : s.lock = none ∨ s.lock = some id) (hlock' : lock = none ∨ lock = some id)
    (hid : ThreadOk s.fields lock id p') : Inv ({ s with lock := lock }.goto id p') := by
  have hthreads : ({ s with lock := lock }.goto id p').threads = s.threads.set id p' ++ [] := by
    simp [State.goto]
  refine ⟨?_, ?_, h.streaming, h.stopped, h.runs, h.once, h.done, h.closes⟩
  · exact h.threads_of id p' _ hthreads (others ⟨fun hf => hf, fun hf => hf⟩ hlock hlock') hid
      fun _ _ _ hq => by cases hq
  · exact h.lock_of p' _ hlt hthreads hid (lock_other hlock')

/-- A goroutine is started that does not hold the lock. -/
theorem spawn (h : Inv s)
    (hok : ∀ j, s.lock ≠ some j → ThreadOk s.fields s.lock j p) : Inv (s.spawn p) := by
  refine ⟨?_, ?_, h.streaming, h.stopped, h.runs, h.once, h.done, h.closes⟩
  · intro j q hq
    simp only [State.spawn] at hq ⊢
    by_cases hlt : j < s.threads.length
    · rw [List.getElem?_append_left hlt] at hq
      exact h.threads j q hq
    · rw [List.getElem?_append_right (by omega)] at hq
      rw [List.mem_singleton.1 (List.mem_of_getElem? hq)]
      refine hok j fun hl => hlt ?_
      obtain ⟨q, hq, -⟩ := h.lock j hl
      exact (List.getElem?_eq_some_iff.1 hq).1
  · intro i hi
    obtain ⟨q, hq, hholds⟩ := h.lock i hi
    have hlt := (List.getElem?_eq_some_iff.1 hq).1
    exact ⟨q, by rw [State.spawn, List.getElem?_append_left hlt]; exact hq, hholds⟩

theorem set_append {l new : List Phase} (hlt : id < l.length) (p' : Phase) :
    (l ++ new).set id p' = l.set id p' ++ new := by
  rw [List.set_append_left _ _ hlt]

/-- The goroutine that holds the lock starts the stream. -/
theorem startRun (h : Inv s) (p' : Phase) {lock : Option Nat} (hlt : id < s.threads.length)
    (hstreaming : s.fields.streaming = false) (hstarted : s.fields.started = true)
    (hlock : s.lock = some id) (hlock' : lock = none ∨ lock = some id)
    (hid : ThreadOk { s.fields with streaming := true } lock id p') :
    Inv ({ s.startRunLocked with lock := lock }.goto id p') := by
  have heq : { s.startRunLocked with lock := lock }.goto id p' = { s with
      fields := { s.fields with streaming := true }
      runs := s.runs + 1
      lock := lock
      threads := s.threads.set id p' ++ [.run s.runCtx] } := by
    simp [State.startRunLocked, hstreaming, State.goto, set_append hlt]
  have hruns : s.runs = 0 := by simpa [hstreaming] using h.runs
  have hne : ∀ j, s.threads.length ≤ j → lock ≠ some j := by
    rintro j hj rfl
    rcases hlock' with heq | heq <;> cases heq
    omega
  rw [heq]
  refine ⟨?_, ?_, fun _ => hstarted, h.stopped, by simp [hruns], h.once, h.done, h.closes⟩
  · refine h.threads_of id p' _ rfl
      (others ⟨fun hf => hf, fun _ => rfl⟩ (.inr hlock) hlock') hid ?_
    intro j hj q hq
    rw [List.mem_singleton.1 hq]
    exact ⟨hne j hj, rfl⟩
  · exact h.lock_of p' _ hlt rfl hid (lock_other hlock')

/-- The end of a `Start` that succeeds. -/
theorem beginStream (h : Inv s) (hlt : id < s.threads.length) (hlock : s.lock = some id)
    (hstarted : s.fields.started = false) (slotExists : Bool) :
    Inv ({ s.beginStream id slotExists with lock := none }.goto id (.returned none)) := by
  have hstreaming : s.fields.streaming = false := by
    cases hs : s.fields.streaming with
    | false => rfl
    | true => simp [h.streaming hs] at hstarted
  have heq : { s.beginStream id slotExists with lock := none }.goto id (.returned none) = { s with
      fields := { s.fields with started := true, streaming := slotExists }
      runCtx := some id
      runs := if slotExists then s.runs + 1 else s.runs
      lock := none
      threads := s.threads.set id (.returned none) ++
        ((if slotExists then [.run (some id)] else []) ++ [.ctxWait id]) } := by
    cases slotExists <;>
      simp [State.beginStream, State.startRunLocked, State.spawn, hstreaming, State.goto,
        set_append hlt]
  have hruns : s.runs = 0 := by simpa [hstreaming] using h.runs
  rw [heq]
  refine ⟨?_, fun i hi => (by cases hi), fun _ => rfl, fun _ => rfl, ?_, h.once, h.done, h.closes⟩
  · refine h.threads_of id (.returned none) _ rfl
      (others ⟨fun _ => rfl, fun hs => ?_⟩ (.inr hlock) (.inl rfl)) (Option.some_ne_none _).symm ?_
    · simp [hstreaming] at hs
    · intro j hj q hq
      cases slotExists with
      | false =>
        rw [List.mem_singleton.1 hq]
        exact ⟨(Option.some_ne_none _).symm, rfl⟩
      | true =>
        rcases List.mem_append.1 hq with hq | hq
        · rw [List.mem_singleton.1 hq]
          exact ⟨(Option.some_ne_none _).symm, rfl⟩
        · rw [List.mem_singleton.1 hq]
          exact ⟨(Option.some_ne_none _).symm, rfl⟩
  · cases slotExists <;> simp [hruns]

/-- The source stops, at most once. -/
theorem stop (h : Inv s) (hlt : id < s.threads.length) (hlock : s.lock = none)
    (hstarted : s.fields.started = true)
    (err : Option GoError) : Inv ((s.stopLocked err).goto id (.returned none)) := by
  have hid : s.lock ≠ some id := by simp [hlock]
  cases honce : s.once with
  | true =>
    rw [State.stopLocked, if_pos honce]
    exact h.goto hlt hid
  | false =>
    have hdone : s.done = false := by rw [h.done, ← h.once, honce]
    rw [State.stopLocked, if_neg (by simp [honce])]
    refine ⟨?_, ?_, h.streaming, fun _ => hstarted, h.runs, rfl, rfl, ?_⟩
    · exact h.threads_of id (.returned none) [] (by simp [State.goto])
        (others ⟨fun hf => hf, fun hf => hf⟩ (.inl hlock) (.inl hlock)) hid
        fun _ _ _ hq => by cases hq
    · intro i hi
      have hi' : s.lock = some i := hi
      rw [hlock] at hi'
      cases hi'
    · simpa [State.goto, hdone] using h.closes

/-- A step of a goroutine keeps the invariant. -/
theorem advance (h : Inv s) (hp : s.threads[id]? = some p) {act : Act}
    (hs : s.advance id p act = some s') : Inv s' := by
  have hok := h.threads id p hp
  have hlt := (List.getElem?_eq_some_iff.1 hp).1
  have hnone : ∀ {l : Option Nat}, ¬l.isSome = true → l = none := fun hl => by simpa using hl
  cases p with
  | start =>
    cases act <;> simp only [State.advance, reduceCtorEq] at hs
    split at hs
    · cases hs
    · next hfree =>
      split at hs
      · cases hs
        exact h.goto hlt hok
      · next hstarted =>
        cases hs
        exact h.relock hlt (.inl (hnone hfree)) (.inr rfl) ⟨rfl, by simpa using hstarted⟩
  | slotExists =>
    cases act with
    | slot result =>
      cases result with
      | error err =>
        simp only [State.advance] at hs
        cases hs
        exact h.relock hlt (.inr hok.1) (.inl rfl) (Option.some_ne_none _).symm
      | ok slotExists =>
        simp only [State.advance] at hs
        cases hs
        exact h.beginStream hlt hok.1 hok.2 slotExists
    | _ => simp only [State.advance, reduceCtorEq] at hs
  | snapshot =>
    cases act <;> simp only [State.advance, reduceCtorEq] at hs
    split at hs
    · cases hs
    · next hfree =>
      split at hs
      · cases hs
        exact h.goto hlt hok
      · next hready =>
        obtain ⟨hstarted, hstopped⟩ := s.of_ready hready
        split at hs
        · next hstreaming =>
          cases hs
          refine h.relock hlt (.inl (hnone hfree)) (.inr rfl) ⟨rfl, ?_⟩
          cases hf : s.fields
          simp_all
        · next hstreaming =>
          cases hs
          exact h.goto hlt ⟨hok, by simpa using hstreaming⟩
  | bootstrap =>
    have hstarted : s.fields.started = true := by rw [hok.2]
    have hstreaming : s.fields.streaming = false := by rw [hok.2]
    cases act with
    | bootstrapped err =>
      cases err with
      | none =>
        simp only [State.advance] at hs
        cases hs
        exact h.startRun _ hlt hstreaming hstarted hok.1 (.inl rfl) (Option.some_ne_none _).symm
      | some err =>
        simp only [State.advance] at hs
        split at hs
        · cases hs
          exact h.relock hlt (.inr hok.1) (.inl rfl) (Option.some_ne_none _).symm
        · cases hs
          have hkeep := h.startRun .snapshotHeld hlt hstreaming hstarted hok.1 (.inr rfl)
            ⟨rfl, by rw [hok.2]⟩
          rwa [← hok.1, show s.lock = s.startRunLocked.lock by
            unfold State.startRunLocked; split <;> rfl] at hkeep
    | _ => simp only [State.advance, reduceCtorEq] at hs
  | snapshotHeld =>
    cases act <;> simp only [State.advance, reduceCtorEq] at hs
    cases hs
    exact h.relock hlt (.inr hok.1) (.inl rfl) (Option.some_ne_none _).symm
  | snapshotFree =>
    cases act <;> simp only [State.advance, reduceCtorEq] at hs
    cases hs
    exact h.goto hlt hok.1
  | run ctx =>
    cases act <;> simp only [State.advance, reduceCtorEq] at hs
    cases hs
    exact h.goto hlt hok
  | runEnded err =>
    cases act <;> simp only [State.advance, reduceCtorEq] at hs
    split at hs
    · cases hs
    · next hfree =>
      cases hs
      exact h.stop hlt (hnone hfree) (h.streaming hok.2) err
  | ctxWait ctx =>
    cases act <;> simp only [State.advance, reduceCtorEq] at hs
    split at hs
    · cases hs
      exact h.goto hlt hok
    · cases hs
  | ctxDone =>
    cases act <;> simp only [State.advance, reduceCtorEq] at hs
    split at hs
    · cases hs
    · next hfree =>
      split at hs
      · cases hs
        exact h.stop hlt (hnone hfree) hok.2 none
      · cases hs
        exact h.goto hlt hok.1
  | returned result => cases act <;> simp only [State.advance, reduceCtorEq] at hs

theorem step (h : Inv s) {l : Label} (hs : s.step l = some s') : Inv s' := by
  cases l with
  | start =>
    cases hs
    exact h.spawn fun _ hj => hj
  | snapshot =>
    cases hs
    exact h.spawn fun _ hj => hj
  | cancel ctx =>
    cases hs
    exact ⟨h.threads, h.lock, h.streaming, h.stopped, h.runs, h.once, h.done, h.closes⟩
  | go id act =>
    obtain ⟨p, hp, hs⟩ := Option.bind_eq_some_iff.1 hs
    exact h.advance hp hs

end Inv

theorem Reaches.inv {ok : State → Label → Prop} {s : State} (h : Reaches machine ok s) : Inv s := by
  refine h.invariant (I := Inv) ?_ fun _ _ _ _ hI _ hs => hI.step hs
  rintro s rfl
  exact Inv.initial

end Watchd.Cdc.Source
