import Watchd.Cdc.Source

/-!
# What the lifecycle of a source guarantees

While a call holds the lock across a Reader primitive the others leave what they
share as it is, and so does everybody once the source has stopped.  From these
two frame properties and the invariant follow the guarantees of `Start`,
`Snapshot`, `Done` and `Err` under any interleaving.

`source_lifecycle` states them together.
-/

namespace Watchd.Cdc.Source

open Watchd.Lib

/-! ## What a step leaves alone -/

/-- Everything that calls share, apart from the lock. -/
def State.shared (s : State) : Fields × Bool × Option GoError × Nat × Nat :=
  (s.fields, s.done, s.err, s.runs, s.closes)

section Frame

variable {s s' : State} {id : Nat} {p : Phase}

theorem State.stopLocked_of_once {err : Option GoError} (h : s.once = true) :
    s.stopLocked err = s := by
  rw [stopLocked, if_pos h]

/-- A goroutine that holds no lock while another does cannot touch what they share. -/
theorem State.advance_shared_of_locked {act : Act} (hp : p.holds = false)
    (hlock : s.lock.isSome = true) (hs : s.advance id p act = some s') :
    s'.shared = s.shared ∧ s'.lock = s.lock ∧ ∃ q, s'.threads = s.threads.set id q := by
  cases p with
  | slotExists => cases hp
  | bootstrap => cases hp
  | snapshotHeld => cases hp
  | ctxWait ctx =>
    cases act <;> simp only [State.advance, reduceCtorEq] at hs
    split at hs <;> cases hs
    exact ⟨rfl, rfl, _, rfl⟩
  | _ =>
    cases act <;> simp only [State.advance, reduceCtorEq, hlock, reduceIte] at hs
    all_goals
      cases hs
      exact ⟨rfl, rfl, _, rfl⟩

/-- While a goroutine holds the lock, the others touch neither what they share nor its place. -/
theorem Inv.step_locked (h : Inv s) (hlock : s.lock = some id) {l : Label}
    (hl : ∀ act, l ≠ .go id act) (hs : s.step l = some s') :
    s'.shared = s.shared ∧ s'.threads[id]? = s.threads[id]? := by
  obtain ⟨q, hq, -⟩ := h.lock id hlock
  have hlt := (List.getElem?_eq_some_iff.1 hq).1
  cases l with
  | start =>
    cases hs
    exact ⟨rfl, List.getElem?_append_left hlt⟩
  | snapshot =>
    cases hs
    exact ⟨rfl, List.getElem?_append_left hlt⟩
  | cancel ctx =>
    cases hs
    exact ⟨rfl, rfl⟩
  | go j act =>
    have hne : j ≠ id := fun heq => hl act (by rw [heq])
    obtain ⟨p, hp, hs⟩ := Option.bind_eq_some_iff.1 hs
    have hholds : p.holds = false := by
      by_contra hn
      have hj := (h.threads j p hp).lock_of_holds (by simpa using hn)
      rw [hlock] at hj
      exact hne (Option.some.inj hj).symm
    obtain ⟨hshared, -, q, hthreads⟩ :=
      State.advance_shared_of_locked hholds (by simp [hlock]) hs
    refine ⟨hshared, ?_⟩
    rw [hthreads, List.getElem?_set_ne hne]

/-- In a source that has stopped nobody holds the lock. -/
theorem Inv.lock_of_stopped (h : Inv s) (hstopped : s.fields.stopped = true) : s.lock = none := by
  cases hlock : s.lock with
  | none => rfl
  | some i =>
    exfalso
    obtain ⟨p, hp, hholds⟩ := h.lock i hlock
    have hok := h.threads i p hp
    cases p with
    | slotExists =>
      have hstarted := h.stopped hstopped
      rw [hok.2] at hstarted
      cases hstarted
    | bootstrap =>
      rw [hok.2] at hstopped
      cases hstopped
    | snapshotHeld =>
      rw [hok.2] at hstopped
      cases hstopped
    | _ => cases hholds

/-- A source that has stopped stays as it is. -/
theorem Inv.step_stopped (h : Inv s) (hstopped : s.fields.stopped = true) {l : Label}
    (hs : s.step l = some s') : s'.shared = s.shared := by
  have hfree := h.lock_of_stopped hstopped
  have honce : s.once = true := h.once.trans hstopped
  cases l with
  | start =>
    cases hs
    rfl
  | snapshot =>
    cases hs
    rfl
  | cancel ctx =>
    cases hs
    rfl
  | go id act =>
    obtain ⟨p, hp, hs⟩ := Option.bind_eq_some_iff.1 hs
    have hok := h.threads id p hp
    have hholds : p.holds = false := by
      by_contra hn
      have hlock := hok.lock_of_holds (by simpa using hn)
      rw [hfree] at hlock
      cases hlock
    cases p with
    | slotExists => cases hholds
    | bootstrap => cases hholds
    | snapshotHeld => cases hholds
    | _ =>
      cases act <;>
        simp only [State.advance, State.stopLocked_of_once honce, reduceCtorEq] at hs
      repeat' split at hs
      all_goals cases hs <;> rfl

end Frame

/-! ## The guarantees -/

/-- The snapshot primitive is running. -/
def Phase.inSnapshot : Phase → Bool
  | .snapshotHeld | .snapshotFree => true
  | _ => false

/-- What a source guarantees in a state, and about the runs that go on from it. -/
structure Guarantees (s : State) : Prop where
  /-- `run` is started at most once, -/
  runOnce : s.runs ≤ 1
  /-- and never after the source has stopped -/
  runBeforeStop : s.fields.stopped = true → ∀ l s', s.step l = some s' → s'.runs = s.runs
  /-- two bootstraps are never in progress at once, -/
  bootstrapAlone : ∀ i j : Nat, s.threads[i]? = some .bootstrap →
    s.threads[j]? = some .bootstrap → i = j
  /-- and none is after `run` was started -/
  bootstrapBeforeRun : ∀ i : Nat, s.threads[i]? = some .bootstrap → s.runs = 0
  /-- the snapshot primitive is not called before `run` was started -/
  snapshotAfterRun : ∀ (i : Nat) (p : Phase), s.threads[i]? = some p →
    p.inSnapshot = true → s.runs = 1
  /-- `done` is closed once, when the source stops -/
  doneOnce : s.done = s.fields.stopped ∧ s.closes = if s.done then 1 else 0
  /-- from then on it stays closed and `Err` does not change -/
  errKept : s.done = true → ∀ s', Reaches (machine.startedAt s) anyStep s' →
    s'.done = true ∧ s'.reportedErr = s.reportedErr
  /-- a `Snapshot` call that begins after that calls no primitive: it waits for the lock, which it
  finds free, or it has returned `ErrSourceStopped` -/
  snapshotStopped : s.done = true → ∀ s₁ s', s.step .snapshot = some s₁ →
    Reaches (machine.startedAt s₁) anyStep s' →
    s'.threads[s.threads.length]? = some (.returned (some (.sentinel .sourceStopped))) ∨
    s'.threads[s.threads.length]? = some .snapshot ∧
      ∃ s'', s'.step (.go s.threads.length .run) = some s'' ∧
        s''.threads[s.threads.length]? = some (.returned (some (.sentinel .sourceStopped)))
  /-- a failed `Start` leaves the lifecycle fields as it found them: one that finds the source
  started, or one whose `slotExists` fails -/
  startFailed : ∀ id s₁, s.threads[id]? = some .start → s.step (.go id .run) = some s₁ →
    s₁.fields = s.fields ∧
    ∀ s₂ s₃ err, Reaches (machine.startedAt s₁) anyStep s₂ →
      s₂.step (.go id (.slot (.error err))) = some s₃ → s₃.fields = s.fields
  /-- and so does a bootstrap that fails, unless the slot exists -/
  bootstrapFailed : ∀ id s₁, s.threads[id]? = some .snapshot → s.step (.go id .run) = some s₁ →
    ∀ s₂ s₃ err, Reaches (machine.startedAt s₁) anyStep s₂ → err.is .bootstrapSlotExists = false →
      s₂.step (.go id (.bootstrapped (some err))) = some s₃ → s₃.fields = s.fields

section Guarantees

variable {s s₁ s' : State} {id : Nat}

theorem Inv.startedAt (h : Inv s) (hrun : Reaches (machine.startedAt s) anyStep s') : Inv s' := by
  refine hrun.invariant (I := Inv) ?_ fun _ _ _ _ hI _ hs => hI.step hs
  rintro s rfl
  exact h

theorem Inv.shared_of_stopped (h : Inv s) (hstopped : s.fields.stopped = true)
    (hrun : Reaches (machine.startedAt s) anyStep s') : s'.shared = s.shared := by
  suffices hall : Inv s' ∧ s'.shared = s.shared from hall.2
  refine hrun.invariant (I := fun s' => Inv s' ∧ s'.shared = s.shared) ?_ ?_
  · rintro s rfl
    exact ⟨h, rfl⟩
  · rintro s₁ l s₂ - ⟨hinv, heq⟩ - hs
    have hstopped₁ : s₁.fields.stopped = true := by
      rw [show s₁.fields = s.fields from congrArg Prod.fst heq]
      exact hstopped
    exact ⟨hinv.step hs, (hinv.step_stopped hstopped₁ hs).trans heq⟩

/-- The phases from which a call does not come to its first locked primitive any more. -/
def Phase.left : Phase → Bool
  | .snapshotHeld | .snapshotFree | .returned _ => true
  | _ => false

theorem State.goto_getElem? {t : State} {q : Phase} (hlt : id < t.threads.length) :
    (t.goto id q).threads[id]? = some q := by
  simp [State.goto, hlt]

theorem State.startRunLocked_threads (s : State) :
    ∃ new, s.startRunLocked.threads = s.threads ++ new := by
  unfold startRunLocked
  split
  · exact ⟨[], by simp⟩
  · exact ⟨_, rfl⟩

theorem State.beginStream_threads (s : State) (id : Nat) (slotExists : Bool) :
    ∃ new, (s.beginStream id slotExists).threads = s.threads ++ new := by
  unfold beginStream
  cases slotExists with
  | false => exact ⟨_, rfl⟩
  | true =>
    obtain ⟨new, hnew⟩ := State.startRunLocked_threads
      { s with fields := { s.fields with started := true }, runCtx := some id }
    exact ⟨new ++ [.ctxWait id], by simp [spawn, hnew]⟩

theorem State.stopLocked_threads (s : State) (err : Option GoError) :
    (s.stopLocked err).threads = s.threads := by
  unfold stopLocked
  split <;> rfl

/-- A step moves its own goroutine and perhaps starts others; a call that holds the lock
across its first primitive, or is past that, does not come back to it. -/
theorem State.advance_goto {p : Phase} {act : Act} (hs : s.advance id p act = some s') :
    ∃ (t : State) (q : Phase), s' = t.goto id q ∧ (∃ new, t.threads = s.threads ++ new) ∧
      (p.holds = true ∨ p.left = true → q.left = true) := by
  have hsame : ∃ new, s.threads = s.threads ++ new := ⟨[], by simp⟩
  have hstop : ∀ err, ∃ new, (s.stopLocked err).threads = s.threads ++ new :=
    fun err => ⟨[], by simp [State.stopLocked_threads]⟩
  have hnot : ∀ {r : Phase}, r.holds = false → r.left = false →
      ∀ q : Phase, r.holds = true ∨ r.left = true → q.left = true := by
    intro r hh hl q hor
    simp [hh, hl] at hor
  cases p with
  | slotExists =>
    rcases act with _ | (err | slotExists) | _ | _ | _ <;>
      simp only [State.advance, reduceCtorEq] at hs <;> cases hs
    · exact ⟨_, _, rfl, hsame, fun _ => rfl⟩
    · exact ⟨_, _, rfl, State.beginStream_threads .., fun _ => rfl⟩
  | bootstrap =>
    rcases act with _ | _ | (_ | err) | _ | _ <;> simp only [State.advance, reduceCtorEq] at hs
    · cases hs
      exact ⟨_, _, rfl, State.startRunLocked_threads s, fun _ => rfl⟩
    · split at hs <;> cases hs
      · exact ⟨_, _, rfl, hsame, fun _ => rfl⟩
      · exact ⟨_, _, rfl, State.startRunLocked_threads s, fun _ => rfl⟩
  | snapshotHeld =>
    cases act <;> simp only [State.advance, reduceCtorEq] at hs
    cases hs
    exact ⟨_, _, rfl, hsame, fun _ => rfl⟩
  | snapshotFree =>
    cases act <;> simp only [State.advance, reduceCtorEq] at hs
    cases hs
    exact ⟨_, _, rfl, hsame, fun _ => rfl⟩
  | runEnded err =>
    cases act <;> simp only [State.advance, reduceCtorEq] at hs
    split at hs <;> cases hs
    exact ⟨_, _, rfl, hstop err, hnot rfl rfl _⟩
  | ctxDone =>
    cases act <;> simp only [State.advance, reduceCtorEq] at hs
    split at hs
    · cases hs
    · split at hs <;> cases hs
      · exact ⟨_, _, rfl, hstop none, hnot rfl rfl _⟩
      · exact ⟨_, _, rfl, hsame, hnot rfl rfl _⟩
  | _ =>
    cases act <;> simp only [State.advance, reduceCtorEq] at hs
    repeat' split at hs
    all_goals
      cases hs <;> exact ⟨_, _, rfl, hsame, hnot rfl rfl _⟩

/-- The steps of the others leave a goroutine where it is. -/
theorem State.step_other {l : Label} (hlt : id < s.threads.length) (hl : ∀ act, l ≠ .go id act)
    (hs : s.step l = some s') : s'.threads[id]? = s.threads[id]? := by
  cases l with
  | start =>
    cases hs
    exact List.getElem?_append_left hlt
  | snapshot =>
    cases hs
    exact List.getElem?_append_left hlt
  | cancel ctx =>
    cases hs
    rfl
  | go j act =>
    have hne : j ≠ id := fun heq => hl act (by rw [heq])
    obtain ⟨p, hp, hs⟩ := Option.bind_eq_some_iff.1 hs
    obtain ⟨t, q, rfl, ⟨new, hnew⟩, -⟩ := State.advance_goto hs
    rw [State.goto, List.getElem?_set_ne hne, hnew, List.getElem?_append_left hlt]

/-- The step of a goroutine leaves it at some phase. -/
theorem State.step_own {act : Act} {p : Phase} (hp : s.threads[id]? = some p)
    (hs : s.step (.go id act) = some s') (hleft : p.holds = true ∨ p.left = true) :
    ∃ q, s'.threads[id]? = some q ∧ q.left = true := by
  have hlt := (List.getElem?_eq_some_iff.1 hp).1
  simp only [State.step, hp, Option.bind_some] at hs
  obtain ⟨t, q, rfl, ⟨new, hnew⟩, hq⟩ := State.advance_goto hs
  have hlt' : id < t.threads.length := by
    rw [hnew, List.length_append]
    omega
  exact ⟨q, State.goto_getElem? hlt', hq hleft⟩

theorem left_stays {q : Phase} (hq : s₁.threads[id]? = some q) (hleft : q.left = true)
    (hrun : Reaches (machine.startedAt s₁) anyStep s') :
    ∃ q', s'.threads[id]? = some q' ∧ q'.left = true := by
  refine hrun.invariant (I := fun s' => ∃ q', s'.threads[id]? = some q' ∧ q'.left = true) ?_ ?_
  · rintro s rfl
    exact ⟨q, hq, hleft⟩
  · rintro s₂ l s₃ - ⟨q', hq', hleft'⟩ - hs
    by_cases hl : ∃ act, l = .go id act
    · obtain ⟨act, rfl⟩ := hl
      exact State.step_own hq' hs (.inr hleft')
    · have hlt := (List.getElem?_eq_some_iff.1 hq').1
      refine ⟨q', ?_, hleft'⟩
      rw [State.step_other hlt (fun act heq => hl ⟨act, heq⟩) hs]
      exact hq'

/-- While a call holds the lock across a primitive, the fields are as it found them. -/
theorem Inv.fields_while_held (h : Inv s₁) {p : Phase} (hp : p.holds = true)
    (hthread : s₁.threads[id]? = some p) (hrun : Reaches (machine.startedAt s₁) anyStep s') :
    (s'.threads[id]? = some p ∧ s'.fields = s₁.fields) ∨
      ∃ q, s'.threads[id]? = some q ∧ q.left = true := by
  suffices hall : Inv s' ∧ ((s'.threads[id]? = some p ∧ s'.fields = s₁.fields) ∨
      ∃ q, s'.threads[id]? = some q ∧ q.left = true) from hall.2
  refine hrun.invariant (I := fun s' => Inv s' ∧ ((s'.threads[id]? = some p ∧
    s'.fields = s₁.fields) ∨ ∃ q, s'.threads[id]? = some q ∧ q.left = true)) ?_ ?_
  · rintro s rfl
    exact ⟨h, .inl ⟨hthread, rfl⟩⟩
  · rintro s₂ l s₃ - ⟨hinv, hcases⟩ - hs
    refine ⟨hinv.step hs, ?_⟩
    by_cases hl : ∃ act, l = .go id act
    · obtain ⟨act, rfl⟩ := hl
      right
      rcases hcases with ⟨hthread₂, -⟩ | ⟨q, hq, hleft⟩
      · exact State.step_own hthread₂ hs (.inl hp)
      · exact State.step_own hq hs (.inr hleft)
    · have hl' : ∀ act, l ≠ .go id act := fun act heq => hl ⟨act, heq⟩
      rcases hcases with ⟨hthread₂, hfields⟩ | ⟨q, hq, hleft⟩
      · have hlock := (hinv.threads id p hthread₂).lock_of_holds hp
        obtain ⟨hshared, hsame⟩ := hinv.step_locked hlock hl' hs
        exact .inl ⟨hsame.trans hthread₂, (congrArg Prod.fst hshared).trans hfields⟩
      · right
        exact ⟨q, (State.step_other (List.getElem?_eq_some_iff.1 hq).1 hl' hs).trans hq, hleft⟩

/-- A call takes the lock for primitive `p`, which fails: the fields are as it found them. -/
theorem Inv.fields_of_failed (h : Inv s₁) {s₂ s₃ : State} {p q : Phase}
    (hthread : s₁.threads[id]? = some q) (hq : q = p ∨ q.left = true) (hp : p.holds = true)
    (hpl : p.left = false) (hrun : Reaches (machine.startedAt s₁) anyStep s₂)
    (hthread₂ : s₂.threads[id]? = some p) (hfields : s₃.fields = s₂.fields) :
    s₃.fields = s₁.fields := by
  have hnot : ¬∃ q', s₂.threads[id]? = some q' ∧ q'.left = true := by
    rintro ⟨q', hq', hleft⟩
    rw [hthread₂] at hq'
    cases hq'
    rw [hpl] at hleft
    cases hleft
  rcases hq with rfl | hleft
  · rcases h.fields_while_held hp hthread hrun with ⟨-, heq⟩ | hleft
    · exact hfields.trans heq
    · exact absurd hleft hnot
  · exact absurd (left_stays hthread hleft hrun) hnot

/-- A `Snapshot` call on a source that has stopped. -/
theorem Inv.snapshot_of_stopped (h : Inv s) (hstopped : s.fields.stopped = true)
    (hp : s.threads[id]? = some .snapshot) {act : Act} (hs : s.step (.go id act) = some s') :
    s'.threads[id]? = some (.returned (some (.sentinel .sourceStopped))) := by
  have hlt := (List.getElem?_eq_some_iff.1 hp).1
  have hready : s.readyLocked = some (.sentinel .sourceStopped) := by
    simp [State.readyLocked, h.stopped hstopped, hstopped]
  simp only [State.step, hp, Option.bind_some] at hs
  cases act <;> simp only [State.advance, h.lock_of_stopped hstopped, hready, reduceCtorEq] at hs
  cases hs
  exact State.goto_getElem? hlt

theorem Inv.snapshot_enabled (h : Inv s) (hstopped : s.fields.stopped = true)
    (hp : s.threads[id]? = some .snapshot) : ∃ s', s.step (.go id .run) = some s' := by
  have hready : s.readyLocked = some (.sentinel .sourceStopped) := by
    simp [State.readyLocked, h.stopped hstopped, hstopped]
  simp [State.step, hp, State.advance, h.lock_of_stopped hstopped, hready]

theorem Inv.snapshot_phase (h : Inv s₁) (hstopped : s₁.fields.stopped = true)
    (hp : s₁.threads[id]? = some .snapshot) (hrun : Reaches (machine.startedAt s₁) anyStep s') :
    s'.threads[id]? = some (.returned (some (.sentinel .sourceStopped))) ∨
      s'.threads[id]? = some .snapshot := by
  suffices hall : Inv s' ∧ s'.fields.stopped = true ∧
      (s'.threads[id]? = some (.returned (some (.sentinel .sourceStopped))) ∨
        s'.threads[id]? = some .snapshot) from hall.2.2
  refine hrun.invariant (I := fun s' => Inv s' ∧ s'.fields.stopped = true ∧
    (s'.threads[id]? = some (.returned (some (.sentinel .sourceStopped))) ∨
      s'.threads[id]? = some .snapshot)) ?_ ?_
  · rintro s rfl
    exact ⟨h, hstopped, .inr hp⟩
  · rintro s₂ l s₃ - ⟨hinv, hstopped₂, hphase⟩ - hs
    have hfields : s₃.fields = s₂.fields := congrArg Prod.fst (hinv.step_stopped hstopped₂ hs)
    refine ⟨hinv.step hs, by rw [hfields]; exact hstopped₂, ?_⟩
    by_cases hl : ∃ act, l = .go id act
    · obtain ⟨act, rfl⟩ := hl
      rcases hphase with hret | hsnap
      · -- a call that has returned takes no step
        have hs' : s₂.step (.go id act) = some s₃ := hs
        simp only [State.step, hret, Option.bind_some] at hs'
        cases act <;> simp only [State.advance, reduceCtorEq] at hs'
      · exact .inl (hinv.snapshot_of_stopped hstopped₂ hsnap hs)
    · have hl' : ∀ act, l ≠ .go id act := fun act heq => hl ⟨act, heq⟩
      refine hphase.imp (fun hret => ?_) fun hsnap => ?_
      · exact (State.step_other (List.getElem?_eq_some_iff.1 hret).1 hl' hs).trans hret
      · exact (State.step_other (List.getElem?_eq_some_iff.1 hsnap).1 hl' hs).trans hsnap

/-- The first step of a `Start` call leaves the fields and takes the lock, or returns. -/
theorem State.step_start (hp : s.threads[id]? = some .start)
    (hs : s.step (.go id .run) = some s') :
    s'.fields = s.fields ∧ ∃ q, s'.threads[id]? = some q ∧ (q = .slotExists ∨ q.left = true) := by
  have hlt := (List.getElem?_eq_some_iff.1 hp).1
  simp only [State.step, hp, Option.bind_some, State.advance] at hs
  split at hs
  · cases hs
  · split at hs <;> cases hs
    · exact ⟨rfl, _, State.goto_getElem? hlt, .inr rfl⟩
    · exact ⟨rfl, _, State.goto_getElem? hlt, .inl rfl⟩

/-- The first step of a `Snapshot` call leaves the fields and takes the lock, or does not. -/
theorem State.step_snapshot (hp : s.threads[id]? = some .snapshot)
    (hs : s.step (.go id .run) = some s') :
    s'.fields = s.fields ∧ ∃ q, s'.threads[id]? = some q ∧ (q = .bootstrap ∨ q.left = true) := by
  have hlt := (List.getElem?_eq_some_iff.1 hp).1
  simp only [State.step, hp, Option.bind_some, State.advance] at hs
  split at hs
  · cases hs
  · split at hs
    · cases hs
      exact ⟨rfl, _, State.goto_getElem? hlt, .inr rfl⟩
    · split at hs <;> cases hs
      · exact ⟨rfl, _, State.goto_getElem? hlt, .inl rfl⟩
      · exact ⟨rfl, _, State.goto_getElem? hlt, .inr rfl⟩

/-- `slotExists` fails. -/
theorem State.step_slot_error {err : GoError}
    (hs : s.step (.go id (.slot (.error err))) = some s') :
    s.threads[id]? = some .slotExists ∧ s'.fields = s.fields := by
  obtain ⟨p, hp, hs⟩ := Option.bind_eq_some_iff.1 hs
  cases p <;> simp only [State.advance, reduceCtorEq] at hs
  cases hs
  exact ⟨hp, rfl⟩

/-- `bootstrap` fails, and not because the slot exists. -/
theorem State.step_bootstrap_error {err : GoError} (herr : err.is .bootstrapSlotExists = false)
    (hs : s.step (.go id (.bootstrapped (some err))) = some s') :
    s.threads[id]? = some .bootstrap ∧ s'.fields = s.fields := by
  obtain ⟨p, hp, hs⟩ := Option.bind_eq_some_iff.1 hs
  cases p <;> simp only [State.advance, reduceCtorEq, herr, Bool.not_false, reduceIte] at hs
  cases hs
  exact ⟨hp, rfl⟩

/-- **The source's lifecycle** holds in every reachable state: for any number of concurrent `Start`
and `Snapshot` calls, whatever the primitives return and whenever the Start contexts are
cancelled. -/
theorem source_lifecycle (h : Reaches machine anyStep s) : Guarantees s := by
  have hinv := Reaches.inv h
  have hstop : s.done = true → s.fields.stopped = true := fun hd => hinv.done.symm.trans hd
  refine ⟨?_, ?_, ?_, ?_, ?_, ⟨hinv.done, hinv.closes⟩, ?_, ?_, ?_, ?_⟩
  · rw [hinv.runs]
    split <;> omega
  · intro hstopped l s' hs
    exact congrArg (fun x => x.2.2.2.1) (hinv.step_stopped hstopped hs)
  · intro i j hi hj
    have hlock := (hinv.threads i _ hi).1.symm.trans (hinv.threads j _ hj).1
    exact Option.some.inj hlock
  · intro i hi
    rw [hinv.runs, (hinv.threads i _ hi).2]
    rfl
  · intro i p hi hp
    have hok := hinv.threads i p hi
    have hstreaming : s.fields.streaming = true := by
      cases p with
      | snapshotHeld => rw [hok.2]
      | snapshotFree => exact hok.2
      | _ => cases hp
    rw [hinv.runs, if_pos hstreaming]
  · intro hdone s' hrun
    have hshared := hinv.shared_of_stopped (hstop hdone) hrun
    have hd : s'.done = s.done := congrArg (fun x => x.2.1) hshared
    have he : s'.err = s.err := congrArg (fun x => x.2.2.1) hshared
    exact ⟨hd.trans hdone, by rw [State.reportedErr, State.reportedErr, hd, he]⟩
  · intro hdone s₁ s' hs₁ hrun
    have hstopped₁ : s₁.fields.stopped = true := by
      cases hs₁
      exact hstop hdone
    have hinv₁ := hinv.step hs₁
    have hp₁ : s₁.threads[s.threads.length]? = some .snapshot := by
      cases hs₁
      simp [State.spawn]
    have hstopped' : s'.fields.stopped = true := by
      rw [show s'.fields = s₁.fields from
        congrArg Prod.fst (hinv₁.shared_of_stopped hstopped₁ hrun)]
      exact hstopped₁
    have hinv' := hinv₁.startedAt hrun
    refine (hinv₁.snapshot_phase hstopped₁ hp₁ hrun).imp_right fun hp => ⟨hp, ?_⟩
    obtain ⟨s'', hs''⟩ := hinv'.snapshot_enabled hstopped' hp
    exact ⟨s'', hs'', hinv'.snapshot_of_stopped hstopped' hp hs''⟩
  · intro id s₁ hp hs₁
    obtain ⟨hfields, q, hq, hcases⟩ := State.step_start hp hs₁
    refine ⟨hfields, fun s₂ s₃ err hrun hs₃ => ?_⟩
    obtain ⟨hp₂, hsame⟩ := State.step_slot_error hs₃
    exact ((hinv.step hs₁).fields_of_failed hq hcases rfl rfl hrun hp₂ hsame).trans hfields
  · intro id s₁ hp hs₁ s₂ s₃ err hrun herr hs₃
    obtain ⟨hfields, q, hq, hcases⟩ := State.step_snapshot hp hs₁
    obtain ⟨hp₂, hsame⟩ := State.step_bootstrap_error herr hs₃
    exact ((hinv.step hs₁).fields_of_failed hq hcases rfl rfl hrun hp₂ hsame).trans hfields

end Guarantees

/-- A source started without a slot: the first of two concurrent snapshots bootstraps it, the
context is cancelled and the stream ends before the second gets the lock. -/
theorem source_lifecycle_run : ∃ s, Reaches machine anyStep s ∧
    s.threads[2]? = some (.returned (some (.sentinel .sourceStopped))) ∧ s.runs = 1 ∧
    s.done = true ∧ Guarantees s := by
  have hrun : ∃ s ∈ runWhile machine anyStep ({} : State)
      [.start, .snapshot, .snapshot, .go 0 .run, .go 0 (.slot (.ok false)), .go 1 .run,
        .go 1 (.bootstrapped none), .cancel 0, .go 4 (.ended none), .go 3 .run, .go 4 .run,
        .go 3 .run, .go 2 .run],
      s.threads[2]? = some (.returned (some (.sentinel .sourceStopped))) ∧ s.runs = 1 ∧
        s.done = true := by
    decide
  obtain ⟨s, hs, hret, hruns, hdone⟩ := hrun
  have hreach : Reaches machine anyStep s := .of_runWhile (.init rfl) hs
  exact ⟨s, hreach, hret, hruns, hdone, source_lifecycle hreach⟩

end Watchd.Cdc.Source
