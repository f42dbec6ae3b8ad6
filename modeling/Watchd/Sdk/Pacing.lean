import Mathlib.Tactic.SplitIfs
import Watchd.Lib.History
import Watchd.Sdk.Client

/-!
# How fast a Sync call retries

`Sync` opens its next stream at once after some endings of a stream and waits
after the others.  The streams opened without a wait in between are at most three,
whatever the server does, and the wait doubles up to its bound until a stream
confirms progress.  What ends the call for good is a failure that no retry can
mend.

* `sync_paced`: the streams without a wait, and the length of each wait;
* `sync_gives_up`: what a Sync call returns for.
-/

namespace Watchd.Sdk

open Watchd.Lib

/-- Where a call stands in its retries. -/
structure Pace where
  /-- streams opened since the last wait -/
  opened : Nat := 0
  /-- waits since a stream last confirmed progress -/
  waits : Nat := 0
  deriving DecidableEq

/-- What a step adds to the record. -/
def Pace.note {σ ω : Type} (s : Sync σ ω) (l : Label) (_ : Sync σ ω) (p : Pace) : Pace :=
  match l with
  | .open_ _ => { p with opened := p.opened + 1 }
  | .wait _ => ⟨0, p.waits + 1⟩
  | .next _ => if s.progressed then { p with waits := 0 } else p
  | .recv _ => p

/-- The machine of a Sync call, with the pace it keeps. -/
def paced {σ ω : Type} (st : Store σ ω) : Machine (Sync σ ω × Pace) Label :=
  (machine st).noting {} Pace.note

/-- What decides when and how the next stream is opened. -/
structure Plan where
  minBackoff : Nat
  maxBackoff : Nat
  backoff : Nat
  snapshot : Bool
  resyncs : Nat

/-- The cursor of the last stream that was opened. -/
def lastOpened (trace : List Obs) : Option String :=
  (trace.filterMap fun | .opened cursor => some cursor | _ => none).getLast?

namespace Sync

variable {σ ω : Type} {st : Store σ ω}

theorem lastOpened_setState (s : Sync σ ω) (fresh : Bool) (cursor : String) :
    lastOpened (s.setState fresh cursor).trace = lastOpened s.trace := by
  unfold setState
  split
  · rfl
  · simp [lastOpened, observe]

/-- What `Sync` will do next depends on this much of it. -/
def plan (s : Sync σ ω) : Plan := ⟨s.minBackoff, s.maxBackoff, s.backoff, s.snapshot, s.resyncs⟩

@[simp] theorem plan_setState (s : Sync σ ω) (fresh : Bool) (cursor : String) :
    (s.setState fresh cursor).plan = s.plan := by
  unfold setState
  split <;> rfl

end Sync

/-- What the call has returned. -/
def Phase.result {ω : Type} : Phase ω → Option (Option StreamError)
  | .returned result => some result
  | _ => none

theorem Phase.eq_returned {ω : Type} {phase : Phase ω} {result : Option StreamError}
    (h : phase.result = some result) : phase = .returned result := by
  cases phase with
  | returned =>
    cases h
    rfl
  | _ => cases h

/-- A stream is open, or has just ended. -/
def Phase.busy {ω : Type} : Phase ω → Bool
  | .streaming _ _ _ | .ended _ => true
  | _ => false

namespace Sync

variable {σ ω : Type} (st : Store σ ω)

/-- From `s` on the call is busy with a stream, and its plan is as it was; what was opened for a
snapshot stays so. -/
structure Busy (s s' : Sync σ ω) : Prop where
  plan_eq : s'.plan = s.plan
  busy : s'.phase.busy = true
  asked : s.snapshot = true → lastOpened s.trace = some "" → lastOpened s'.trace = some ""

theorem busy_ends (s : Sync σ ω) (writer : Option ω) (err : StreamError) :
    s.Busy (s.ends st writer err) := by
  cases writer <;> exact ⟨rfl, rfl, fun _ h => h⟩

/-- The same, when the store has changed meanwhile. -/
theorem busy_ends_store (s : Sync σ ω) (store : σ) (writer : Option ω) (err : StreamError) :
    s.Busy ({ s with store := store }.ends st writer err) := by
  cases writer <;> exact ⟨rfl, rfl, fun _ h => h⟩

theorem lastOpened_watch (s : Sync σ ω) (failure : Option Code) (cursor : String) :
    lastOpened (s.watch st failure cursor).trace = some cursor := by
  cases failure <;> simp [watch, ends, lastOpened, observe]

theorem busy_watch (s : Sync σ ω) (failure : Option Code) (cursor : String) :
    (s.watch st failure cursor).plan = s.plan ∧
      (s.watch st failure cursor).phase.busy = true := by
  cases failure <;> exact ⟨rfl, rfl⟩

theorem lastOpened_openStream (s : Sync σ ω) (failure : Option Code) (h : s.snapshot = true) :
    lastOpened (s.openStream st failure).trace = some "" := by
  unfold openStream
  dsimp only
  rw [if_pos h]
  exact lastOpened_watch st _ failure ""

theorem busy_openStream (s : Sync σ ω) (failure : Option Code) :
    s.Busy (s.openStream st failure) := by
  have hrest : (s.openStream st failure).plan = s.plan ∧
      (s.openStream st failure).phase.busy = true := by
    unfold openStream
    dsimp only
    split
    · exact busy_watch st { s with progressed := false } failure ""
    · split
      · next store cursor _ =>
        exact busy_watch st { s with progressed := false, store := store } failure cursor
      · exact ⟨rfl, rfl⟩
  exact ⟨hrest.1, hrest.2, fun h _ => lastOpened_openStream st s failure h⟩

theorem busy_handle (s : Sync σ ω) (cursor : String) (writer : Option ω) (event : Event) :
    s.Busy (s.handle st cursor writer event) := by
  cases event with
  | snapshotBegin =>
    have hplan := plan_setState s false ""
    have hopened := lastOpened_setState s false ""
    simp only [handle]
    split
    · exact ⟨hplan, rfl, fun _ h => hopened.trans h⟩
    · exact ⟨hplan, rfl, fun _ h => hopened.trans h⟩
  | snapshotRows rows =>
    cases writer with
    | none => exact busy_ends st s none _
    | some w =>
      simp only [handle]
      split
      · exact busy_ends_store st s _ _ _
      · exact ⟨rfl, rfl, fun _ h => h⟩
  | snapshotEnd =>
    cases writer with
    | none => exact busy_ends st s none _
    | some w =>
      simp only [handle]
      split
      · exact busy_ends_store st s _ none _
      · refine ⟨rfl, rfl, fun _ h => ?_⟩
        rw [← h]
        simp [lastOpened, observe]
  | batch batch =>
    cases writer with
    | some w => exact busy_ends st s (some w) (.new "watchd: batch inside a snapshot")
    | none =>
      simp only [handle]
      split
      · exact busy_ends_store st s _ none _
      · exact ⟨rfl, rfl, fun _ h => h⟩
  | progress confirmed =>
    cases writer with
    | some w => exact busy_ends st s (some w) (.new "watchd: progress inside a snapshot")
    | none =>
      simp only [handle]
      split
      · exact busy_ends_store st s _ none _
      · refine ⟨plan_setState _ true confirmed, ?_, fun _ h => ?_⟩
        · rw [phase_setState]
          rfl
        · rw [lastOpened_setState]
          exact h
  | resync =>
    have hends := busy_ends st (s.observe .resync) writer .resync
    refine ⟨hends.plan_eq, hends.busy, fun hs h => hends.asked hs ?_⟩
    rw [← h]
    simp [lastOpened, observe]
  | unknown type => exact busy_ends st s writer _

variable {st}

/-- How a call goes on after a stream, with the plan it has then. -/
inductive Recovers (s s' : Sync σ ω) : Prop
  | returns (err : Option StreamError) (hphase : s'.phase = .returned err)
  | waits (hphase : s'.phase = .waiting)
      (hbackoff : s'.backoff = if s.progressed then s.minBackoff else s.backoff)
  /-- at once, with a snapshot: the server refused the stored cursor, or asked for a resync for the
  first time -/
  | again (hphase : s'.phase = .opening)
      (hbackoff : s'.backoff = if s.progressed then s.minBackoff else s.backoff)
      (hsnapshot : s'.snapshot = true)
      (hwhy : s.snapshot = false ∨ s.resyncs = 0 ∧ 1 ≤ s'.resyncs)

theorem setState_fields (s : Sync σ ω) (fresh : Bool) (cursor : String) :
    (s.setState fresh cursor).progressed = s.progressed := by
  unfold setState
  split <;> rfl

theorem recover_bounds (s : Sync σ ω) (err : StreamError) (cancelled : Bool) :
    (s.recover err cancelled).minBackoff = s.minBackoff ∧
      (s.recover err cancelled).maxBackoff = s.maxBackoff := by
  obtain ⟨phase, backoff, snapshot, resyncs, heq, -⟩ := s.recover_eq err cancelled
  have hplan := plan_setState s false s.state.cursor
  rw [heq]
  exact ⟨congrArg Plan.minBackoff hplan, congrArg Plan.maxBackoff hplan⟩

/-- A retry at once is one with a snapshot. -/
theorem retry_now {s s' : Sync σ ω} {err : StreamError} (h : s.retry err = some (s', true)) :
    s'.snapshot = true ∧ (s.snapshot = false ∨ err = .resync ∧ s.resyncs = 0 ∧ s'.resyncs = 1) := by
  unfold retry at h
  split at h
  · simp only [Option.some.injEq, Prod.mk.injEq, decide_eq_true_eq] at h
    obtain ⟨rfl, hone⟩ := h
    exact ⟨rfl, .inr ⟨rfl, by omega, hone⟩⟩
  · cases h
  · split at h
    · next hrefused =>
      cases h
      exact ⟨rfl, .inl (by simpa using hrefused.2)⟩
    · split at h
      · cases h
      · cases h

theorem recover_recovers (s : Sync σ ω) (err : StreamError) (cancelled : Bool) :
    s.Recovers (s.recover err cancelled) := by
  have hplan := plan_setState s false s.state.cursor
  have hprogressed := setState_fields s false s.state.cursor
  unfold recover
  dsimp only
  split
  · exact .returns none rfl
  · split
    · exact .returns (some err) rfl
    · next t retryNow hretry =>
      obtain ⟨snapshot, resyncs, ht⟩ := retry_eq hretry
      have hmin : t.minBackoff = s.minBackoff := by
        rw [ht]
        exact congrArg Plan.minBackoff hplan
      have hkept : t.backoff = s.backoff := by
        rw [ht]
        exact congrArg Plan.backoff hplan
      have htp : t.progressed = s.progressed := by
        rw [ht]
        exact hprogressed
      have hbackoff : (if t.progressed = true then
          { t with backoff := t.minBackoff, resyncs := if err = .resync then 1 else 0 }
          else t).backoff = if s.progressed then s.minBackoff else s.backoff := by
        rw [htp]
        split
        · exact hmin
        · exact hkept
      cases retryNow with
      | false => exact .waits rfl hbackoff
      | true =>
        obtain ⟨hsnapshot, hwhy⟩ := retry_now hretry
        refine .again rfl hbackoff ?_ ?_
        · dsimp only
          split
          · exact hsnapshot
          · exact hsnapshot
        · rcases hwhy with hfresh | ⟨hresync, hzero, hone⟩
          · exact .inl ((congrArg Plan.snapshot hplan).symm.trans hfresh)
          · refine .inr ⟨(congrArg Plan.resyncs hplan).symm.trans hzero, ?_⟩
            dsimp only
            split
            · exact Nat.le_refl 1
            · exact hone.ge

end Sync

/-- The streams already opened without a wait, and why the one to come is opened at once: after one
it asks for a snapshot, and after two there has been a resync. -/
def Plan.Quick (plan : Plan) (opened : Nat) : Prop :=
  opened = 0 ∨ opened = 1 ∧ plan.snapshot = true ∨
    opened = 2 ∧ plan.snapshot = true ∧ 1 ≤ plan.resyncs

/-- The pace that a call keeps. -/
structure Paced {σ ω : Type} (s : Sync σ ω) (p : Pace) : Prop where
  bounds : 0 < s.minBackoff ∧ s.minBackoff ≤ s.maxBackoff
  backoff : (∀ err, s.phase ≠ .returned err) →
    s.backoff = min (s.minBackoff * 2 ^ p.waits) s.maxBackoff
  opening : s.phase = .opening → s.plan.Quick p.opened
  busy : s.phase.busy = true → ∃ n, p.opened = n + 1 ∧ s.plan.Quick n
  opened_le : p.opened ≤ 3

theorem Plan.Quick.le {plan : Plan} {n : Nat} (h : plan.Quick n) : n ≤ 2 := by
  unfold Quick at h
  omega

section Run

variable {σ ω : Type} {st : Store σ ω}

theorem Paced.start (store : σ) (minBackoff maxBackoff : Int) :
    Paced (Sync.start store minBackoff maxBackoff : Sync σ ω) {} := by
  have hbounds : 0 < (Sync.start store minBackoff maxBackoff : Sync σ ω).minBackoff ∧
      (Sync.start store minBackoff maxBackoff : Sync σ ω).minBackoff ≤
        (Sync.start store minBackoff maxBackoff : Sync σ ω).maxBackoff := by
    unfold Sync.start defaultMinBackoff defaultMaxBackoff
    dsimp only
    split_ifs <;> omega
  refine ⟨hbounds, fun _ => ?_, fun _ => .inl rfl, ?_, Nat.zero_le _⟩
  · rw [Nat.pow_zero, Nat.mul_one, Nat.min_eq_left hbounds.2]
    rfl
  · intro h
    cases h

theorem Paced.busy_step {s s' : Sync σ ω} {p p' : Pace} {n : Nat} (h : Paced s p)
    (hgoing : ∀ err, s.phase ≠ .returned err) (hs : s.Busy s') (hopened : p'.opened = n + 1)
    (hwaits : p'.waits = p.waits) (hquick : s.plan.Quick n) : Paced s' p' := by
  have hplan := hs.plan_eq
  have hmin : s'.minBackoff = s.minBackoff := congrArg Plan.minBackoff hplan
  have hmax : s'.maxBackoff = s.maxBackoff := congrArg Plan.maxBackoff hplan
  have hbackoff : s'.backoff = s.backoff := congrArg Plan.backoff hplan
  have hbusy := hs.busy
  refine ⟨by rw [hmin, hmax]; exact h.bounds, fun _ => ?_, ?_, fun _ => ⟨n, hopened, ?_⟩, ?_⟩
  · rw [hbackoff, hmin, hmax, hwaits]
    exact h.backoff hgoing
  · intro hphase
    rw [hphase] at hbusy
    cases hbusy
  · rw [hplan]
    exact hquick
  · have := hquick.le
    omega

theorem two_pow_min {m n high : Nat} :
    min (min (m * 2 ^ n) high * 2) high = min (m * 2 ^ (n + 1)) high := by
  rw [Nat.pow_succ, ← Nat.mul_assoc]
  omega

theorem Paced.recovers {s s' : Sync σ ω} {p : Pace} (h : Paced s p)
    (hgoing : ∀ err, s.phase ≠ .returned err) (hbusy : s.phase.busy = true)
    (hmin : s'.minBackoff = s.minBackoff) (hmax : s'.maxBackoff = s.maxBackoff)
    (hs : s.Recovers s') : Paced s' (if s.progressed then { p with waits := 0 } else p) := by
  obtain ⟨n, hopened, hquick⟩ := h.busy hbusy
  have hsame : (if s.progressed then { p with waits := 0 } else p).opened = p.opened := by
    split <;> rfl
  have hbounds : 0 < s'.minBackoff ∧ s'.minBackoff ≤ s'.maxBackoff := by
    rw [hmin, hmax]
    exact h.bounds
  -- a stream that confirmed progress starts the backoff anew
  have hnext : (if s.progressed then s.minBackoff else s.backoff) =
      min (s.minBackoff * 2 ^ (if s.progressed then { p with waits := 0 } else p).waits)
        s.maxBackoff := by
    split
    · rw [Nat.pow_zero, Nat.mul_one, Nat.min_eq_left h.bounds.2]
    · exact h.backoff hgoing
  have hle : (if s.progressed then { p with waits := 0 } else p).opened ≤ 3 := by
    rw [hsame]
    exact h.opened_le
  cases hs with
  | returns err hphase =>
    refine ⟨hbounds, fun hnot => absurd hphase (hnot err), ?_, ?_, hle⟩
    · intro hopening
      rw [hphase] at hopening
      cases hopening
    · intro hbusy'
      rw [hphase] at hbusy'
      cases hbusy'
  | waits hphase hbackoff =>
    refine ⟨hbounds, fun _ => ?_, ?_, ?_, hle⟩
    · rw [hbackoff, hnext, hmin, hmax]
    · intro hopening
      rw [hphase] at hopening
      cases hopening
    · intro hbusy'
      rw [hphase] at hbusy'
      cases hbusy'
  | again hphase hbackoff hsnapshot hwhy =>
    refine ⟨hbounds, fun _ => ?_, fun _ => ?_, ?_, hle⟩
    · rw [hbackoff, hnext, hmin, hmax]
    · rw [hsame, hopened]
      rcases hquick with rfl | ⟨rfl, hforced⟩ | ⟨rfl, hforced, hresyncs⟩
      · exact .inr (.inl ⟨rfl, hsnapshot⟩)
      · rcases hwhy with hfresh | ⟨-, hone⟩
        · cases hfresh.symm.trans hforced
        · exact .inr (.inr ⟨rfl, hsnapshot, hone⟩)
      · -- a second resync waits, and a refused snapshot ends the call
        rcases hwhy with hfresh | ⟨hzero, -⟩
        · cases hfresh.symm.trans hforced
        · have : 1 ≤ s.resyncs := hresyncs
          omega
    · intro hbusy'
      rw [hphase] at hbusy'
      cases hbusy'

theorem Paced.step {s s' : Sync σ ω} {p : Pace} {l : Label} (h : Paced s p)
    (hs : s.step st l = some s') : Paced s' (Pace.note s l s' p) := by
  cases Sync.step_cases hs with
  | opens failure hphase =>
    exact h.busy_step (by simp [hphase]) (s.busy_openStream st failure) rfl rfl (h.opening hphase)
  | handles event hphase =>
    obtain ⟨n, hopened, hquick⟩ := h.busy (by rw [hphase]; rfl)
    exact h.busy_step (by simp [hphase]) (s.busy_handle st _ _ event) hopened rfl hquick
  | eof hphase =>
    obtain ⟨n, hopened, hquick⟩ := h.busy (by rw [hphase]; rfl)
    exact h.busy_step (by simp [hphase]) (s.busy_ends st _ _) hopened rfl hquick
  | fails code hphase =>
    obtain ⟨n, hopened, hquick⟩ := h.busy (by rw [hphase]; rfl)
    exact h.busy_step (by simp [hphase]) (s.busy_ends st _ _) hopened rfl hquick
  | recovers cancelled hphase =>
    obtain ⟨hmin, hmax⟩ := s.recover_bounds _ cancelled
    exact h.recovers (by simp [hphase]) (by rw [hphase]; rfl) hmin hmax
      (s.recover_recovers _ cancelled)
  | stops hphase =>
    refine ⟨h.bounds, fun hnot => absurd rfl (hnot none), ?_, ?_, Nat.zero_le _⟩
    · intro hopening
      cases hopening
    · intro hbusy
      cases hbusy
  | waits hphase =>
    refine ⟨h.bounds, fun _ => ?_, fun _ => .inl rfl, ?_, Nat.zero_le _⟩
    · show min (s.backoff * 2) s.maxBackoff = _
      rw [h.backoff (by simp [hphase])]
      exact two_pow_min
    · intro hbusy
      cases hbusy

/-- **A Sync call never hammers the server.**  Between two waits it opens at most three streams,
whatever the server answers and whatever the store does; and while it goes on, its backoff is the
least one doubled once for every wait since a stream last confirmed progress, up to the largest. -/
theorem sync_paced {s : Sync σ ω} {p : Pace} (h : Reaches (paced st) anyStep (s, p)) :
    p.opened ≤ 3 ∧ (0 < s.minBackoff ∧ s.minBackoff ≤ s.maxBackoff) ∧
      ((∀ err, s.phase ≠ .returned err) →
        s.backoff = min (s.minBackoff * 2 ^ p.waits) s.maxBackoff) := by
  have hpaced : Paced (s, p).1 (s, p).2 := by
    refine Reaches.invariant (I := fun x => Paced x.1 x.2) ?_ ?_ h
    · rintro ⟨s, p⟩ ⟨⟨store, minBackoff, maxBackoff, hs⟩, hp⟩
      dsimp only at hs hp
      subst hs hp
      exact .start store minBackoff maxBackoff
    · rintro x l y - hx - hstep
      obtain ⟨hs, hp⟩ := Machine.noting_step hstep
      rw [hp]
      exact hx.step hs
  exact ⟨hpaced.opened_le, hpaced.bounds, hpaced.backoff⟩

namespace Demo

/-- A store that keeps a cursor and takes everything. -/
def obliging : Store Unit Unit where
  cursor s := (s, .ok "old@0/64")
  beginSnapshot s := (s, .ok ())
  put s w _ := (s, w, none)
  commit s _ := (s, none)
  abort s _ := (s, none)
  apply s _ := (s, none)
  saveCursor s _ := (s, none)

/-- The stored cursor is refused, and the snapshot is answered with a resync. -/
def refused : List Label :=
  [.open_ none, .recv (.status .invalidArgument), .next false, .open_ none, .recv (.event .resync),
    .next false, .open_ none]

/-- The server goes away. -/
def unavailable : List Label := [.recv (.status .unavailable), .next false, .wait false]

end Demo

/-- The third stream is opened without a wait; after the wait that follows, the backoff has
doubled. -/
theorem sync_paced_run :
    (∃ s, Reaches (paced Demo.obliging) anyStep (s, ⟨3, 0⟩)) ∧
    ∃ s, Reaches (paced Demo.obliging) anyStep (s, ⟨0, 1⟩) ∧
      s.backoff = min (s.minBackoff * 2 ^ 1) s.maxBackoff := by
  have hinit : Reaches (paced Demo.obliging) anyStep (.start () 0 0, {}) :=
    .init ⟨⟨(), 0, 0, rfl⟩, rfl⟩
  have hthird :
      (runWhile (paced Demo.obliging) anyStep (.start () 0 0, {}) Demo.refused).map (·.2) =
      some ⟨3, 0⟩ := by decide
  have hwaited : (runWhile (paced Demo.obliging) anyStep (.start () 0 0, {})
      (Demo.refused ++ Demo.unavailable)).map (fun x => (x.2, x.1.phase.result)) =
      some (⟨0, 1⟩, none) := by decide
  obtain ⟨⟨s, p⟩, hrun, rfl⟩ := Option.map_eq_some_iff.1 hthird
  obtain ⟨⟨s', p'⟩, hrun', hp⟩ := Option.map_eq_some_iff.1 hwaited
  obtain ⟨rfl, hgoing⟩ := Prod.ext_iff.1 hp
  have hreached := Reaches.of_runWhile hinit hrun'
  refine ⟨⟨s, Reaches.of_runWhile hinit hrun⟩, s', hreached, (sync_paced hreached).2.2 ?_⟩
  intro err hphase
  rw [hphase] at hgoing
  cases hgoing

/-! ## What ends the call -/

/-- The context of the call is never cancelled. -/
def uncancelled (_ : Sync σ ω) : Label → Prop
  | .next cancelled | .wait cancelled => cancelled = false
  | _ => True

instance (s : Sync σ ω) : (l : Label) → Decidable (uncancelled s l)
  | .next cancelled | .wait cancelled => instDecidableEqBool cancelled false
  | .open_ _ | .recv _ => .isTrue trivial

/-- The errors that a call returns: those of the store, and the permanent ones, a refused cursor
only if the stream had none. -/
def Hopeless (s : Sync σ ω) (err : StreamError) : Prop :=
  (∃ doing text, err = .store doing text) ∨
    isPermanent err = true ∧ (err.code = .invalidArgument → lastOpened s.trace = some "")

/-- A stream opened for a snapshot was opened without a cursor, and a call returns only what is
hopeless. -/
structure Deciding (s : Sync σ ω) : Prop where
  asked : s.phase.busy = true → s.snapshot = true → lastOpened s.trace = some ""
  returned : ∀ result, s.phase = .returned result → ∃ err, result = some err ∧ Hopeless s err

theorem Deciding.busy {s s' : Sync σ ω} (hs : s.Busy s')
    (hasked : s.snapshot = true → lastOpened s'.trace = some "") : Deciding s' := by
  refine ⟨fun _ hsnapshot => hasked ((congrArg Plan.snapshot hs.plan_eq).symm.trans hsnapshot), ?_⟩
  intro result hphase
  have hbusy := hs.busy
  rw [hphase] at hbusy
  cases hbusy

theorem Deciding.going {s s' : Sync σ ω} (h : Deciding s) (hphase : s.phase.busy = true)
    (hs : s.Busy s') : Deciding s' :=
  .busy hs fun hsnapshot => hs.asked hsnapshot (h.asked hphase hsnapshot)

/-- A stream's ending that is not retried is hopeless. -/
theorem retry_eq_none {s : Sync σ ω} {err : StreamError} (h : s.retry err = none) :
    (∃ doing text, err = .store doing text) ∨
      isPermanent err = true ∧ (err.code = .invalidArgument → s.snapshot = true) := by
  unfold Sync.retry at h
  split at h
  · cases h
  · next doing text => exact .inl ⟨doing, text, rfl⟩
  · split at h
    · cases h
    · next hkept =>
      split at h
      · next hpermanent =>
        refine .inr ⟨hpermanent, fun hcode => ?_⟩
        by_contra hsnapshot
        exact hkept ⟨hcode, by simpa using hsnapshot⟩
      · cases h

theorem Deciding.recover {s : Sync σ ω} {err : StreamError} (h : Deciding s)
    (hphase : s.phase = .ended err) : Deciding (s.recover err false) := by
  have hsnapshot : (s.setState false s.state.cursor).snapshot = s.snapshot :=
    congrArg Plan.snapshot (Sync.plan_setState s false s.state.cursor)
  have hasked := h.asked (by rw [hphase]; rfl)
  unfold Sync.recover
  dsimp only
  rw [if_neg Bool.false_ne_true]
  cases hretry : (s.setState false s.state.cursor).retry err with
  | none =>
    refine ⟨fun hbusy => absurd hbusy Bool.false_ne_true, fun result hresult => ?_⟩
    cases hresult
    refine ⟨err, rfl, ?_⟩
    rcases retry_eq_none hretry with hstore | ⟨hpermanent, hcode⟩
    · exact .inl hstore
    · refine .inr ⟨hpermanent, fun hinvalid => ?_⟩
      show lastOpened (s.setState false s.state.cursor).trace = some ""
      rw [Sync.lastOpened_setState]
      exact hasked (hsnapshot.symm.trans (hcode hinvalid))
  | some next =>
    obtain ⟨t, retryNow⟩ := next
    refine ⟨fun hbusy => ?_, fun result hresult => ?_⟩
    · cases retryNow <;> cases hbusy
    · cases retryNow <;> cases hresult

theorem Deciding.step {s s' : Sync σ ω} {l : Label} (h : Deciding s) (hok : uncancelled s l)
    (hs : s.step st l = some s') : Deciding s' := by
  cases Sync.step_cases hs with
  | opens failure hphase =>
    exact .busy (s.busy_openStream st failure) (s.lastOpened_openStream st failure)
  | handles event hphase => exact h.going (by rw [hphase]; rfl) (s.busy_handle st _ _ event)
  | eof hphase => exact h.going (by rw [hphase]; rfl) (s.busy_ends st _ _)
  | fails code hphase => exact h.going (by rw [hphase]; rfl) (s.busy_ends st _ _)
  | recovers cancelled hphase =>
    have hcancelled : cancelled = false := hok
    subst hcancelled
    exact h.recover hphase
  | stops hphase => cases hok
  | waits hphase =>
    refine ⟨fun hbusy => ?_, fun result hresult => ?_⟩
    · cases hbusy
    · cases hresult

/-- **A Sync call whose context lives returns only what no retry can mend**: a failure of its store,
or a permanent status of the server; and it returns that a cursor is refused only if the stream was
opened without one. -/
theorem sync_gives_up {s : Sync σ ω} (h : Reaches (machine st) uncancelled s)
    {result : Option StreamError} (hresult : s.phase = .returned result) :
    ∃ err, result = some err ∧ Hopeless s err := by
  have hdeciding : Deciding s := by
    refine Reaches.invariant ?_ (fun s l s' _ hs hok hstep => hs.step hok hstep) h
    rintro s ⟨store, minBackoff, maxBackoff, rfl⟩
    refine ⟨fun hbusy => ?_, fun result hresult => ?_⟩
    · cases hbusy
    · cases hresult
  exact hdeciding.returned result hresult

theorem sync_gives_up_run :
    ∃ s, Reaches (machine Demo.obliging) uncancelled s ∧
      s.phase = .returned (some (.status .invalidArgument)) ∧
        Hopeless s (.status .invalidArgument) := by
  have hinit : Reaches (machine Demo.obliging) uncancelled (.start () 0 0) := .init ⟨(), 0, 0, rfl⟩
  have hrun : (runWhile (machine Demo.obliging) uncancelled (.start () 0 0)
      (Demo.refused ++ [.recv (.status .invalidArgument), .next false])).map (·.phase.result) =
      some (some (some (.status .invalidArgument))) := by decide
  obtain ⟨s, hs, hresult⟩ := Option.map_eq_some_iff.1 hrun
  have hreached := Reaches.of_runWhile hinit hs
  have hphase := Phase.eq_returned hresult
  obtain ⟨err, herr, hhopeless⟩ := sync_gives_up hreached hphase
  cases herr
  exact ⟨s, hreached, hphase, hhopeless⟩

end Run

end Watchd.Sdk
