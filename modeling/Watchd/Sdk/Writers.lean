import Watchd.Lib.Custody
import Watchd.Lib.History
import Watchd.Sdk.Freshness

/-!
# Every snapshot writer is finished

A store that keeps a ledger of the writers it hands out sees what `stream` does
with them.  Keeping the ledger changes nothing else: forgetting it turns the runs
over such a store into the runs over the store itself.  `stream` holds its writer
in one variable; a SnapshotBegin that arrives while a writer is open puts another
one there, and the first is never finished.

`writers_finished_once`: every other one is finished exactly once;
`writer_never_finished` is a run with such a one.
-/

namespace Watchd.Sdk

open Watchd.Lib

variable {σ ω : Type}

/-- The store, with a ledger of its writers: each carries its number, and `Commit` and `Abort`
finish it whether they fail or not. -/
def Store.logged (st : Store σ ω) : Store (σ × Ledger) (Nat × ω) where
  cursor s := (((st.cursor s.1).1, s.2), (st.cursor s.1).2)
  beginSnapshot s :=
    match st.beginSnapshot s.1 with
    | (t, .error err) => ((t, s.2), .error err)
    | (t, .ok w) => ((t, s.2.handOut), .ok (s.2.begun, w))
  put s w rows :=
    (((st.put s.1 w.2 rows).1, s.2), (w.1, (st.put s.1 w.2 rows).2.1), (st.put s.1 w.2 rows).2.2)
  commit s w := (((st.commit s.1 w.2).1, s.2.finish w.1), (st.commit s.1 w.2).2)
  abort s w := (((st.abort s.1 w.2).1, s.2.finish w.1), (st.abort s.1 w.2).2)
  apply s b := (((st.apply s.1 b).1, s.2), (st.apply s.1 b).2)
  saveCursor s cursor := (((st.saveCursor s.1 cursor).1, s.2), (st.saveCursor s.1 cursor).2)

/-! ## Forgetting the ledger -/

/-- A phase without the number of its writer. -/
def Phase.forget : Phase (Nat × ω) → Phase ω
  | .opening => .opening
  | .streaming cursor heard writer => .streaming cursor heard (writer.map Prod.snd)
  | .ended err => .ended err
  | .waiting => .waiting
  | .returned err => .returned err

namespace Sync

variable {st : Store σ ω} {s s' : Sync (σ × Ledger) (Nat × ω)}

/-- A client of the logged store as one of the store itself. -/
def forget (s : Sync (σ × Ledger) (Nat × ω)) : Sync σ ω where
  store := s.store.1
  phase := s.phase.forget
  minBackoff := s.minBackoff
  maxBackoff := s.maxBackoff
  backoff := s.backoff
  snapshot := s.snapshot
  resyncs := s.resyncs
  state := s.state
  reported := s.reported
  progressed := s.progressed
  trace := s.trace

theorem store_forget (s : Sync (σ × Ledger) (Nat × ω)) : s.forget.store = s.store.1 := rfl

theorem forget_setState (s : Sync (σ × Ledger) (Nat × ω)) (fresh : Bool) (cursor : String) :
    (s.setState fresh cursor).forget = s.forget.setState fresh cursor := by
  unfold setState
  by_cases h : s.reported ∧ (⟨fresh, cursor⟩ : State) = s.state
  · rw [if_pos h, if_pos (show s.forget.reported ∧ _ = s.forget.state from h)]
  · rw [if_neg h, if_neg (show ¬(s.forget.reported ∧ _ = s.forget.state) from h)]
    rfl

theorem forget_ends (st : Store σ ω) (s : Sync (σ × Ledger) (Nat × ω)) (writer : Option (Nat × ω))
    (err : StreamError) :
    (s.ends st.logged writer err).forget = s.forget.ends st (writer.map Prod.snd) err := by
  cases writer <;> rfl

theorem forget_watch (st : Store σ ω) (s : Sync (σ × Ledger) (Nat × ω)) (failure : Option Code)
    (cursor : String) :
    (s.watch st.logged failure cursor).forget = s.forget.watch st failure cursor := by
  cases failure <;> rfl

theorem forget_openStream (s : Sync (σ × Ledger) (Nat × ω)) (failure : Option Code) :
    (s.openStream st.logged failure).forget = s.forget.openStream st failure := by
  have hsnapshot : s.forget.snapshot = s.snapshot := rfl
  have hcursor : st.logged.cursor s.store =
      (((st.cursor s.store.1).1, s.store.2), (st.cursor s.store.1).2) := rfl
  simp only [openStream, hsnapshot, store_forget, hcursor]
  by_cases hforced : s.snapshot = true
  · rw [if_pos hforced, if_pos hforced]
    exact forget_watch st { s with progressed := false } failure ""
  · rw [if_neg hforced, if_neg hforced]
    rcases st.cursor s.store.1 with ⟨store, err | cursor⟩
    · exact forget_ends st { s with progressed := false, store := (store, s.store.2) } none _
    · exact forget_watch st { s with progressed := false, store := (store, s.store.2) }
        failure cursor

theorem forget_handle (s : Sync (σ × Ledger) (Nat × ω)) (cursor : String)
    (writer : Option (Nat × ω)) (event : Event) :
    (s.handle st.logged cursor writer event).forget =
      s.forget.handle st cursor (writer.map Prod.snd) event := by
  have hends := forget_ends st
  cases event with
  | snapshotBegin =>
    simp only [handle, ← forget_setState, store_forget, Store.logged]
    rcases st.beginSnapshot (s.setState false "").store.1 with ⟨store, err | w⟩
    · exact hends ..
    · rfl
  | snapshotRows rows =>
    cases writer with
    | none => exact hends ..
    | some w =>
      simp only [handle, store_forget, Store.logged, Option.map_some]
      rcases st.put s.store.1 w.2 rows with ⟨store, w', _ | err⟩
      · rfl
      · exact hends ..
  | snapshotEnd =>
    cases writer with
    | none => exact hends ..
    | some w =>
      simp only [handle, store_forget, Store.logged, Option.map_some]
      rcases st.commit s.store.1 w.2 with ⟨store, _ | err⟩
      · rfl
      · exact hends ..
  | batch batch =>
    cases writer with
    | some w => exact hends ..
    | none =>
      simp only [handle, store_forget, Store.logged, Option.map_none]
      rcases st.apply s.store.1 batch with ⟨store, _ | err⟩
      · rfl
      · exact hends ..
  | progress confirmed =>
    cases writer with
    | some w => exact hends ..
    | none =>
      simp only [handle, store_forget, Store.logged, Option.map_none]
      rcases st.saveCursor s.store.1 confirmed with ⟨store, _ | err⟩
      · exact forget_setState ..
      · exact hends ..
  | resync => exact hends ..
  | unknown type => exact hends ..

theorem forget_retry (s : Sync (σ × Ledger) (Nat × ω)) (err : StreamError) :
    s.forget.retry err = (s.retry err).map fun r => (r.1.forget, r.2) := by
  have hsnapshot : s.forget.snapshot = s.snapshot := rfl
  unfold retry
  cases err with
  | resync => rfl
  | store doing text => rfl
  | status code =>
    simp only [hsnapshot]
    split
    · rfl
    · split <;> rfl
  | new text =>
    simp only [hsnapshot]
    split
    · rfl
    · split <;> rfl

theorem forget_recover (s : Sync (σ × Ledger) (Nat × ω)) (err : StreamError) (cancelled : Bool) :
    (s.recover err cancelled).forget = s.forget.recover err cancelled := by
  have hstate : s.forget.state = s.state := rfl
  unfold recover
  simp only [hstate, ← forget_setState, forget_retry]
  cases cancelled with
  | true => rfl
  | false =>
    cases hretry : (s.setState false s.state.cursor).retry err with
    | none => rfl
    | some r =>
      obtain ⟨t, retryNow⟩ := r
      have hprogressed : t.forget.progressed = t.progressed := rfl
      simp only [Option.map_some, Bool.false_eq_true, if_false, hprogressed]
      cases hp : t.progressed <;> cases retryNow <;> rfl

theorem forget_step (s : Sync (σ × Ledger) (Nat × ω)) (l : Label) :
    s.forget.step st l = (s.step st.logged l).map forget := by
  have hphase : s.forget.phase = s.phase.forget := rfl
  cases l with
  | open_ failure =>
    simp only [step, hphase]
    cases hp : s.phase with
    | opening => exact congrArg some (forget_openStream s failure).symm
    | _ => rfl
  | recv r =>
    simp only [step, hphase]
    cases hp : s.phase with
    | streaming cursor heard writer =>
      cases r with
      | event event => exact congrArg some (forget_handle s cursor writer event).symm
      | eof => exact congrArg some (forget_ends st s writer _).symm
      | status code => exact congrArg some (forget_ends st s writer _).symm
    | _ => rfl
  | next cancelled =>
    simp only [step, hphase]
    cases hp : s.phase with
    | ended err => exact congrArg some (forget_recover s err cancelled).symm
    | _ => rfl
  | wait cancelled =>
    simp only [step, hphase]
    cases hp : s.phase with
    | waiting => cases cancelled <;> rfl
    | _ => rfl

end Sync

/-- Every run over the store is a run over the store with its ledger, which starts empty. -/
theorem exists_logged {st : Store σ ω} {store : σ} {low high : Int} {s : Sync σ ω}
    (h : Reaches ((machine st).startedAt (.start store low high)) anyStep s) :
    ∃ t : Sync (σ × Ledger) (Nat × ω), t.forget = s ∧
      Reaches ((machine st.logged).startedAt (.start (store, {}) low high)) anyStep t := by
  induction h with
  | init h =>
    cases h
    exact ⟨_, rfl, .init rfl⟩
  | step _ _ hs ih =>
    obtain ⟨t, rfl, ht⟩ := ih
    obtain ⟨t', hstep, rfl⟩ := Option.map_eq_some_iff.1 ((Sync.forget_step t _).symm.trans hs)
    exact ⟨t', rfl, .step ht trivial hstep⟩

/-- And forgetting the ledger gives back a run over the store. -/
theorem of_logged {st : Store σ ω} {store : σ} {low high : Int} {t : Sync (σ × Ledger) (Nat × ω)}
    (h : Reaches ((machine st.logged).startedAt (.start (store, {}) low high)) anyStep t) :
    Reaches ((machine st).startedAt (.start store low high)) anyStep t.forget := by
  induction h with
  | init h =>
    cases h
    exact .init rfl
  | step _ _ hs ih =>
    exact .step ih trivial ((Sync.forget_step _ _).trans (congrArg (Option.map Sync.forget) hs))

/-! ## The writers of a stream -/

/-- The number of the writer that is open. -/
def Phase.held : Phase (Nat × ω) → Option Nat
  | .streaming _ _ writer => writer.map Prod.fst
  | _ => none

theorem Phase.held_eq_none {phase : Phase (Nat × ω)}
    (h : ∀ cursor heard writer, phase ≠ .streaming cursor heard writer) : phase.held = none := by
  cases phase with
  | streaming cursor heard writer => exact absurd rfl (h cursor heard writer)
  | _ => rfl

/-- The writers that were open when a SnapshotBegin arrived. -/
def overwritten (s : Sync (σ × Ledger) (Nat × ω)) (l : Label) (_ : Sync (σ × Ledger) (Nat × ω))
    (lost : List Nat) : List Nat :=
  match l with
  | .recv (.event .snapshotBegin) => lost ++ s.phase.held.toList
  | _ => lost

namespace Sync

variable {st : Store σ ω} {s s' : Sync (σ × Ledger) (Nat × ω)} {lost : List Nat}

/-- The writers: those begun and finished, the one held, and those lost. -/
def custody (s : Sync (σ × Ledger) (Nat × ω)) (lost : List Nat) : Custody :=
  ⟨s.store.2, s.phase.held, lost⟩

theorem custody_of_held {held : Option Nat} (hs : s.phase.held = held) :
    s.custody lost = ⟨s.store.2, held, lost⟩ := by
  rw [← hs]
  rfl

/-- A stream that returns finishes its writer. -/
theorem custody_ends (st : Store σ ω) {writer : Option (Nat × ω)}
    (hs : s.phase.held = writer.map Prod.fst)
    (err : StreamError) :
    (s.custody lost).Moves ((s.ends st.logged writer err).custody lost) := by
  rw [custody_of_held hs]
  cases writer with
  | none => exact .keep _
  | some w => exact .finish _ _ _

theorem custody_setState (fresh : Bool) (cursor : String) :
    (s.setState fresh cursor).custody lost = s.custody lost := by
  simp only [custody, store_setState, phase_setState]

/-- One event: a writer is taken by SnapshotBegin, over the one that is open, and finished by
SnapshotEnd or with the stream. -/
theorem custody_handle {cursor : String} {heard : Bool} {writer : Option (Nat × ω)}
    (hs : s.phase = .streaming cursor heard writer) (event : Event) :
    (s.custody lost).Moves ((s.handle st.logged cursor writer event).custody
      (overwritten s (.recv (.event event)) s' lost)) := by
  have hheld : s.phase.held = writer.map Prod.fst := by rw [hs]; rfl
  cases event with
  | snapshotBegin =>
    have hstore : (s.setState false "").store = s.store := store_setState ..
    simp only [handle, Store.logged, hstore]
    rcases st.beginSnapshot s.store.1 with ⟨store, err | w⟩
    · exact .drop _
    · exact .take _
  | snapshotRows rows =>
    cases writer with
    | none => exact custody_ends st hheld _
    | some w =>
      simp only [handle, Store.logged]
      rcases st.put s.store.1 w.2 rows with ⟨store, w', _ | err⟩
      · rw [custody_of_held hheld]
        exact .keep _
      · exact custody_ends st (s := { s with store := (store, s.store.2) })
          (show s.phase.held = Option.map Prod.fst (some (w.1, w')) from hheld) _
  | snapshotEnd =>
    cases writer with
    | none => exact custody_ends st hheld _
    | some w =>
      simp only [handle, Store.logged]
      rw [custody_of_held hheld]
      rcases st.commit s.store.1 w.2 with ⟨store, _ | err⟩
      · exact .finish _ _ _
      · exact .finish _ _ _
  | batch batch =>
    cases writer with
    | some w => exact custody_ends st hheld _
    | none =>
      simp only [handle, Store.logged]
      rw [custody_of_held hheld]
      rcases st.apply s.store.1 batch with ⟨store, _ | err⟩
      · exact .keep _
      · exact .keep _
  | progress confirmed =>
    cases writer with
    | some w => exact custody_ends st hheld _
    | none =>
      simp only [handle, Store.logged]
      rw [custody_of_held hheld]
      rcases st.saveCursor s.store.1 confirmed with ⟨store, _ | err⟩
      · simp only [custody_setState]
        exact .keep _
      · exact .keep _
  | resync => exact custody_ends st (s := s.observe .resync) hheld _
  | unknown type => exact custody_ends st hheld _

/-- Off a stream no writer is open, and none is touched. -/
theorem custody_openStream (st : Store σ ω) (hs : s.phase = .opening) (failure : Option Code)
    (lost : List Nat) :
    (s.openStream st.logged failure).custody lost = s.custody lost := by
  have hwatch : ∀ (t : Sync (σ × Ledger) (Nat × ω)) (cursor : String),
      (t.watch st.logged failure cursor).custody lost = ⟨t.store.2, none, lost⟩ := by
    intro t cursor
    cases failure <;> rfl
  have hheld : s.phase.held = none := by rw [hs]; rfl
  rw [custody_of_held hheld]
  simp only [openStream]
  split
  · exact hwatch _ _
  · simp only [Store.logged]
    rcases st.cursor s.store.1 with ⟨store, err | cursor⟩
    · rfl
    · exact hwatch { s with progressed := false, store := (store, s.store.2) } cursor

theorem custody_recover {err : StreamError} (hs : s.phase = .ended err) (cancelled : Bool)
    (lost : List Nat) :
    (s.recover err cancelled).custody lost = s.custody lost := by
  obtain ⟨phase, backoff, snapshot, resyncs, heq, hphase⟩ := s.recover_eq err cancelled
  have hstore : (s.setState false s.state.cursor).store = s.store := store_setState ..
  have hheld : s.phase.held = none := by rw [hs]; rfl
  rw [custody_of_held hheld, heq]
  simp only [custody, hstore, Phase.held_eq_none hphase]

theorem custody_step {l : Label} (hs : s.step st.logged l = some s') :
    (s.custody lost).Moves (s'.custody (overwritten s l s' lost)) := by
  have hheld : ∀ {phase}, s.phase = phase → s.phase.held = phase.held := congrArg Phase.held
  cases step_cases hs with
  | opens failure hphase =>
    have hkeep := custody_openStream st hphase failure lost
    exact hkeep ▸ .keep _
  | handles event hphase => exact custody_handle hphase event
  | eof hphase => exact custody_ends st (hheld hphase) _
  | fails code hphase => exact custody_ends st (hheld hphase) _
  | recovers cancelled hphase =>
    have hkeep := custody_recover hphase cancelled lost
    exact hkeep ▸ .keep _
  | stops hphase =>
    rw [custody_of_held (hheld hphase)]
    exact .keep _
  | waits hphase =>
    rw [custody_of_held (hheld hphase)]
    exact .keep _

end Sync

/-- **Every snapshot writer is finished exactly once, unless another one takes its place.** 
Whatever arrives and whatever fails: when `stream` has returned, each writer begun so far got
exactly one of `Commit` and `Abort`, except those that were open when a SnapshotBegin arrived, which
got neither. -/
theorem writers_finished_once {st : Store σ ω} {store : σ} {low high : Int}
    {s : Sync (σ × Ledger) (Nat × ω)} {lost : List Nat}
    (h : Reaches (((machine st.logged).startedAt (.start (store, {}) low high)).noting []
      overwritten) anyStep (s, lost))
    (hreturned : ∀ cursor heard writer, s.phase ≠ .streaming cursor heard writer) :
    ((∀ n < s.store.2.begun, s.store.2.finished.count n = 1) ↔ lost = []) ∧
      ∀ n < s.store.2.begun, s.store.2.finished.count n = if n ∈ lost then 0 else 1 := by
  have hinv : (s.custody lost).Accounted := by
    refine Reaches.invariant (I := fun p => (p.1.custody p.2).Accounted) ?_ ?_ h
    · rintro ⟨s, lost⟩ ⟨hs, hlost⟩
      cases hs
      cases hlost
      exact .start
    · rintro ⟨s, lost⟩ l ⟨s', lost'⟩ - hI - hstep
      obtain ⟨hs, hlost⟩ := Machine.noting_step hstep
      cases hlost
      exact hI.moves (Sync.custody_step hs)
  have hheld : s.phase.held = none := Phase.held_eq_none hreturned
  exact ⟨hinv.all_finished_iff hheld, fun n hn => hinv.count_eq hheld hn⟩

namespace Demo

/-- A client of the logged store. -/
def loggedStart : Sync (String × Ledger) (Nat × Unit) := .start ("", {}) 0 0

/-- A snapshot that the server cuts short. -/
def interrupted : List Label := .open_ none :: recvs [.snapshotBegin] ++ [.recv .eof]

/-- A snapshot begun again before its end. -/
def begunTwice : List Label :=
  .open_ none :: recvs [.snapshotBegin, .snapshotBegin, .snapshotEnd] ++ [.recv .eof]

end Demo

theorem writers_finished_once_run :
    ∃ (s : Sync (String × Ledger) (Nat × Unit)) (lost : List Nat),
      s.store.2 = ⟨1, [0]⟩ ∧ lost = [] ∧ ∀ n < s.store.2.begun, s.store.2.finished.count n = 1 := by
  have hrun : ∃ p ∈ runWhile (((machine Demo.keeping.logged).startedAt Demo.loggedStart).noting []
        overwritten) anyStep (Demo.loggedStart, []) Demo.interrupted,
      p.1.store.2 = ⟨1, [0]⟩ ∧ p.2 = [] ∧
        p.1.phase = .ended (.new "watchd: server ended the stream") :=
    ⟨_, rfl, rfl, rfl, rfl⟩
  obtain ⟨⟨s, lost⟩, hs, hledger, hlost, hphase⟩ := hrun
  have hreaches : Reaches (((machine Demo.keeping.logged).startedAt Demo.loggedStart).noting []
      overwritten) anyStep (s, lost) :=
    .of_runWhile (s := (Demo.loggedStart, [])) (.init ⟨rfl, rfl⟩) hs
  refine ⟨s, lost, hledger, hlost, (writers_finished_once hreaches ?_).1.2 hlost⟩
  intro cursor heard writer hstreaming
  rw [hstreaming] at hphase
  cases hphase

/-- The second SnapshotBegin puts its writer in the place of the first, and `stream` returns without
having finished that one. -/
theorem writer_never_finished :
    ∃ s : Sync (String × Ledger) (Nat × Unit),
      Reaches ((machine Demo.keeping.logged).startedAt Demo.loggedStart) anyStep s ∧
      s.phase = .ended (.new "watchd: server ended the stream") ∧
      s.store.2.begun = 2 ∧ s.store.2.finished.count 0 = 0 := by
  have hrun : ∃ s ∈ runWhile ((machine Demo.keeping.logged).startedAt Demo.loggedStart) anyStep
        Demo.loggedStart Demo.begunTwice,
      s.phase = .ended (.new "watchd: server ended the stream") ∧
      s.store.2.begun = 2 ∧ s.store.2.finished.count 0 = 0 :=
    ⟨_, rfl, rfl, rfl, rfl⟩
  obtain ⟨s, hs, hphase, hbegun, hcount⟩ := hrun
  exact ⟨s, .of_runWhile (.init rfl) hs, hphase, hbegun, hcount⟩

end Watchd.Sdk
