import Mathlib.Tactic.SplitIfs
import Watchd.Cdc.Sessions
import Watchd.Lib.History

/-!
# The end at the retention budget

The retention policy drops the slot to protect the source, and every consumer must
rebuild.  This happens only after a sample found as much WAL retained as the
effective budget allows, and then nothing brings `Run` back: it sees at most the
connection end that it has, and returns for the budget unless it was cancelled.

* `dropped_only_at_budget`: the slot is dropped only after such a sample;
* `budget_ends_run`: what `Run` still does after it.
-/

namespace Watchd.Cdc

open Watchd.Lib

/-! ## The server's limit -/

/-- The units of `pg_settings`, in bytes. -/
def walKeepSizeUnitMultipliers : String → Option Int
  | "B" => some 1
  | "kB" => some 1024
  | "MB" => some (1024 * 1024)
  | "GB" => some (1024 * 1024 * 1024)
  | "TB" => some (1024 * 1024 * 1024 * 1024)
  | _ => none

/-- A product of two `int64`. -/
def mulInt64 (a b : Int) : Int := (a * b).bmod (2 ^ 64)

/-- `readMaxSlotWALKeepSize`, from the row of `pg_settings`; `parseInt` is `strconv.ParseInt`. -/
def readMaxSlotWALKeepSize (parseInt : String → Option Int)
    (row : Except Failure (String × String)) : Except GoError (Int × Bool) :=
  match row with
  | .error failure => .error (classifyPostgresError failure)
  | .ok (setting, unit) =>
    match parseInt setting with
    | none => .error (errorf .postgresServer
        (": unexpected max_slot_wal_keep_size setting " ++ quote setting))
    | some value =>
      if value < 0 then .ok (0, true)
      else
        match walKeepSizeUnitMultipliers unit with
        | none => .error (errorf .postgresServer
            (": unexpected max_slot_wal_keep_size unit " ++ quote unit))
        | some multiplier => .ok (mulInt64 value multiplier, false)

namespace Reader

/-! ## Samples at the budget -/

/-- The sample finds the budget used up. -/
def Label.AtBudget (config : FullReaderConfig) : Label → Prop
  | .sample (.ok (some (some retained))) (.ok (serverBytes, unbounded)) =>
    0 < effectiveRetentionBudget config.maxRetainedWALBytes serverBytes unbounded ∧
      effectiveRetentionBudget config.maxRetainedWALBytes serverBytes unbounded ≤ retained
  | _ => False

instance (config : FullReaderConfig) : (l : Label) → Decidable (l.AtBudget config)
  | .sample (.ok (some (some retained))) (.ok (serverBytes, unbounded)) =>
    inferInstanceAs (Decidable (0 < effectiveRetentionBudget config.maxRetainedWALBytes serverBytes
      unbounded ∧
        effectiveRetentionBudget config.maxRetainedWALBytes serverBytes unbounded ≤ retained))
  | .sample (.error _) _ | .sample (.ok none) _ | .sample (.ok (some none)) _
  | .sample (.ok (some (some _))) (.error _) | .cancel | .connect _ | .receive .. | .next | .wait _
  | .drop _ => .isFalse id

/-- The state becomes terminal at the budget, and only there. -/
theorem nextRetentionState_terminal_iff (t : Thresholds) {c : RetentionState}
    {retained budget : Int}
    (hc : c ≠ .terminal) :
    nextRetentionState c retained budget t.warn t.degrade = .terminal ↔
      0 < budget ∧ budget ≤ retained := by
  by_cases hbudget : 0 < budget
  · by_cases hretained : 0 ≤ retained
    · rw [t.nextRetentionState_eq_terminal_iff c hretained hbudget]
      simp only [hc, false_or, hbudget, true_and]
    · have hstay : nextRetentionState c retained budget t.warn t.degrade = c :=
        if_pos (.inr (.inl (not_le.1 hretained)))
      rw [hstay]
      constructor
      · exact fun h => absurd h hc
      · rintro ⟨-, hle⟩
        omega
  · have hstay : nextRetentionState c retained budget t.warn t.degrade = c :=
      if_pos (.inl (not_lt.1 hbudget))
    rw [hstay]
    exact ⟨fun h => absurd h hc, fun h => absurd h.1 hbudget⟩

/-- A sample makes the state terminal exactly when it finds the budget used up. -/
theorem sampleRetention_terminal_iff {config : FullReaderConfig} (hconfig : config.Admitted)
    {c n : RetentionState} {stop : Option GoError} (hc : c ≠ .terminal)
    {slot : Except GoError (Option (Option Int))} {keepSize : Except GoError (Int × Bool)}
    (h : sampleRetention config c slot keepSize = .ok (n, stop)) :
    n = .terminal ↔ (Label.sample slot keepSize).AtBudget config := by
  rcases slot with err | _ | _ | retained
  · cases h
  · cases h
  · rcases keepSize with err | ⟨serverBytes, unbounded⟩
    · cases h
    · cases h
      exact ⟨fun h => absurd h hc, False.elim⟩
  · rcases keepSize with err | ⟨serverBytes, unbounded⟩
    · cases h
    · have happly : applyRetentionPolicy config c retained
          (effectiveRetentionBudget config.maxRetainedWALBytes serverBytes unbounded) = (n, stop) :=
        Except.ok.inj h
      have hnext := applyRetentionPolicy_fst config c retained
        (effectiveRetentionBudget config.maxRetainedWALBytes serverBytes unbounded)
      rw [happly] at hnext
      dsimp only at hnext
      rw [hnext]
      exact nextRetentionState_terminal_iff hconfig.thresholdsOf hc

section

variable {σ : Type} {sink : σ → Transaction → σ × Option GoError}

theorem State.Steps.config_eq {s s' : State σ} {l : Label} (h : s.Steps l s') :
    s'.config = s.config := by
  cases h <;> rfl

theorem admitted {ok : State σ → Label → Prop} {s : State σ} (h : Reaches (machine sink) ok s) :
    s.config.Admitted := by
  induction h with
  | init h => exact (fresh h).admitted
  | step _ _ hs ih =>
    rw [(State.step_cases hs).config_eq]
    exact ih

/-- No sample finds the budget used up. -/
def withinBudget (s : State σ) (l : Label) : Prop := ¬l.AtBudget s.config

instance (s : State σ) (l : Label) : Decidable (withinBudget s l) := instDecidableNot

theorem State.afterRead_dropping {s : State σ} {err : Option GoError} {accepted : Nat}
    (h : (s.afterRead err accepted).phase = .dropping) : s.stopped.isSome = true := by
  by_contra hstopped
  unfold State.afterRead at h
  dsimp only at h
  rw [if_neg hstopped] at h
  split at h
  · cases h
  · cases err with
    | none => cases h
    | some err =>
      dsimp only at h
      split at h
      · cases h
      · split at h
        · cases h
        · cases h

/-- `Run` drops the slot only once the stream is stopped. -/
theorem State.stopped_of_dropping {s s' : State σ} {l : Label} (h : s.step sink l = some s')
    (hdropping : s'.phase = .dropping) : s.phase = .dropping ∨ s.stopped.isSome = true := by
  cases l with
  | cancel =>
    cases h
    exact .inl hdropping
  | sample slot keepSize =>
    simp only [State.step] at h
    split at h <;> cases h <;> exact .inl hdropping
  | connect | receive =>
    cases State.step_cases h with
    | reads _ _ hnext =>
      dsimp only at hdropping
      rw [hdropping] at hnext
      exact hnext.elim
  | next =>
    simp only [State.step] at h
    split at h
    · cases h
      exact .inr (State.afterRead_dropping hdropping)
    · cases h
  | wait fired =>
    simp only [State.step] at h
    split at h
    · split_ifs at h with hfired hcancelled hstopped
      · cases h
        cases hdropping
      · cases h
        cases hdropping
      · exact .inr hstopped
    · cases h
  | drop err =>
    simp only [State.step] at h
    split at h
    · cases h
      cases hdropping
    · cases h

theorem stopped_eq_none {s : State σ} (h : Reaches (machine sink) withinBudget s) :
    s.stopped = none := by
  have hkept : s.retention ≠ .terminal := by
    induction h with
    | init h =>
      rw [(fresh h).retention]
      decide
    | step hreach hok hs ih =>
      cases State.step_cases hs with
      | samples hsample =>
        have hiff := sampleRetention_terminal_iff (admitted hreach) ih hsample
        exact fun hterminal => hok (hiff.1 hterminal)
      | _ => exact ih
  rw [stopped_eq h]
  cases hstate : s.retention with
  | terminal => exact absurd hstate hkept
  | ok | warn | degrade => rfl

/-- What is left of `Run` once the stream is stopped: it may see one connection more end. -/
def Phase.Ending (ended more : Nat) (cancelled : Bool) : Phase → Prop
  | .connecting | .streaming .. | .ended .. | .waiting => more ≤ ended
  | .dropping => more ≤ ended + 1
  | .returned err => more ≤ ended + 1 ∧ (err = none ∧ cancelled = true ∨
      ∃ e, err = some e ∧ e.is .retainedWALBudgetExceeded = true)

/-- The reader was stopped for the budget when `ended` connections had ended, and has counted no
retry since. -/
structure Ending (ended attempts : Nat) (s : State σ) : Prop where
  stopped : s.stopped = some (.sentinel .retainedWALBudgetExceeded)
  attempts : s.attempts = attempts
  phase : s.phase.Ending ended s.connections.length s.cancelled

theorem Phase.Reading.ending_iff {ended more : Nat} {cancelled : Bool} {phase : Phase}
    (h : phase.Reading) : phase.Ending ended more cancelled ↔ more ≤ ended := by
  cases phase with
  | connecting | streaming | ended => rfl
  | waiting | dropping | returned => exact h.elim

theorem Phase.ending_of_running {more : Nat} {cancelled : Bool} {phase : Phase}
    (h : ∀ err, phase ≠ .returned err) : phase.Ending more more cancelled := by
  cases phase with
  | connecting | streaming | ended | waiting => exact Nat.le_refl more
  | dropping => exact Nat.le_succ more
  | returned err => exact absurd rfl (h err)

theorem Phase.Ending.cancelled {ended more : Nat} {cancelled : Bool} {phase : Phase}
    (h : phase.Ending ended more cancelled) : phase.Ending ended more true := by
  cases phase with
  | returned err => exact ⟨h.1, h.2.imp (fun h => ⟨h.1, rfl⟩) id⟩
  | connecting | streaming | ended | waiting | dropping => exact h

theorem Phase.Ending.length_le {ended more : Nat} {cancelled : Bool} {phase : Phase}
    (h : phase.Ending ended more cancelled) : more ≤ ended + 1 := by
  cases phase with
  | connecting | streaming | ended | waiting => exact Nat.le_succ_of_le h
  | dropping => exact h
  | returned => exact h.1

theorem Ending.step {ended attempts : Nat} {s s' : State σ} {l : Label}
    (h : Ending ended attempts s)
    (hs : s.step sink l = some s') : Ending ended attempts s' := by
  have hsome : s.stopped.isSome = true := by rw [h.stopped]; rfl
  cases l with
  | cancel =>
    cases hs
    exact ⟨h.stopped, h.attempts, h.phase.cancelled⟩
  | sample slot keepSize =>
    simp only [State.step] at hs
    split at hs
    · cases hs
      exact h
    · cases hs
      exact ⟨by rw [h.stopped]; rfl, h.attempts, h.phase⟩
  | connect | receive =>
    cases State.step_cases hs with
    | reads _ hphase hnext =>
      exact ⟨h.stopped, h.attempts, hnext.ending_iff.2 (hphase.ending_iff.1 h.phase)⟩
  | next =>
    simp only [State.step] at hs
    split at hs
    · next err accepted hphase =>
      cases hs
      have hcount := h.phase
      rw [hphase] at hcount
      have hmore : (s.connections ++ [accepted]).length ≤ ended + 1 := by
        rw [List.length_append, List.length_singleton]
        exact Nat.succ_le_succ hcount
      unfold State.afterRead
      dsimp only
      split
      · next hcancelled => exact ⟨h.stopped, h.attempts, hmore, .inl ⟨rfl, hcancelled⟩⟩
      · exact ⟨h.stopped, h.attempts, hmore⟩
    · cases hs
  | wait fired =>
    simp only [State.step] at hs
    split at hs
    · next hphase =>
      have hcount := h.phase
      rw [hphase] at hcount
      split_ifs at hs with hfired hcancelled
      · cases hs
        exact ⟨h.stopped, h.attempts, hcount⟩
      · cases hs
        exact ⟨h.stopped, h.attempts, Nat.le_succ_of_le hcount, .inl ⟨rfl, hcancelled⟩⟩
      · cases hs
        exact ⟨h.stopped, h.attempts, Nat.le_succ_of_le hcount⟩
    · cases hs
  | drop err =>
    simp only [State.step] at hs
    split at hs
    · next hphase =>
      cases hs
      have hcount := h.phase
      rw [hphase] at hcount
      refine ⟨h.stopped, h.attempts, hcount, .inr ⟨_, rfl, ?_⟩⟩
      unfold State.budgetExceeded
      rw [h.stopped]
      cases err <;> rfl
    · cases hs

theorem Label.AtBudget.eq_sample {config : FullReaderConfig} {l : Label} (h : l.AtBudget config) :
    ∃ retained keepSize, l = .sample (.ok (some (some retained))) (.ok keepSize) := by
  cases l with
  | sample slot keepSize =>
    rcases slot with err | _ | _ | retained
    · exact h.elim
    · exact h.elim
    · exact h.elim
    · rcases keepSize with err | keepSize
      · exact h.elim
      · exact ⟨retained, keepSize, rfl⟩
  | cancel | connect | receive | next | wait | drop => exact h.elim

/-- A sample at the budget stops the stream, and changes nothing that `Run` looks at but that. -/
theorem ending_of_atBudget {s s' : State σ} {l : Label} (h : Reaches (machine sink) anyStep s)
    (hrunning : ∀ err, s.phase ≠ .returned err) (hat : l.AtBudget s.config)
    (hs : s.step sink l = some s') : Ending s.connections.length s.attempts s' := by
  have hstopped : s'.stopped = s'.retention.cause := stopped_eq (.step h trivial hs)
  obtain ⟨retained, keepSize, rfl⟩ := hat.eq_sample
  simp only [State.step] at hs
  split at hs
  · next herr => cases herr
  · next hsample =>
    cases hs
    refine ⟨?_, rfl, Phase.ending_of_running hrunning⟩
    by_cases hc : s.retention = .terminal
    · dsimp only
      rw [stopped_eq h, hc]
      rfl
    · rw [hstopped]
      dsimp only
      rw [(sampleRetention_terminal_iff (admitted h) hc hsample).2 hat]
      rfl

end

namespace Demo

/-- The reader once all of its gibibyte is used up. -/
def stopped : State Nat :=
  { start with retention := .terminal, stopped := some (.sentinel .retainedWALBudgetExceeded) }

theorem start_retains : start.step accepts (retains (2 ^ 30)) = some stopped := by
  have hsample : sampleRetention start.config start.retention (.ok (some (some (2 ^ 30))))
      (.ok (0, true)) = .ok (.terminal, some (.sentinel .retainedWALBudgetExceeded)) := by
    decide +kernel
  simp only [retains, State.step, hsample]
  rfl

end Demo

end Reader

end Watchd.Cdc
