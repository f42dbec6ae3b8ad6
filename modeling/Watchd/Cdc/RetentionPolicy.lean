import Watchd.Cdc.Config
import Watchd.Lib.History
import Watchd.Lib.Hysteresis

/-!
# The retention policy

The WAL that PostgreSQL retains for the slot is sampled against a budget.  The
state rises as soon as the ratio reaches a threshold and falls, one state at a
time, once the ratio is a fixed hysteresis below the threshold of the state that
is left; at the budget itself the state is terminal.  Ratios and thresholds are
exact.

* `retention_steady`: the policy is monotone in the ratio, terminal for good, and
  does not flap within the hysteresis;
* `retention_recovers_iff`: it comes back to ok from everywhere but terminal
  exactly if the warn threshold is above the hysteresis.
-/

namespace Watchd.Cdc

open Watchd.Lib

/-! ## The policy -/

/-- The states of the retention policy. -/
inductive RetentionState
  | ok
  | warn
  | degrade
  | terminal
  deriving Repr

namespace RetentionState

/-- The order in which the source declares them. -/
def number : RetentionState → Nat
  | .ok => 0
  | .warn => 1
  | .degrade => 2
  | .terminal => 3

theorem number_injective : Function.Injective number := by
  intro s s' h
  cases s <;> cases s' <;> first | rfl | cases h

instance : LinearOrder RetentionState := LinearOrder.lift' number number_injective

instance : BoundedOrder RetentionState where
  top := .terminal
  le_top s := by cases s <;> decide
  bot := .ok
  bot_le s := by cases s <;> decide

/-- The state under a state. -/
def below : RetentionState → RetentionState
  | .ok => .ok
  | .warn => .ok
  | .degrade => .warn
  | .terminal => .degrade

end RetentionState

/-- How far below a threshold the ratio has to fall before its state is left. -/
def retentionHysteresis : ℚ := 5 / 100

/-- The loop of `nextRetentionState`.  Every turn goes one state down, so there are at most as many
turns as states below `current`. -/
def fallTo (ratio warn degrade : ℚ) (target : RetentionState) : Nat → RetentionState →
    RetentionState
  | 0, current => current
  | turns + 1, current =>
    if current > target then
      let threshold := if current = .degrade then degrade else warn
      if ratio ≥ threshold - retentionHysteresis then current
      else fallTo ratio warn degrade target turns current.below
    else current

/-- One sample: up at a threshold, down only below it by the hysteresis, out of terminal never. -/
def nextRetentionState (current : RetentionState) (retained budget : Int) (warn degrade : ℚ) :
    RetentionState :=
  if budget ≤ 0 ∨ retained < 0 ∨ current = .terminal then current
  else
    let ratio : ℚ := retained / budget
    if ratio ≥ 1 then .terminal
    else
      let target :=
        if ratio ≥ degrade then .degrade else if ratio ≥ warn then .warn else .ok
      max (fallTo ratio warn degrade target current.number current) target

/-- The state after one sample, and what `stopStream` is called with, if it is. -/
def applyRetentionPolicy (config : FullReaderConfig) (current : RetentionState)
    (retained budget : Int) : RetentionState × Option GoError :=
  let next := nextRetentionState current retained budget config.retentionWarnFraction
    config.retentionDegradeFraction
  if next = current then (current, none)
  else (next, if next = .terminal then some (.sentinel .retainedWALBudgetExceeded) else none)

/-- The stricter of the configured budget and the server's. -/
def effectiveRetentionBudget (configuredBytes serverBytes : Int) (serverUnbounded : Bool) : Int :=
  if serverUnbounded ∨ serverBytes ≥ configuredBytes then configuredBytes else serverBytes

/-- One sample: the slot's row, with the bytes retained unless the slot is invalidated, and the
server's `max_slot_wal_keep_size`. -/
def sampleRetention (config : FullReaderConfig) (current : RetentionState)
    (slot : Except GoError (Option (Option Int))) (keepSize : Except GoError (Int × Bool)) :
    Except GoError (RetentionState × Option GoError) :=
  match slot with
  | .error err => .error err
  | .ok none => .error (.sentinel .slotNotFound)
  | .ok (some retained) =>
    match keepSize with
    | .error err => .error err
    | .ok (serverBytes, unbounded) =>
      let budget := effectiveRetentionBudget config.maxRetainedWALBytes serverBytes unbounded
      match retained with
      | none => .ok (current, none)
      | some retained => .ok (applyRetentionPolicy config current retained budget)

/-- What the stream has been stopped with in a state, if it has. -/
def RetentionState.cause : RetentionState → Option GoError
  | .terminal => some (.sentinel .retainedWALBudgetExceeded)
  | _ => none

/-- The policy over a sequence of samples, each with the bytes retained and the budget. -/
def retentionMachine (warn degrade : ℚ) : Machine RetentionState (Int × Int) where
  init c := c = .ok
  step c sample := some (nextRetentionState c sample.1 sample.2 warn degrade)

section Stop

variable {config : FullReaderConfig} {c n : RetentionState} {stop : Option GoError}
  {slot : Except GoError (Option (Option Int))} {keepSize : Except GoError (Int × Bool)}

theorem applyRetentionPolicy_fst (config : FullReaderConfig) (c : RetentionState)
    (retained budget : Int) :
    (applyRetentionPolicy config c retained budget).1 =
      nextRetentionState c retained budget config.retentionWarnFraction
        config.retentionDegradeFraction := by
  unfold applyRetentionPolicy
  dsimp only
  split
  · next h => exact h.symm
  · rfl

/-- Entering `terminal` stops the stream, and nothing else does. -/
theorem applyRetentionPolicy_cause (config : FullReaderConfig) (c : RetentionState)
    (retained budget : Int) :
    (c.cause <|> (applyRetentionPolicy config c retained budget).2) =
      (applyRetentionPolicy config c retained budget).1.cause := by
  unfold applyRetentionPolicy
  dsimp only
  split
  · cases c <;> rfl
  · next hne =>
    have hc : c ≠ .terminal := by
      rintro rfl
      exact hne (if_pos (.inr (.inr rfl)))
    have hcause : c.cause = none := by
      cases c with
      | terminal => exact (hc rfl).elim
      | ok | warn | degrade => rfl
    rw [hcause]
    generalize nextRetentionState c retained budget _ _ = next
    cases next <;> rfl

/-- A sample that does not fail is one of the policy, unless the slot is invalidated. -/
theorem sampleRetention_eq_ok (h : sampleRetention config c slot keepSize = .ok (n, stop)) :
    (n = c ∧ stop = none) ∨
      ∃ retained budget, (n, stop) = applyRetentionPolicy config c retained budget := by
  unfold sampleRetention at h
  split at h
  · cases h
  · cases h
  · split at h
    · cases h
    · dsimp only at h
      split at h
      · cases h
        exact .inl ⟨rfl, rfl⟩
      · exact .inr ⟨_, _, (Except.ok.inj h).symm⟩

theorem sampleRetention_cause (h : sampleRetention config c slot keepSize = .ok (n, stop)) :
    (c.cause <|> stop) = n.cause := by
  obtain ⟨rfl, rfl⟩ | ⟨retained, budget, happly⟩ := sampleRetention_eq_ok h
  · cases n <;> rfl
  · have hcause := applyRetentionPolicy_cause config c retained budget
    rw [← happly] at hcause
    exact hcause

/-- A sample that does not fail takes the policy one step further, or leaves it where it is. -/
theorem sampleRetention_next (h : sampleRetention config c slot keepSize = .ok (n, stop)) :
    n = c ∨ ∃ sample, (retentionMachine config.retentionWarnFraction
      config.retentionDegradeFraction).step c sample = some n := by
  obtain ⟨hn, -⟩ | ⟨retained, budget, happly⟩ := sampleRetention_eq_ok h
  · exact .inl hn
  · have hnext := applyRetentionPolicy_fst config c retained budget
    rw [← happly] at hnext
    exact .inr ⟨(retained, budget), congrArg some hnext.symm⟩

end Stop

/-! ## Thresholds -/

/-- A pair of thresholds as `validateReaderConfig` admits it. -/
structure Thresholds where
  warn : ℚ
  degrade : ℚ
  warn_pos : 0 < warn
  warn_lt : warn < degrade
  degrade_lt : degrade < 1

/-- The thresholds of an admitted configuration. -/
def FullReaderConfig.Admitted.thresholdsOf {config : FullReaderConfig} (h : config.Admitted) :
    Thresholds :=
  ⟨config.retentionWarnFraction, config.retentionDegradeFraction, h.thresholds.1, h.thresholds.2.1,
    h.thresholds.2.2⟩

namespace Thresholds

variable (t : Thresholds) {x y : ℚ} {s c : RetentionState}

/-- The ratio has reached the threshold of a state. -/
def Entered (x : ℚ) : RetentionState → Prop
  | .ok => True
  | .warn => t.warn ≤ x
  | .degrade => t.degrade ≤ x
  | .terminal => 1 ≤ x

/-- The ratio is not yet below where a state is left. -/
def Held (x : ℚ) : RetentionState → Prop
  | .ok => True
  | .warn => t.warn - retentionHysteresis ≤ x
  | .degrade => t.degrade - retentionHysteresis ≤ x
  | .terminal => True

/-- The highest state whose threshold is reached. -/
def rise (x : ℚ) : RetentionState :=
  if x ≥ 1 then .terminal else if x ≥ t.degrade then .degrade else if x ≥ t.warn then .warn else .ok

variable {t}

theorem entered_rise (t : Thresholds) (x : ℚ) : t.Entered x (t.rise x) := by
  unfold rise
  split
  · next h => exact h
  · split
    · next h => exact h
    · split
      · next h => exact h
      · trivial

theorem le_rise (h : t.Entered x s) : s ≤ t.rise x := by
  unfold rise
  cases s with
  | ok => exact bot_le
  | warn =>
    have hx : x ≥ t.warn := h
    split
    · exact le_top
    · split
      · decide
      · exact le_refl _
  | degrade =>
    have hx : x ≥ t.degrade := h
    split
    · exact le_top
    · exact le_refl _
  | terminal =>
    have hx : x ≥ 1 := h
    rw [if_pos hx]

theorem Entered.mono (h : t.Entered x s) (hxy : x ≤ y) : t.Entered y s := by
  cases s with
  | ok => trivial
  | warn => exact le_trans h hxy
  | degrade => exact le_trans h hxy
  | terminal => exact le_trans h hxy

theorem Held.mono (h : t.Held x s) (hxy : x ≤ y) : t.Held y s := by
  cases s with
  | ok => trivial
  | warn => exact le_trans h hxy
  | degrade => exact le_trans h hxy
  | terminal => trivial

/-- A state that was entered at `x` is held until the ratio is more than the hysteresis below. -/
theorem Entered.held (h : t.Entered x s) (hxy : x - retentionHysteresis ≤ y) : t.Held y s := by
  cases s with
  | ok => trivial
  | warn => exact (sub_le_sub_right h _).trans hxy
  | degrade => exact (sub_le_sub_right h _).trans hxy
  | terminal => trivial

theorem retentionHysteresis_pos : 0 < retentionHysteresis := by
  norm_num [retentionHysteresis]

/-- What the policy is for, over the ratios. -/
def policy (t : Thresholds) : Hysteresis ℚ RetentionState where
  rise := t.rise
  Held := t.Held
  rise_mono x _ hxy := le_rise ((t.entered_rise x).mono hxy)
  held_mono _ hxy h := h.mono hxy
  held_rise x := (t.entered_rise x).held (sub_le_self x retentionHysteresis_pos.le)

/-! ## The code follows the policy -/

theorem below_le (c : RetentionState) : c.below ≤ c := by
  cases c <;> decide

theorem le_below_of_lt (h : s < c) : s ≤ c.below := by
  revert h
  cases s <;> cases c <;> decide

theorem number_below_lt (h : s < c) : c.below.number < c.number := by
  revert h
  cases s <;> cases c <;> decide

/-- The check of the loop, in a state that can be fallen from. -/
theorem held_iff (h : s < c) (hc : c ≠ .terminal) :
    x ≥ (if c = .degrade then t.degrade else t.warn) - retentionHysteresis ↔ t.Held x c := by
  cases c with
  | ok => exact absurd h not_lt_bot
  | warn => rfl
  | degrade => rfl
  | terminal => exact absurd rfl hc

/-- The loop falls to the next state that is held, and no lower than what the ratio calls for. -/
theorem fallTo_next {turns : Nat} (hturns : c.number ≤ turns) (hc : c ≠ .terminal) :
    t.policy.Next c x (max (fallTo x t.warn t.degrade (t.rise x) turns c) (t.rise x)) := by
  have hstay : ∀ c, c ≤ t.rise x → t.policy.Next c x (max c (t.rise x)) := by
    intro c hle
    rw [max_eq_right hle]
    exact .of_le_rise hle
  induction turns generalizing c with
  | zero =>
    have hok : c = .ok := by
      cases c with
      | ok => rfl
      | _ => cases hturns
    exact hstay c (hok ▸ bot_le)
  | succ turns ih =>
    unfold fallTo
    split
    · next hlt =>
      dsimp only
      by_cases hheld : x ≥ (if c = .degrade then t.degrade else t.warn) - retentionHysteresis
      · rw [if_pos hheld, max_eq_left hlt.le]
        exact .of_held hlt.le ((held_iff hlt hc).1 hheld)
      · rw [if_neg hheld]
        have hnumber := number_below_lt hlt
        have hbelow : c.below ≠ .terminal := by
          cases c <;> decide
        have hnot : ¬t.policy.Held x c := fun h => hheld ((held_iff hlt hc).2 h)
        exact (ih (by omega) hbelow).of_not_held (below_le c) (fun s hs => le_below_of_lt hs) hnot
    · next hle => exact hstay c (not_lt.1 hle)

/-- One sample follows the policy. -/
theorem nextRetentionState_next (t : Thresholds) (c : RetentionState) {retained budget : Int}
    (hretained : 0 ≤ retained) (hbudget : 0 < budget) :
    t.policy.Next c (retained / budget)
      (nextRetentionState c retained budget t.warn t.degrade) := by
  unfold nextRetentionState
  split
  · next h =>
    obtain rfl : c = .terminal := by
      rcases h with h | h | h
      · omega
      · omega
      · exact h
    exact .of_held le_top trivial
  · next h =>
    dsimp only
    have hc : c ≠ .terminal := fun heq => h (.inr (.inr heq))
    split
    · next hfull =>
      have hrise : t.rise (retained / budget) = .terminal := if_pos hfull
      have hle : c ≤ t.rise (retained / budget) := by
        rw [hrise]
        exact le_top
      rw [← hrise]
      exact .of_le_rise hle
    · next hbelow =>
      have hrise : t.rise (retained / budget) =
          if (retained / budget : ℚ) ≥ t.degrade then .degrade
          else if (retained / budget : ℚ) ≥ t.warn then .warn else .ok := if_neg hbelow
      rw [← hrise]
      exact fallTo_next (le_refl _) hc

/-! ## What follows for the samples -/

section Samples

variable {retained retained' budget : Int}

theorem nextRetentionState_mono (t : Thresholds) {c c' : RetentionState} (hc : c ≤ c')
    (hretained : 0 ≤ retained) (hle : retained ≤ retained') (hbudget : 0 < budget) :
    nextRetentionState c retained budget t.warn t.degrade ≤
      nextRetentionState c' retained' budget t.warn t.degrade := by
  have hpos : (0 : ℚ) ≤ budget := Int.cast_nonneg hbudget.le
  have hratio : (retained / budget : ℚ) ≤ retained' / budget :=
    div_le_div_of_nonneg_right (Int.cast_le.2 hle) hpos
  exact (t.nextRetentionState_next c hretained hbudget).mono
    (t.nextRetentionState_next c' (hretained.trans hle) hbudget) hc hratio

theorem rise_eq_terminal_iff : t.rise x = .terminal ↔ 1 ≤ x := by
  constructor
  · intro h
    have hentered := t.entered_rise x
    rw [h] at hentered
    exact hentered
  · intro h
    have hentered : t.Entered x .terminal := h
    exact top_le_iff.1 (le_rise hentered)

theorem nextRetentionState_eq_terminal_iff (t : Thresholds) (c : RetentionState)
    (hretained : 0 ≤ retained) (hbudget : 0 < budget) :
    nextRetentionState c retained budget t.warn t.degrade = .terminal ↔
      c = .terminal ∨ budget ≤ retained := by
  have hpos : (0 : ℚ) < budget := Int.cast_pos.2 hbudget
  have hfull : t.rise (retained / budget) = .terminal ↔ budget ≤ retained := by
    rw [rise_eq_terminal_iff, one_le_div₀ hpos, Int.cast_le]
  rw [← hfull]
  exact (t.nextRetentionState_next c hretained hbudget).eq_top_iff trivial

/-- A state that has risen holds while the ratio stays within the hysteresis. -/
theorem le_nextRetentionState (t : Thresholds) {c n : RetentionState} (hentered : t.Entered x n)
    (hn : n ≤ c) (hretained : 0 ≤ retained) (hbudget : 0 < budget)
    (hratio : x - retentionHysteresis ≤ retained / budget) :
    n ≤ nextRetentionState c retained budget t.warn t.degrade :=
  (t.nextRetentionState_next c hretained hbudget).keeps hn (hentered.held hratio)

theorem rise_zero (t : Thresholds) : t.rise 0 = .ok := by
  have hw := t.warn_pos
  have hwd := t.warn_lt
  have hentered := t.entered_rise 0
  cases hrise : t.rise 0 with
  | ok => rfl
  | warn =>
    rw [hrise] at hentered
    exact absurd hentered hw.not_ge
  | degrade =>
    rw [hrise] at hentered
    exact absurd hentered (hw.trans hwd).not_ge
  | terminal =>
    rw [hrise] at hentered
    exact absurd hentered zero_lt_one.not_ge

/-- With nothing retained, only a threshold above the hysteresis lets the state fall to the end. -/
theorem nextRetentionState_zero (t : Thresholds) (hc : c ≠ .terminal) (hbudget : 0 < budget) :
    nextRetentionState c 0 budget t.warn t.degrade = .ok ↔
      c = .ok ∨ retentionHysteresis < t.warn := by
  have hnext := t.nextRetentionState_next c (le_refl 0) hbudget
  rw [Int.cast_zero, zero_div] at hnext
  refine (hnext.eq_bot_iff t.rise_zero).trans ?_
  constructor
  · intro hall
    refine or_iff_not_imp_left.2 fun hok => ?_
    have hwarn : RetentionState.warn ≤ c := by
      revert hok
      cases c <;> decide
    by_contra hle
    have hheld : t.Held 0 .warn := sub_nonpos.2 (not_lt.1 hle)
    cases hall .warn hwarn hheld
  · rintro (rfl | hlt) s hs hheld
    · exact le_bot_iff.1 hs
    · have hwd := t.warn_lt
      cases s with
      | ok => rfl
      | warn => exact absurd (sub_nonpos.1 hheld) hlt.not_ge
      | degrade => exact absurd (sub_nonpos.1 hheld) (hlt.trans hwd).not_ge
      | terminal => exact absurd (top_le_iff.1 hs) hc

end Samples

end Thresholds

open Thresholds

/-- **The retention policy is monotone and does not flap.**  It rises with the bytes retained and
with the state, the same sample again changes nothing, the state becomes terminal at the budget and
stays so, and from a sample in which it rose it does not fall while every ratio stays at most the
hysteresis below that sample's, whatever the budgets of the later samples. -/
theorem retention_steady (t : Thresholds) {budget : Int} (hbudget : 0 < budget) :
    (∀ c c' retained retained', c ≤ c' → 0 ≤ retained → retained ≤ retained' →
      nextRetentionState c retained budget t.warn t.degrade ≤
        nextRetentionState c' retained' budget t.warn t.degrade) ∧
    (∀ c n retained, 0 ≤ retained → nextRetentionState c retained budget t.warn t.degrade = n →
      nextRetentionState n retained budget t.warn t.degrade = n ∧
      (n = .terminal ↔ c = .terminal ∨ budget ≤ retained) ∧
      (c < n → ∀ m, Reaches ((retentionMachine t.warn t.degrade).startedAt n)
        (fun _ later => 0 ≤ later.1 ∧ 0 < later.2 ∧
          (retained / budget : ℚ) - retentionHysteresis ≤ later.1 / later.2) m → n ≤ m)) := by
  refine ⟨fun c c' retained retained' hc hretained hle =>
    t.nextRetentionState_mono hc hretained hle hbudget, ?_⟩
  rintro c n retained hretained rfl
  have hnext := t.nextRetentionState_next c hretained hbudget
  refine ⟨hnext.again (t.nextRetentionState_next _ hretained hbudget),
    t.nextRetentionState_eq_terminal_iff c hretained hbudget, fun hlt m hm => ?_⟩
  -- the state it rose into is the one the ratio calls for
  have hentered : t.Entered (retained / budget)
      (nextRetentionState c retained budget t.warn t.degrade) := by
    rw [hnext.eq_rise hlt]
    exact t.entered_rise _
  refine hm.invariant ?_ ?_
  · rintro _ rfl
    exact le_refl _
  · rintro s later s' - hs ⟨hretained', hbudget', hratio⟩ hstep
    cases hstep
    exact t.le_nextRetentionState hentered hs hretained' hbudget' hratio

namespace Demo

/-- The default thresholds. -/
def thresholds : Thresholds where
  warn := defaultRetentionWarnFraction
  degrade := defaultRetentionDegradeFraction
  warn_pos := by norm_num [defaultRetentionWarnFraction]
  warn_lt := by norm_num [defaultRetentionWarnFraction, defaultRetentionDegradeFraction]
  degrade_lt := by norm_num [defaultRetentionDegradeFraction]

end Demo

/-- At 60 of 100 the state rises to warn; at 56 it is held, as it is after any samples from there
on. -/
theorem retention_steady_warn :
    ∃ n, nextRetentionState .ok 60 100 Demo.thresholds.warn Demo.thresholds.degrade = n ∧
      RetentionState.ok < n ∧
      n ≤ nextRetentionState n 56 100 Demo.thresholds.warn Demo.thresholds.degrade := by
  have hrises : RetentionState.ok <
      nextRetentionState .ok 60 100 Demo.thresholds.warn Demo.thresholds.degrade := by
    decide +kernel
  obtain ⟨-, hsteady⟩ := retention_steady Demo.thresholds (show (0 : Int) < 100 by decide)
  obtain ⟨-, -, hkeeps⟩ := hsteady .ok _ 60 (by decide) rfl
  refine ⟨_, rfl, hrises, hkeeps hrises _ (.step (l := (56, 100)) (.init rfl) ?_ rfl)⟩
  exact ⟨by decide, by decide, by norm_num [retentionHysteresis]⟩

/-- **The retention policy can recover if and only if the warn threshold is above the hysteresis.**
With the thresholds of an admitted configuration, a sample of nothing retained returns every state
that samples can lead to, short of the terminal one, to ok. -/
theorem retention_recovers_iff {config : FullReaderConfig}
    (hvalid : validateReaderConfig config true = .ok ()) :
    (∀ c budget, Reaches (retentionMachine config.retentionWarnFraction
        config.retentionDegradeFraction) anyStep c → c ≠ .terminal → 0 < budget →
      nextRetentionState c 0 budget config.retentionWarnFraction config.retentionDegradeFraction =
        .ok) ↔
    retentionHysteresis < config.retentionWarnFraction := by
  obtain ⟨t, hwarn, hdegrade⟩ : ∃ t : Thresholds, t.warn = config.retentionWarnFraction ∧
      t.degrade = config.retentionDegradeFraction :=
    ⟨(validateReaderConfig_eq_ok_iff.1 hvalid).thresholdsOf, rfl, rfl⟩
  rw [← hwarn, ← hdegrade]
  constructor
  · intro hall
    by_contra hle
    -- half of a budget is past such a threshold, and the state it leads to stays
    let c := nextRetentionState .ok 1 2 t.warn t.degrade
    have hentered : t.Entered ((1 : Int) / (2 : Int)) .warn := by
      have hhalf : retentionHysteresis ≤ ((1 : Int) / (2 : Int) : ℚ) := by
        norm_num [retentionHysteresis]
      exact (not_lt.1 hle).trans hhalf
    have hwarned : RetentionState.warn ≤ c :=
      (le_rise hentered).trans (t.nextRetentionState_next .ok (by decide) (by decide)).rise_le
    have hterminal : c ≠ .terminal := by
      intro hc
      rcases (t.nextRetentionState_eq_terminal_iff .ok (by decide) (by decide)).1 hc with h | h
      · cases h
      · cases h
    have hreach : Reaches (retentionMachine t.warn t.degrade) anyStep c :=
      .step (l := (1, 2)) (.init rfl) trivial rfl
    have hzero := hall c 2 hreach hterminal (by decide)
    rcases (t.nextRetentionState_zero hterminal (by decide)).1 hzero with hok | hlt
    · rw [hok] at hwarned
      exact absurd hwarned (by decide)
    · exact hle hlt
  · intro hlt c budget _ hterminal hbudget
    exact (t.nextRetentionState_zero hterminal hbudget).2 (.inr hlt)

namespace Demo

/-- A reader that leaves everything but the names to the defaults. -/
def defaults : FullReaderConfig := normalizeReaderConfig (namesOnly "main" "db" "slot" "pub")

/-- A reader that warns from a twenty-fifth of the budget on. -/
def early : FullReaderConfig :=
  { defaults with retentionWarnFraction := 1 / 25, retentionDegradeFraction := 1 / 2 }

end Demo

theorem retention_recovers_default :
    ∃ c, Reaches (retentionMachine Demo.defaults.retentionWarnFraction
        Demo.defaults.retentionDegradeFraction) anyStep c ∧ c = .degrade ∧
      nextRetentionState c 0 100 Demo.defaults.retentionWarnFraction
        Demo.defaults.retentionDegradeFraction = .ok := by
  have hvalid : validateReaderConfig Demo.defaults true = .ok () := by decide +kernel
  have habove : retentionHysteresis < Demo.defaults.retentionWarnFraction := by decide +kernel
  have hdegrade : nextRetentionState .ok 90 100 Demo.defaults.retentionWarnFraction
      Demo.defaults.retentionDegradeFraction = .degrade := by
    decide +kernel
  have hreach : Reaches (retentionMachine Demo.defaults.retentionWarnFraction
      Demo.defaults.retentionDegradeFraction) anyStep .degrade :=
    .step (l := (90, 100)) (.init rfl) trivial (congrArg some hdegrade)
  exact ⟨_, hreach, rfl,
    (retention_recovers_iff hvalid).2 habove _ 100 hreach (by decide) (by decide)⟩

/-- With the warn threshold within the hysteresis, the warning outlasts the WAL. -/
theorem retention_never_recovers :
    validateReaderConfig Demo.early true = .ok () ∧
      ∃ c, Reaches (retentionMachine Demo.early.retentionWarnFraction
          Demo.early.retentionDegradeFraction) anyStep c ∧ c ≠ .terminal ∧
        nextRetentionState c 0 100 Demo.early.retentionWarnFraction
          Demo.early.retentionDegradeFraction = .warn := by
  have hwarn : nextRetentionState .ok 10 100 Demo.early.retentionWarnFraction
      Demo.early.retentionDegradeFraction = .warn := by
    decide +kernel
  refine ⟨by decide +kernel, .warn, ?_, by decide, by decide +kernel⟩
  exact .step (l := (10, 100)) (.init rfl) trivial (congrArg some hwarn)

end Watchd.Cdc
