import Watchd.Lib.Transition

/-!
# A machine and its shadow

A machine whose every step is a step of another machine, or none, can be run with
the other beside it.  The shadow remembers what the machine itself forgets, so an
assumption about what was said so far can be stated of the shadow, and what holds
of the shadow's states holds of the machine's.

`exists_both` and `reaches_right` are the two directions.
-/

namespace Watchd.Lib

variable {σ τ ℓ κ : Type*} {m : Machine σ ℓ} {n : Machine τ κ}

/-- How `n` is run beside `m`, with the states that then belong together. -/
structure Shadowing (m : Machine σ ℓ) (n : Machine τ κ) where
  start : σ → τ
  /-- the step of `n` that a step of `m` is -/
  label : σ → ℓ → Option κ
  Rel : σ → τ → Prop
  init : ∀ s, m.init s → n.init (start s) ∧ Rel s (start s)
  stay : ∀ s l s' t, Rel s t → m.step s l = some s' → label s l = none → Rel s' t
  move : ∀ s l s' t k, Rel s t → m.step s l = some s' → label s l = some k →
    ∃ t', n.step t k = some t' ∧ Rel s' t'

namespace Shadowing

variable (S : Shadowing m n)

/-- Both machines, side by side. -/
def both : Machine (σ × τ) ℓ where
  init p := m.init p.1 ∧ p.2 = S.start p.1
  step p l := (m.step p.1 l).bind fun s' =>
    ((S.label p.1 l).elim (some p.2) (n.step p.2)).map fun t' => (s', t')

variable {S}

theorem both_step {p p' : σ × τ} {l : ℓ} (h : S.both.step p l = some p') :
    m.step p.1 l = some p'.1 ∧ (S.label p.1 l).elim (some p.2) (n.step p.2) = some p'.2 := by
  obtain ⟨s', hs, h⟩ := Option.bind_eq_some_iff.1 h
  obtain ⟨t', ht, rfl⟩ := Option.map_eq_some_iff.1 h
  exact ⟨hs, ht⟩

/-- The shadow can follow every step. -/
theorem exists_step {s s' : σ} {t : τ} {l : ℓ} (hrel : S.Rel s t) (hs : m.step s l = some s') :
    ∃ t', S.both.step (s, t) l = some (s', t') ∧ S.Rel s' t' := by
  cases hl : S.label s l with
  | none =>
    refine ⟨t, ?_, S.stay s l s' t hrel hs hl⟩
    simp only [both, hs, hl, Option.bind_some, Option.elim_none, Option.map_some]
  | some k =>
    obtain ⟨t', ht, hrel'⟩ := S.move s l s' t k hrel hs hl
    refine ⟨t', ?_, hrel'⟩
    simp only [both, hs, hl, Option.bind_some, Option.elim_some, ht, Option.map_some]

theorem rel {ok : σ × τ → ℓ → Prop} {p : σ × τ} (h : Reaches S.both ok p) : S.Rel p.1 p.2 := by
  induction h with
  | init h =>
    rw [h.2]
    exact (S.init _ h.1).2
  | @step p p' l _ _ hs ih =>
    obtain ⟨t', ht, hrel⟩ := exists_step ih (both_step hs).1
    have hp : (p'.1, t') = p' := Option.some.inj (ht.symm.trans hs)
    rw [← hp]
    exact hrel

/-- Every run of the machine is one with its shadow. -/
theorem exists_both {ok : σ → ℓ → Prop} {s : σ} (h : Reaches m ok s) :
    ∃ t, Reaches S.both (fun p l => ok p.1 l) (s, t) := by
  induction h with
  | @init s h => exact ⟨S.start s, .init ⟨h, rfl⟩⟩
  | step _ hok hs ih =>
    obtain ⟨t, ht⟩ := ih
    obtain ⟨t', hstep, -⟩ := exists_step (rel ht) hs
    exact ⟨t', .step ht hok hstep⟩

/-- The machine's part of a run. -/
theorem reaches_left {ok : σ × τ → ℓ → Prop} {p : σ × τ} (h : Reaches S.both ok p) :
    Reaches m anyStep p.1 := by
  induction h with
  | init h => exact .init h.1
  | step _ _ hs ih => exact .step ih trivial (both_step hs).1

/-- The shadow's part, which keeps to whatever is asked of its steps. -/
theorem reaches_right {ok : τ → κ → Prop} {p : σ × τ}
    (h : Reaches S.both (fun p l => ∀ k, S.label p.1 l = some k → ok p.2 k) p) :
    Reaches n ok p.2 := by
  induction h with
  | init h =>
    rw [h.2]
    exact .init (S.init _ h.1).1
  | @step p p' l _ hok hs ih =>
    have hs₂ := (both_step hs).2
    cases hl : S.label p.1 l with
    | none =>
      rw [hl] at hs₂
      rw [← Option.some.inj hs₂]
      exact ih
    | some k =>
      rw [hl] at hs₂
      exact .step ih (hok k hl) hs₂

end Shadowing

end Watchd.Lib
