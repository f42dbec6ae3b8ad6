import Mathlib.Logic.Basic

/-!
# Labelled machines and their runs

A machine takes one labelled step at a time; a label that is not enabled gives
`none`.  `Reaches` collects the states of every run whose steps all meet a
condition `ok`, so that "in every run" and "in every run that keeps to a
discipline" are one notion.  Concrete runs are replayed by `runWhile`, which
computes.

`Reaches.invariant` is the induction every result about runs goes through.
-/

namespace Watchd.Lib

/-- A machine: its initial states and its partial step function. -/
structure Machine (σ ℓ : Type*) where
  init : σ → Prop
  step : σ → ℓ → Option σ

variable {σ ℓ : Type*} {m : Machine σ ℓ} {ok ok' : σ → ℓ → Prop}

/-- The states reached by the runs of `m` every step of which meets `ok`. -/
inductive Reaches (m : Machine σ ℓ) (ok : σ → ℓ → Prop) : σ → Prop
  | init {s : σ} (h : m.init s) : Reaches m ok s
  | step {s s' : σ} {l : ℓ} (h : Reaches m ok s) (hok : ok s l) (hs : m.step s l = some s') :
      Reaches m ok s'

/-- The condition every step meets. -/
def anyStep (_ : σ) (_ : ℓ) : Prop := True

instance (s : σ) (l : ℓ) : Decidable (anyStep s l) := .isTrue trivial

namespace Reaches

/-- **The invariant rule.**  A property of the initial states that every allowed step from a
reached state preserves holds of every reached state. -/
theorem invariant {I : σ → Prop} (hinit : ∀ s, m.init s → I s)
    (hstep : ∀ s l s', Reaches m ok s → I s → ok s l → m.step s l = some s' → I s')
    {s : σ} (h : Reaches m ok s) : I s := by
  induction h with
  | init h => exact hinit _ h
  | step h hok hs ih => exact hstep _ _ _ h ih hok hs

/-- Runs that keep to a condition keep to every weaker one. -/
theorem mono (himp : ∀ s l, ok s l → ok' s l) {s : σ} (h : Reaches m ok s) :
    Reaches m ok' s := by
  induction h with
  | init h => exact .init h
  | step _ hok hs ih => exact .step ih (himp _ _ hok) hs

end Reaches

/-- Replay a list of labels, giving up at a label that is not enabled or not allowed. -/
def runWhile (m : Machine σ ℓ) (ok : σ → ℓ → Prop) [∀ s l, Decidable (ok s l)] :
    σ → List ℓ → Option σ
  | s, [] => some s
  | s, l :: ls => if ok s l then (m.step s l).bind (runWhile m ok · ls) else none

/-- What a replay arrives at is reached. -/
theorem Reaches.of_runWhile [∀ s l, Decidable (ok s l)] {ls : List ℓ} :
    ∀ {s s' : σ}, Reaches m ok s → runWhile m ok s ls = some s' → Reaches m ok s' := by
  induction ls with
  | nil =>
    intro s s' h hr
    cases hr
    exact h
  | cons l ls ih =>
    intro s s' h hr
    unfold runWhile at hr
    split at hr
    · next hok =>
      obtain ⟨t, ht, hrest⟩ := Option.bind_eq_some_iff.mp hr
      exact ih (.step h hok ht) hrest
    · cases hr

end Watchd.Lib
