import Watchd.Lib.Transition

/-!
# Runs from a state, and history variables

`Machine.startedAt` runs a machine from one state, for what holds from some
moment on.  `Machine.noting` adds a variable that the steps write and never
read: every run of the machine is one of the machine with the variable, and
forgetting the variable gives back a run of the machine.

These are `Reaches.exists_noting` and `Reaches.of_noting`.
-/

namespace Watchd.Lib

variable {σ γ ℓ : Type*} {m : Machine σ ℓ} {ok : σ → ℓ → Prop}

/-- The machine, started in `s`. -/
def Machine.startedAt (m : Machine σ ℓ) (s : σ) : Machine σ ℓ := ⟨(· = s), m.step⟩

/-- A run from a reached state is the rest of a run. -/
theorem Reaches.of_startedAt {s₀ s : σ} (h₀ : Reaches m ok s₀) (h : Reaches (m.startedAt s₀) ok s) :
    Reaches m ok s := by
  induction h with
  | init h => exact h ▸ h₀
  | step _ hok hs ih => exact .step ih hok hs

/-- The machine with a history variable: `note s l s' g` is its value after the step `l` from `s`
to `s'`. -/
def Machine.noting (m : Machine σ ℓ) (start : γ) (note : σ → ℓ → σ → γ → γ) :
    Machine (σ × γ) ℓ where
  init p := m.init p.1 ∧ p.2 = start
  step p l := (m.step p.1 l).map fun s' => (s', note p.1 l s' p.2)

section Noting

variable {start : γ} {note : σ → ℓ → σ → γ → γ}

theorem Machine.noting_step {p p' : σ × γ} {l : ℓ}
    (h : (m.noting start note).step p l = some p') :
    m.step p.1 l = some p'.1 ∧ p'.2 = note p.1 l p'.1 p.2 := by
  obtain ⟨s', hs, rfl⟩ := Option.map_eq_some_iff.1 h
  exact ⟨hs, rfl⟩

theorem Reaches.of_noting (ok : σ → ℓ → Prop) {p : σ × γ}
    (h : Reaches (m.noting start note) (fun p l => ok p.1 l) p) : Reaches m ok p.1 := by
  induction h with
  | init h => exact .init h.1
  | step _ hok hs ih => exact .step ih hok (Machine.noting_step hs).1

theorem Reaches.exists_noting (start : γ) (note : σ → ℓ → σ → γ → γ) {s : σ}
    (h : Reaches m ok s) :
    ∃ g, Reaches (m.noting start note) (fun p l => ok p.1 l) (s, g) := by
  induction h with
  | init h => exact ⟨start, .init ⟨h, rfl⟩⟩
  | @step s s' l _ hok hs ih =>
    obtain ⟨g, hg⟩ := ih
    exact ⟨note s l s' g, .step hg hok (by simp [Machine.noting, hs])⟩

end Noting

end Watchd.Lib
