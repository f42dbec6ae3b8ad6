import Mathlib.Data.List.Basic

/-!
# Replaying writes

A step that overwrites what a reading shows, whatever it showed, or leaves it as
it was, may be repeated without harm, and so may a list of such steps: read
together, they overwrite or keep as one step does.

`SetsOrKeeps.again` states it.
-/

namespace Watchd.Lib

variable {σ α ι : Type*} {get : σ → α} {f g : σ → σ}

/-- The step sets what `get` reads to one value, or keeps it. -/
def SetsOrKeeps (get : σ → α) (f : σ → σ) : Prop :=
  (∃ v, ∀ s, get (f s) = v) ∨ ∀ s, get (f s) = get s

namespace SetsOrKeeps

theorem andThen (hf : SetsOrKeeps get f) (hg : SetsOrKeeps get g) :
    SetsOrKeeps get fun s => g (f s) := by
  rcases hg with ⟨v, hv⟩ | hkeep
  · exact .inl ⟨v, fun s => hv (f s)⟩
  · rcases hf with ⟨v, hv⟩ | hkeep'
    · exact .inl ⟨v, fun s => (hkeep (f s)).trans (hv s)⟩
    · exact .inr fun s => (hkeep (f s)).trans (hkeep' s)

theorem foldl {step : σ → ι → σ} {is : List ι}
    (h : ∀ i ∈ is, SetsOrKeeps get fun s => step s i) :
    SetsOrKeeps get fun s => is.foldl step s := by
  induction is with
  | nil => exact .inr fun _ => rfl
  | cons i is ih =>
    rw [List.forall_mem_cons] at h
    exact h.1.andThen (ih h.2)

/-- **Once more makes no difference.** -/
theorem again (h : SetsOrKeeps get f) (s : σ) : get (f (f s)) = get (f s) := by
  rcases h with ⟨v, hv⟩ | hkeep
  · rw [hv, hv]
  · rw [hkeep]

end SetsOrKeeps

end Watchd.Lib
