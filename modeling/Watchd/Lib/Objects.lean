import Mathlib.Logic.Basic

/-!
# Objects and their refinement

An object answers one call after another.  An object refines another if whatever
it answers, the other answers too; a relation between their states that every
call keeps shows it.

`answers_of_simulation` is the rule.
-/

namespace Watchd.Lib

variable {σ τ κ ρ : Type*}

/-- What a state answers to a sequence of calls, and the state after it; `none` if one of them is
not answered. -/
def answers (call : σ → κ → Option (σ × ρ)) : σ → List κ → Option (σ × List ρ)
  | s, [] => some (s, [])
  | s, c :: cs =>
    (call s c).bind fun sr => (answers call sr.1 cs).map fun sa => (sa.1, sr.2 :: sa.2)

variable {call : σ → κ → Option (σ × ρ)} {call' : τ → κ → Option (τ × ρ)}

theorem answers_cons {s s' : σ} {c : κ} {cs : List κ} {rs : List ρ} :
    answers call s (c :: cs) = some (s', rs) ↔
      ∃ s₁ r rs', call s c = some (s₁, r) ∧ answers call s₁ cs = some (s', rs') ∧
        rs = r :: rs' := by
  simp only [answers, Option.bind_eq_some_iff, Option.map_eq_some_iff, Prod.exists, Prod.mk.injEq]
  constructor
  · rintro ⟨s₁, r, hcall, s₂, rs', hrest, rfl, rfl⟩
    exact ⟨s₁, r, rs', hcall, hrest, rfl⟩
  · rintro ⟨s₁, r, rs', hcall, hrest, rfl⟩
    exact ⟨s₁, r, hcall, s', rs', hrest, rfl, rfl⟩

/-- **The simulation rule.**  If related states answer each allowed call alike and stay related,
they answer every sequence of allowed calls alike. -/
theorem answers_of_simulation {R : σ → τ → Prop} {ok : κ → Prop}
    (hstep : ∀ s t c s' r, R s t → ok c → call s c = some (s', r) →
      ∃ t', call' t c = some (t', r) ∧ R s' t')
    {cs : List κ} (hok : ∀ c ∈ cs, ok c) {s s' : σ} {t : τ} {rs : List ρ} (hR : R s t)
    (h : answers call s cs = some (s', rs)) :
    ∃ t', answers call' t cs = some (t', rs) ∧ R s' t' := by
  induction cs generalizing s t rs with
  | nil =>
    cases h
    exact ⟨t, rfl, hR⟩
  | cons c cs ih =>
    obtain ⟨s₁, r, rs', hcall, hrest, rfl⟩ := answers_cons.1 h
    obtain ⟨t₁, hcall', hR₁⟩ := hstep s t c s₁ r hR (hok c (by simp)) hcall
    obtain ⟨t', hrest', hR'⟩ := ih (fun c hc => hok c (by simp [hc])) hR₁ hrest
    exact ⟨t', answers_cons.2 ⟨t₁, r, rs', hcall', hrest', rfl⟩, hR'⟩

end Watchd.Lib
