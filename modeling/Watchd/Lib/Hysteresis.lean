import Mathlib.Order.Bounds.Basic

/-!
# States with hysteresis

A state follows a reading.  It rises at once to what the reading calls for, and
falls no further than to a state that the reading still holds.  Said once: the
next state is the greatest one held, among those that are not above both the
current state and the one called for.

From it: the next state is monotone in the reading (`Next.mono`), stays under the
same reading (`Next.again`), and is kept while the reading holds it (`Next.keeps`).
-/

namespace Watchd.Lib

/-- The state a reading calls for and the states it holds.  A higher reading calls for no less and
holds no fewer. -/
structure Hysteresis (R S : Type*) [Preorder R] [LinearOrder S] where
  rise : R → S
  Held : R → S → Prop
  rise_mono : Monotone rise
  held_mono : ∀ {x y : R} (s : S), x ≤ y → Held x s → Held y s
  held_rise : ∀ x, Held x (rise x)

namespace Hysteresis

variable {R S : Type*} [Preorder R] [LinearOrder S] {p : Hysteresis R S}
  {c c' n n' s : S} {x x' : R}

/-- The next state, after the reading `x` in state `c`. -/
def Next (p : Hysteresis R S) (c : S) (x : R) (n : S) : Prop :=
  IsGreatest {s | s ≤ c ⊔ p.rise x ∧ p.Held x s} n

/-- What the reading calls for, from below it. -/
theorem Next.of_le_rise (hle : c ≤ p.rise x) : p.Next c x (p.rise x) := by
  refine ⟨⟨le_sup_right, p.held_rise x⟩, fun s hs => ?_⟩
  exact hs.1.trans (sup_le hle (le_refl _))

/-- A state that is held, and not below what the reading calls for, stays. -/
theorem Next.of_held (hle : p.rise x ≤ c) (hheld : p.Held x c) : p.Next c x c := by
  refine ⟨⟨le_sup_left, hheld⟩, fun s hs => ?_⟩
  exact hs.1.trans (sup_le (le_refl c) hle)

/-- A state that is not held is left for the one below it. -/
theorem Next.of_not_held {b : S} (h : p.Next b x n) (hb : b ≤ c) (hbelow : ∀ s < c, s ≤ b)
    (hnot : ¬p.Held x c) : p.Next c x n := by
  refine ⟨⟨h.1.1.trans (sup_le_sup_right hb _), h.1.2⟩, ?_⟩
  rintro s ⟨hle, hheld⟩
  refine h.2 ⟨?_, hheld⟩
  rcases le_sup_iff.1 hle with hle | hle
  · have hlt : s < c := lt_of_le_of_ne hle fun heq => hnot (heq ▸ hheld)
    exact (hbelow s hlt).trans le_sup_left
  · exact hle.trans le_sup_right

theorem Next.mono (h : p.Next c x n) (h' : p.Next c' x' n') (hc : c ≤ c') (hx : x ≤ x') :
    n ≤ n' := by
  refine IsGreatest.mono h h' fun s hs => ?_
  obtain ⟨hle, hheld⟩ := hs
  exact ⟨hle.trans (sup_le_sup hc (p.rise_mono hx)), p.held_mono s hx hheld⟩

theorem Next.rise_le (h : p.Next c x n) : p.rise x ≤ n :=
  h.2 ⟨le_sup_right, p.held_rise x⟩

/-- A state that is held is not fallen below. -/
theorem Next.keeps (h : p.Next c x n) (hs : s ≤ c) (hheld : p.Held x s) : s ≤ n :=
  h.2 ⟨hs.trans le_sup_left, hheld⟩

/-- The same reading again changes nothing. -/
theorem Next.again (h : p.Next c x n) (h' : p.Next n x n') : n' = n := by
  apply le_antisymm
  · exact h'.1.1.trans (sup_le (le_refl n) h.rise_le)
  · exact h'.keeps (le_refl n) h.1.2

/-- A state that rises rises to what the reading calls for. -/
theorem Next.eq_rise (h : p.Next c x n) (hlt : c < n) : n = p.rise x := by
  refine le_antisymm ?_ h.rise_le
  rcases le_sup_iff.1 h.1.1 with hle | hle
  · exact absurd hlt hle.not_gt
  · exact hle

theorem Next.eq_top_iff [OrderTop S] (h : p.Next c x n) (hheld : p.Held x ⊤) :
    n = ⊤ ↔ c = ⊤ ∨ p.rise x = ⊤ := by
  constructor
  · rintro rfl
    rcases le_sup_iff.1 h.1.1 with hle | hle
    · exact .inl (top_le_iff.1 hle)
    · exact .inr (top_le_iff.1 hle)
  · rintro (rfl | hrise)
    · exact top_le_iff.1 (h.keeps (le_refl ⊤) hheld)
    · exact top_le_iff.1 (hrise ▸ h.rise_le)

/-- The lowest state is left to only if nothing above it is held. -/
theorem Next.eq_bot_iff [OrderBot S] (h : p.Next c x n) (hrise : p.rise x = ⊥) :
    n = ⊥ ↔ ∀ s ≤ c, p.Held x s → s = ⊥ := by
  constructor
  · rintro rfl s hs hheld
    exact le_bot_iff.1 (h.keeps hs hheld)
  · intro hall
    have hle : n ≤ c := by
      have hmem := h.1.1
      rwa [hrise, sup_bot_eq] at hmem
    exact hall n hle h.1.2

end Hysteresis

end Watchd.Lib
