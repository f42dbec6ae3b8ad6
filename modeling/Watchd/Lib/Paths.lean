import Mathlib.Data.List.Basic

/-!
# Paths of a labelled relation

Paths, their composition (`append`), and `mono` for a weaker relation.
-/

namespace Watchd.Lib

variable {σ α : Type*} {R R' : σ → α → σ → Prop}

/-- The labels lead from one state to another. -/
inductive Path (R : σ → α → σ → Prop) : σ → List α → σ → Prop
  | nil (s : σ) : Path R s [] s
  | cons {s t u : σ} {a : α} {as : List α} (h : R s a t) (hs : Path R t as u) : Path R s (a :: as) u

namespace Path

variable {s t u : σ} {as bs : List α}

theorem single {a : α} (h : R s a t) : Path R s [a] t := .cons h (.nil t)

theorem append (h : Path R s as t) (h' : Path R t bs u) : Path R s (as ++ bs) u := by
  induction h with
  | nil => exact h'
  | cons h _ ih => exact .cons h (ih h')

theorem mono (himp : ∀ s a t, R s a t → R' s a t) (h : Path R s as t) : Path R' s as t := by
  induction h with
  | nil => exact .nil _
  | cons h _ ih => exact .cons (himp _ _ _ h) ih

end Path

end Watchd.Lib
