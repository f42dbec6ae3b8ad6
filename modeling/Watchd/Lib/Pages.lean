import Mathlib.Algebra.GroupWithZero.Nat
import Mathlib.Data.List.Chain

/-!
# Packed pages

A list is cut into pages greedily: an element joins the last page if it still
fits, and starts a page otherwise.  `Packed` says what such pages look like, and
its two rules are the two things a packing loop can do.
-/

namespace Watchd.Lib

variable {α : Type*} (size : α → Nat)

/-- The sizes of a page's items together. -/
def pageSize (page : List α) : Nat := (page.map size).sum

/-- Pages none of which is empty or, unless it is one element, too large, and none of which could
have taken the next page's first element. -/
structure Packed (bound : Nat) (pages : List (List α)) : Prop where
  nonempty : ∀ page ∈ pages, page ≠ []
  within : ∀ page ∈ pages, 2 ≤ page.length → pageSize size page ≤ bound
  full : pages.IsChain fun page next => ∀ a ∈ next.head?, bound < pageSize size page + size a

variable {size} {bound : Nat} {pages : List (List α)} {page : List α} {a : α}

@[simp] theorem pageSize_nil : pageSize size [] = 0 := rfl

@[simp] theorem pageSize_append (page : List α) (a : α) :
    pageSize size (page ++ [a]) = pageSize size page + size a := by
  simp [pageSize]

namespace Packed

theorem nil : Packed size bound [] := ⟨nofun, nofun, .nil⟩

/-- An element starts a page if the last one cannot take it. -/
theorem start (h : Packed size bound pages)
    (hfull : ∀ last ∈ pages.getLast?, bound < pageSize size last + size a) :
    Packed size bound (pages ++ [[a]]) := by
  refine ⟨?_, ?_, ?_⟩
  · intro page hpage
    rcases List.mem_append.1 hpage with hpage | hpage
    · exact h.nonempty page hpage
    · rw [List.mem_singleton.1 hpage]
      exact List.cons_ne_nil _ _
  · intro page hpage hlen
    rcases List.mem_append.1 hpage with hpage | hpage
    · exact h.within page hpage hlen
    · rw [List.mem_singleton.1 hpage] at hlen
      simp at hlen
  · refine List.isChain_append.2 ⟨h.full, .singleton _, ?_⟩
    intro last hlast next hnext b hb
    cases hnext
    cases hb
    exact hfull last hlast

/-- An element joins the last page if it fits. -/
theorem join (h : Packed size bound (pages ++ [page]))
    (hfits : pageSize size page + size a ≤ bound) :
    Packed size bound (pages ++ [page ++ [a]]) := by
  have hpage : page ≠ [] := h.nonempty page (by simp)
  refine ⟨?_, ?_, ?_⟩
  · intro page' hpage'
    rcases List.mem_append.1 hpage' with hmem | hmem
    · exact h.nonempty page' (List.mem_append_left _ hmem)
    · rw [List.mem_singleton.1 hmem]
      simp
  · intro page' hpage' hlen
    rcases List.mem_append.1 hpage' with hmem | hmem
    · exact h.within page' (List.mem_append_left _ hmem) hlen
    · rw [List.mem_singleton.1 hmem, pageSize_append]
      exact hfits
  · obtain ⟨hpages, -, hlink⟩ := List.isChain_append.1 h.full
    refine List.isChain_append.2 ⟨hpages, .singleton _, ?_⟩
    intro last hlast next hnext b hb
    cases hnext
    -- the page has the first element it had
    rw [List.head?_append_of_ne_nil _ hpage] at hb
    exact hlink last hlast page rfl b hb

end Packed

end Watchd.Lib
