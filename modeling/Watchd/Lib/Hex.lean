import Mathlib.Data.Nat.Digits.Defs
import Watchd.Lib.Loops

/-!
# Hexadecimal numbers

Numbers as `%X` prints them, without padding and in upper case, and as digits of
either case are read.

`value_print`: what is printed is read back.
-/

namespace Watchd.Lib.Hex

/-- An upper-case digit. -/
def digit (d : Nat) : Char := if d < 10 then Char.ofNat (48 + d) else Char.ofNat (55 + d)

/-- The value of a digit of either case. -/
def digitValue (c : Char) : Option Nat :=
  if 48 ≤ c.toNat ∧ c.toNat ≤ 57 then some (c.toNat - 48)
  else if 65 ≤ c.toNat ∧ c.toNat ≤ 70 then some (c.toNat - 55)
  else if 97 ≤ c.toNat ∧ c.toNat ≤ 102 then some (c.toNat - 87)
  else none

/-- A number without leading zeros. -/
def print (n : Nat) : String :=
  .ofList (if n = 0 then ['0'] else (Nat.digits 16 n).reverse.map digit)

/-- The number a text denotes; `none` if it is not one or more digits. -/
def value (s : String) : Option Nat :=
  if s = "" then none
  else (s.toList.mapM digitValue).map fun ds => Nat.ofDigits 16 ds.reverse

theorem digitValue_digit {d : Nat} (h : d < 16) : digitValue (digit d) = some d := by
  have hall : ∀ d : Fin 16, digitValue (digit d) = some d.val := by decide
  exact hall ⟨d, h⟩

/-- **What is printed is read back.** -/
theorem value_print (n : Nat) : value (print n) = some n := by
  by_cases hn : n = 0
  · subst hn
    decide
  · have hne : print n ≠ "" := by
      intro h
      have hchars : (print n).toList = [] := by rw [h]; rfl
      simp only [print, if_neg hn, String.toList_ofList, List.map_eq_nil_iff,
        List.reverse_eq_nil_iff] at hchars
      exact Nat.digits_ne_nil_iff_ne_zero.2 hn hchars
    have hdigits : (print n).toList.mapM digitValue = some (Nat.digits 16 n).reverse := by
      rw [print, if_neg hn, String.toList_ofList]
      refine mapM_eq_some.2 (List.forall₂_map_left_iff.2 (List.forall₂_same.2 fun d hd => ?_))
      exact digitValue_digit (Nat.digits_lt_base (by decide) (List.mem_reverse.1 hd))
    rw [value, if_neg hne, hdigits, Option.map_some, List.reverse_reverse, Nat.ofDigits_digits]

/-- A number holds digits only. -/
theorem not_mem_of_value {s : String} {n : Nat} (h : value s = some n) {c : Char}
    (hc : digitValue c = none) : c ∉ s.toList := by
  intro hmem
  unfold value at h
  split at h
  · cases h
  · obtain ⟨ds, hds, -⟩ := Option.map_eq_some_iff.1 h
    have hsome := ((List.forall₂_and_left s.toList ds).1 ((mapM_eq_some.1 hds).imp
      fun c d hd => ⟨show digitValue c ≠ none by simp [hd], hd⟩)).1
    exact hsome c hmem hc

end Watchd.Lib.Hex
