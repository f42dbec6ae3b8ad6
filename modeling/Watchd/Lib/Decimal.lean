import Mathlib.Algebra.Group.Nat.Defs
import Mathlib.Data.List.Basic

/-!
# Decimal text and separated fields

`split` cuts a text at every separator, `parseUint` reads one field as an
unsigned 64-bit number.  Both are the loops a standard library runs, in
fixed-width arithmetic; the results below say what they accept in terms of
digit strings and their values as natural numbers.

The main one is `parseUint_eq_some_iff`.
-/

namespace Watchd.Lib.Decimal

/-! ## Separated fields -/

/-- The fields of `s` between the separators: one more than there are separators. -/
def split (s : String) (sep : Char) : List String :=
  (s.toList.splitOn sep).map String.ofList

/-- The fields, joined again. -/
def join (sep : Char) (fields : List String) : String :=
  (String.singleton sep).intercalate fields

theorem join_split (s : String) (sep : Char) : join sep (split s sep) = s := by
  rw [← String.toList_inj]
  simp [join, split, Function.comp_def]

theorem split_join {sep : Char} {fields : List String} (hne : fields ≠ [])
    (hsep : ∀ f ∈ fields, sep ∉ f.toList) : split (join sep fields) sep = fields := by
  have hcut : (join sep fields).toList.splitOn sep = fields.map String.toList := by
    simp only [join, String.toList_intercalate, String.toList_singleton]
    refine List.splitOn_intercalate sep ?_ (by simpa using hne)
    intro l hl
    obtain ⟨f, hf, rfl⟩ := List.mem_map.mp hl
    exact hsep f hf
  simp [split, hcut, Function.comp_def]

theorem mem_join {sep c : Char} {fields : List String} (h : c ∈ (join sep fields).toList) :
    c = sep ∨ ∃ f ∈ fields, c ∈ f.toList := by
  induction fields with
  | nil => simp [join] at h
  | cons f fields ih =>
    cases fields with
    | nil => exact .inr ⟨f, by simp, by simpa [join] using h⟩
    | cons g gs =>
      rw [join, String.intercalate_cons_cons] at h
      simp only [String.toList_append, String.toList_singleton, List.mem_append, List.mem_singleton]
        at h
      rcases h with (hf | hsep) | hrest
      · exact .inr ⟨f, by simp, hf⟩
      · exact .inl hsep
      · rcases ih hrest with hsep | ⟨f', hf', hc⟩
        · exact .inl hsep
        · exact .inr ⟨f', List.mem_cons_of_mem f hf', hc⟩

/-! ## Digit strings -/

/-- A number as it is written: at least one character, all of them digits. -/
def IsDigits (s : String) : Prop := s ≠ "" ∧ ∀ c ∈ s.toList, c.isDigit = true

-- by the string's own characters: found by search, the instance could run over every `Char`
instance (s : String) : Decidable (IsDigits s) :=
  decidable_of_iff (s ≠ "" ∧ s.toList.all Char.isDigit = true) (by rw [IsDigits, List.all_eq_true])

/-- The number a digit string denotes. -/
def value (s : String) : Nat := Nat.ofDigitChars 10 s.toList 0

theorem IsDigits.not_mem {s : String} (h : IsDigits s) {c : Char} (hc : c.isDigit = false) :
    c ∉ s.toList := by
  intro hmem
  rw [h.2 c hmem] at hc
  cases hc

theorem isDigits_repr (n : Nat) : IsDigits n.repr := by
  constructor
  · intro h
    have hlen := Nat.length_repr_pos (n := n)
    simp [h] at hlen
  · intro c hc
    rw [Nat.toList_repr] at hc
    exact Nat.isDigit_of_mem_toDigits (by decide) (by decide) hc

@[simp] theorem value_repr (n : Nat) : value n.repr = n := by
  simp [value]

/-! ## Reading a number -/

/-- One digit: `n` is refused before the multiplication when `10 * n` would not fit, and the sum is
refused when it wrapped. -/
def readDigit (n : UInt64) (c : Char) : Option UInt64 :=
  if c.isDigit then
    if n ≥ 1844674407370955162 then none
    else
      let tens := n * 10
      let sum := tens + UInt64.ofNat (c.toNat - '0'.toNat)
      if sum < tens then none else some sum
  else none

/-- `strconv.ParseUint(s, 10, 64)`; `none` is either of its errors. -/
def parseUint (s : String) : Option UInt64 :=
  if s = "" then none else s.toList.foldlM readDigit 0

theorem readDigit_eq_some_iff {n m : UInt64} {c : Char} :
    readDigit n c = some m ↔
      c.isDigit = true ∧ 10 * n.toNat + (c.toNat - '0'.toNat) = m.toNat := by
  unfold readDigit
  by_cases hc : c.isDigit = true
  · have hdigit : c.toNat - '0'.toNat < 10 := by
      have := Char.isDigit_iff_toNat.mp hc
      simp at this ⊢
      omega
    generalize c.toNat - '0'.toNat = d at hdigit ⊢
    have hd : (UInt64.ofNat d).toNat = d := by simp; omega
    have hn := n.toNat_lt
    have hm := m.toNat_lt
    simp only [hc, if_true, true_and]
    split
    · next hcut =>
      -- the cutoff is the least `n` whose tenfold leaves the range
      rw [ge_iff_le, UInt64.le_iff_toNat_le] at hcut
      simp at hcut
      simp
      omega
    · next hcut =>
      rw [ge_iff_le, UInt64.le_iff_toNat_le] at hcut
      simp at hcut
      have htens : (n * 10).toNat = 10 * n.toNat := by
        rw [UInt64.toNat_mul]
        simp
        omega
      have hsum := UInt64.toNat_add (n * 10) (UInt64.ofNat d)
      rw [htens, hd] at hsum
      split
      · next hwrap =>
        rw [UInt64.lt_iff_toNat_lt, hsum, htens] at hwrap
        simp
        omega
      · next hwrap =>
        rw [UInt64.lt_iff_toNat_lt, hsum, htens] at hwrap
        rw [Option.some_inj, ← UInt64.toNat_inj, hsum]
        omega
  · simp [hc]

/-- Reading on never brings the number down. -/
theorem le_ofDigitChars (cs : List Char) (n : Nat) : n ≤ Nat.ofDigitChars 10 cs n := by
  rw [Nat.ofDigitChars_eq_ofDigitChars_zero]
  have := Nat.le_mul_of_pos_left n (Nat.pow_pos (n := cs.length) (by decide : 0 < 10))
  omega

theorem foldlM_readDigit_eq_some_iff {cs : List Char} {n m : UInt64} :
    cs.foldlM readDigit n = some m ↔
      (∀ c ∈ cs, c.isDigit = true) ∧ Nat.ofDigitChars 10 cs n.toNat = m.toNat := by
  induction cs generalizing n with
  | nil => simp [UInt64.toNat_inj]
  | cons c cs ih =>
    rw [List.foldlM_cons, Option.bind_eq_bind, Option.bind_eq_some_iff, Nat.ofDigitChars_cons]
    constructor
    · rintro ⟨k, hk, hcs⟩
      obtain ⟨hc, hval⟩ := readDigit_eq_some_iff.mp hk
      obtain ⟨hall, hrest⟩ := ih.mp hcs
      rw [hval]
      exact ⟨by simpa using ⟨hc, hall⟩, hrest⟩
    · rintro ⟨hall, hval⟩
      -- the number so far is at most the whole, so it fits and the step is taken
      have hfits : 10 * n.toNat + (c.toNat - '0'.toNat) < 2 ^ 64 := by
        have hle := le_ofDigitChars cs (10 * n.toNat + (c.toNat - '0'.toNat))
        have hm := m.toNat_lt
        omega
      have hk : (UInt64.ofNat (10 * n.toNat + (c.toNat - '0'.toNat))).toNat =
          10 * n.toNat + (c.toNat - '0'.toNat) := UInt64.toNat_ofNat_of_lt' hfits
      refine ⟨_, readDigit_eq_some_iff.mpr ⟨hall c (by simp), hk.symm⟩, ih.mpr ⟨?_, ?_⟩⟩
      · intro d hd
        exact hall d (by simp [hd])
      · rw [hk]
        exact hval

/-- **A number is read exactly from a digit string whose value fits**, and it is that value. -/
theorem parseUint_eq_some_iff {s : String} {n : UInt64} :
    parseUint s = some n ↔ IsDigits s ∧ value s = n.toNat := by
  unfold parseUint IsDigits value
  by_cases hs : s = ""
  · simp [hs]
  · simp only [hs, if_false, foldlM_readDigit_eq_some_iff, ne_eq, not_false_eq_true, true_and]
    simp

theorem parseUint_of_lt {s : String} (h : IsDigits s) (hv : value s < 2 ^ 64) :
    parseUint s = some (UInt64.ofNat (value s)) :=
  parseUint_eq_some_iff.mpr ⟨h, (UInt64.toNat_ofNat_of_lt' hv).symm⟩

end Watchd.Lib.Decimal
