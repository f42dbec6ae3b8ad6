import Mathlib.Data.List.Count

/-!
# Resources handed out and finished

A ledger numbers the resources that a component hands out and records which of
them are finished.  A user that holds at most one of them at a time, and takes
another one over the one it holds, loses the latter; every other one is finished
exactly once, as soon as the user holds none.

`Accounted.moves` is the step rule, `Accounted.all_finished_iff` the result.
-/

namespace Watchd.Lib

/-- Numbered things, handed out in order and finished in any order. -/
structure Ledger where
  /-- how many were handed out -/
  begun : Nat := 0
  /-- the numbers of the finished ones -/
  finished : List Nat := []
  deriving DecidableEq, Repr

/-- Hands out the next one. -/
def Ledger.handOut (l : Ledger) : Ledger := { l with begun := l.begun + 1 }

/-- Finishes one. -/
def Ledger.finish (l : Ledger) (n : Nat) : Ledger := { l with finished := l.finished ++ [n] }

/-- A ledger, the resource that the user holds, and those it has lost. -/
structure Custody where
  ledger : Ledger := {}
  held : Option Nat := none
  lost : List Nat := []

namespace Custody

/-- What the user does with the resources. -/
inductive Moves : Custody → Custody → Prop
  | keep (c : Custody) : Moves c c
  /-- it takes another one -/
  | take (c : Custody) :
      Moves c ⟨c.ledger.handOut, some c.ledger.begun, c.lost ++ c.held.toList⟩
  /-- it lets go of what it holds -/
  | drop (c : Custody) : Moves c ⟨c.ledger, none, c.lost ++ c.held.toList⟩
  | finish (l : Ledger) (n : Nat) (lost : List Nat) :
      Moves ⟨l, some n, lost⟩ ⟨l.finish n, none, lost⟩

/-- Every resource is held, lost or finished exactly once. -/
structure Accounted (c : Custody) : Prop where
  count : ∀ n, c.ledger.finished.count n =
    if n < c.ledger.begun ∧ n ∉ c.lost ∧ c.held ≠ some n then 1 else 0
  held : ∀ n, c.held = some n → n < c.ledger.begun ∧ n ∉ c.lost
  lost : ∀ n ∈ c.lost, n < c.ledger.begun

theorem Accounted.start : Accounted {} := ⟨fun n => by simp, nofun, nofun⟩

theorem Accounted.moves {c c' : Custody} (h : c.Accounted) (hm : c.Moves c') : c'.Accounted := by
  obtain ⟨hcount, hheld, hlost⟩ := h
  have hdropped : ∀ n ∈ c.lost ++ c.held.toList, n < c.ledger.begun := by
    intro n hn
    rcases List.mem_append.1 hn with hn | hn
    · exact hlost n hn
    · exact (hheld n (Option.mem_toList.1 hn)).1
  cases hm with
  | keep => exact ⟨hcount, hheld, hlost⟩
  | take =>
    refine ⟨fun n => ?_, fun n hn => ?_, fun n hn => Nat.lt_succ_of_lt (hdropped n hn)⟩
    · -- the new one is not finished yet; a lost one will never be
      rw [Ledger.handOut, hcount]
      congr 1
      simp only [List.mem_append, Option.mem_toList, not_or, eq_iff_iff]
      constructor
      · rintro ⟨hlt, hnot, hne⟩
        exact ⟨by omega, ⟨hnot, hne⟩, by simp; omega⟩
      · rintro ⟨hlt, ⟨hnot, hne⟩, hnew⟩
        have hn : c.ledger.begun ≠ n := by simpa using hnew
        exact ⟨by omega, hnot, hne⟩
    · cases hn
      exact ⟨Nat.lt_succ_self _, fun hmem => Nat.lt_irrefl _ (hdropped _ hmem)⟩
  | drop =>
    refine ⟨fun n => ?_, nofun, hdropped⟩
    rw [hcount]
    congr 1
    simp [not_or]
  | finish l n lost =>
    refine ⟨fun k => ?_, nofun, hlost⟩
    have hk := hcount k
    simp only [Ledger.finish, List.count_append, List.count_singleton]
    rw [hk]
    by_cases heq : n = k
    · subst heq
      simp [hheld n rfl]
    · simp [heq]

/-- With nothing held, what was not lost is finished exactly once. -/
theorem Accounted.count_eq {c : Custody} (h : c.Accounted) (hheld : c.held = none) {n : Nat}
    (hn : n < c.ledger.begun) : c.ledger.finished.count n = if n ∈ c.lost then 0 else 1 := by
  rw [h.count, hheld]
  by_cases hmem : n ∈ c.lost <;> simp [hn, hmem]

/-- So all of them are finished exactly once if and only if none was lost. -/
theorem Accounted.all_finished_iff {c : Custody} (h : c.Accounted) (hheld : c.held = none) :
    (∀ n < c.ledger.begun, c.ledger.finished.count n = 1) ↔ c.lost = [] := by
  constructor
  · intro hall
    refine List.eq_nil_iff_forall_not_mem.2 fun n hn => ?_
    have hone := hall n (h.lost n hn)
    rw [h.count_eq hheld (h.lost n hn), if_pos hn] at hone
    cases hone
  · intro hlost n hn
    rw [h.count_eq hheld hn, if_neg (hlost ▸ List.not_mem_nil)]

end Custody

end Watchd.Lib
