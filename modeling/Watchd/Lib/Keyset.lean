import Mathlib.Data.List.Sort
import Mathlib.Order.Defs.LinearOrder

/-!
# Keyset pagination

Rows with distinct keys, read in key order one page after another: what comes
after the last key of the rows read so far is the rest of the rows, in order.

`inKeyOrder_after` states it.
-/

namespace Watchd.Lib

variable {ρ κ : Type*} [LinearOrder κ] {key : ρ → κ} {rows read rest : List ρ}

/-- The rows by increasing key. -/
def inKeyOrder (key : ρ → κ) (rows : List ρ) : List ρ :=
  rows.mergeSort fun a b => decide (key a ≤ key b)

theorem inKeyOrder_perm (key : ρ → κ) (rows : List ρ) : (inKeyOrder key rows).Perm rows :=
  List.mergeSort_perm _ _

theorem pairwise_inKeyOrder (h : (rows.map key).Nodup) :
    (inKeyOrder key rows).Pairwise fun a b => key a < key b := by
  have hle : (inKeyOrder key rows).Pairwise fun a b => key a ≤ key b := by
    refine (List.pairwise_mergeSort ?_ ?_ rows).imp fun hab => of_decide_eq_true hab
    · intro a b c hab hbc
      exact decide_eq_true (le_trans (of_decide_eq_true hab) (of_decide_eq_true hbc))
    · intro a b
      rcases le_total (key a) (key b) with hab | hba
      · simp [hab]
      · simp [hba]
  have hne : (inKeyOrder key rows).Pairwise fun a b => key a ≠ key b := by
    have hnodup : ((inKeyOrder key rows).map key).Nodup :=
      ((inKeyOrder_perm key rows).map key).nodup_iff.2 h
    exact List.pairwise_map.1 hnodup
  exact (hle.and hne).imp fun hab => lt_of_le_of_ne hab.1 hab.2

/-- The rows of the last key and before, and those after it. -/
theorem filter_after {k : κ} (h : (read ++ rest).Pairwise fun a b => key a < key b)
    (hlast : read.getLast?.map key = some k) :
    (read ++ rest).filter (fun r => decide (k < key r)) = rest := by
  obtain ⟨last, hread, rfl⟩ := Option.map_eq_some_iff.1 hlast
  obtain ⟨earlier, rfl⟩ := List.getLast?_eq_some_iff.1 hread
  obtain ⟨hpairwise, -, hrest⟩ := List.pairwise_append.1 h
  obtain ⟨-, -, hearlier⟩ := List.pairwise_append.1 hpairwise
  have hbefore : (earlier ++ [last]).filter (fun r => decide (key last < key r)) = [] := by
    refine List.filter_eq_nil_iff.2 fun r hr => ?_
    rcases List.mem_append.1 hr with hr | hr
    · simpa using (hearlier r hr last (List.mem_singleton.2 rfl)).le
    · rw [List.mem_singleton.1 hr]
      simp
  have hafter : rest.filter (fun r => decide (key last < key r)) = rest :=
    List.filter_eq_self.2 fun r hr => decide_eq_true (hrest last (by simp) r hr)
  rw [List.filter_append, hbefore, hafter, List.nil_append]

/-- **What is after the last key read** is what has not been read. -/
theorem inKeyOrder_after {k : κ} (hdistinct : (rows.map key).Nodup)
    (h : inKeyOrder key rows = read ++ rest) (hlast : read.getLast?.map key = some k) :
    inKeyOrder key (rows.filter fun r => decide (k < key r)) = rest := by
  have hpairwise := pairwise_inKeyOrder hdistinct
  rw [h] at hpairwise
  have hperm : (inKeyOrder key (rows.filter fun r => decide (k < key r))).Perm rest := by
    have hrows := ((inKeyOrder_perm key rows).filter fun r => decide (k < key r)).symm
    rw [h, filter_after hpairwise hlast] at hrows
    exact (inKeyOrder_perm key _).trans hrows
  have hsub : ((rows.filter fun r => decide (k < key r)).map key).Nodup :=
    (List.filter_sublist.map key).nodup hdistinct
  refine hperm.eq_of_pairwise ?_ (pairwise_inKeyOrder hsub) (List.pairwise_append.1 hpairwise).2.1
  intro a b _ _ hab hba
  exact absurd hab (lt_asymm hba)

end Watchd.Lib
