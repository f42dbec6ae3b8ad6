import Watchd.Lib.Paths
import Watchd.Sdk.Memory
import Watchd.Server.Cursors
import Watchd.Watch.Calm

/-!
# One scope and the history of its source

The rows of a scope after each prefix of a history, how far a position reaches
into it, and which prefix a snapshot covers.

`Scene.Sound` collects what is assumed of them.
-/

namespace Watchd.Sdk

open Watchd.Cdc Watchd.Lib Watchd.Wire

/-- A scope of a projection, its server, and the source's history. -/
structure Scene where
  srv : Server
  /-- `pglogrepl.ParseLSN` -/
  parseLSN : String → Option Nat
  /-- the projection's name -/
  name : String
  projection : Watch.Projection
  scope : Text
  history : List Transaction

namespace Scene

variable (X : Scene)

/-- The primary key of the projection. -/
abbrev primaryKey : List String := X.projection.spec.primaryKey

/-- The scope's rows after the first `n` transactions. -/
def rowsAfter (n : Nat) : Table (List Text) Watch.Row :=
  scopeTable X.projection X.scope (X.history.take n)

/-- The scope's part of a transaction. -/
def part (t : Transaction) : Watch.Batch :=
  { cursor := t.cursor, commitTime := t.commitTime, changes := X.projection.changes X.scope t }

/-- No transaction from the `n`th up to the `k`th has a part for the scope. -/
def Quiet (n k : Nat) : Prop :=
  ∀ t ∈ (X.history.take k).drop n, X.projection.changes X.scope t = []

/-- How many transactions are not after a position. -/
def passed (lsn : Nat) : Nat := cutAt (fun t => decide (t.commitLSN < lsn)) X.history

/-- The snapshot covers exactly the first `n` transactions. -/
def Covers (snapshot : Snapshot) (n : Nat) : Prop :=
  (∀ t ∈ X.history.take n, snapshot.covers t = .ok true) ∧
    ∀ t ∈ X.history.drop n, snapshot.covers t = .ok false

/-- A snapshot of the source, covering exactly the first `n` transactions, whose rows for the scope
are `rows`. -/
structure Taken (snapshot : Snapshot) (rows : List Watch.Row) (n : Nat) : Prop where
  source : snapshot.cursor.sourceID = X.srv.sourceID
  bounded : snapshot.cursor.lsn < 2 ^ 64
  le : n ≤ X.history.length
  covers : X.Covers snapshot n
  rows : ∀ row, row ∈ rows ↔ ∃ k, X.rowsAfter n k = some row

/-- What the results assume of a scene. -/
structure Sound : Prop where
  serves : X.srv.Serves
  readsBack : ReadsBack X.srv.lsnString X.parseLSN
  committed : Watch.Committed X.srv.sourceID X.history
  wellFormed : AllWellFormed X.projection X.scope X.history

/-! ## Positions -/

section Positions

variable {X} (hX : X.Sound)

include hX

theorem lt_passed_iff {i lsn : Nat} {t : Transaction} (hi : X.history[i]? = some t) :
    i < X.passed lsn ↔ t.commitLSN < lsn := by
  have hdown : X.history.Pairwise fun t t' =>
      decide (t'.commitLSN < lsn) = true → decide (t.commitLSN < lsn) = true := by
    refine hX.committed.ordered.imp_of_mem fun {t t'} ht _ hle hlt => ?_
    have hcommit := hX.committed.commit t ht
    rw [decide_eq_true_iff] at hlt ⊢
    omega
  rw [passed, lt_cutAt_iff hdown hi, decide_eq_true_iff]

theorem passed_mono {lsn lsn' : Nat} (h : lsn ≤ lsn') : X.passed lsn ≤ X.passed lsn' := by
  by_contra hlt
  have hlen : X.passed lsn' < X.history.length :=
    (Nat.lt_of_not_le hlt).trans_le (cutAt_le ..)
  have hget : X.history[X.passed lsn']? = some X.history[X.passed lsn'] :=
    List.getElem?_eq_getElem hlen
  have hin := (lt_passed_iff hX hget).1 (Nat.lt_of_not_le hlt)
  have hout := mt (lt_passed_iff hX hget).2 (Nat.lt_irrefl _)
  omega

/-- A transaction's own cursor reaches just past it. -/
theorem passed_cursor {i : Nat} {t : Transaction} (hi : X.history[i]? = some t) :
    X.passed t.cursor.lsn = i + 1 := by
  have hmem := List.mem_of_getElem? hi
  have hin : i < X.passed t.cursor.lsn := (lt_passed_iff hX hi).2 (hX.committed.commit t hmem)
  refine Nat.le_antisymm (Nat.le_of_not_lt fun hlt => ?_) hin
  have hlen : i + 1 < X.history.length := hlt.trans_le (cutAt_le ..)
  have hnext : X.history[i + 1]? = some X.history[i + 1] := List.getElem?_eq_getElem hlen
  have hlater := (lt_passed_iff hX hnext).1 hlt
  have hord := Watch.pairwise_of_mem_take hX.committed.ordered hnext
    (List.mem_iff_getElem?.2 ⟨i, by rw [List.getElem?_take_of_lt (Nat.lt_succ_self i)]; exact hi⟩)
  omega

end Positions

theorem passed_le (lsn : Nat) : X.passed lsn ≤ X.history.length := cutAt_le ..

/-! ## Rows -/

variable {X}

/-- Transactions without a part for the scope leave its rows alone. -/
theorem rowsAfter_of_quiet {n k : Nat} (h : n ≤ k) (hq : X.Quiet n k) :
    X.rowsAfter k = X.rowsAfter n := by
  have hnone : ((X.history.take k).drop n).flatMap (scopeWrites X.projection X.scope) = [] := by
    rw [List.flatMap_eq_nil_iff]
    intro t ht
    rw [scopeWrites, hq t ht]
    rfl
  rw [rowsAfter, rowsAfter, scopeTable, take_eq_append h, List.flatMap_append, hnone,
    List.append_nil]
  rfl

theorem rowsAfter_succ {i : Nat} {t : Transaction} (hi : X.history[i]? = some t) :
    X.rowsAfter (i + 1) = (X.rowsAfter i).writeAll (scopeWrites X.projection X.scope t) := by
  rw [rowsAfter, List.take_add_one, hi, Option.toList_some, scopeTable_append]
  rfl

/-- The keys that the history writes in the scope. -/
def keys (X : Scene) : List (List Text) :=
  (X.history.flatMap (scopeWrites X.projection X.scope)).map Write.key

/-- The scope's rows after the first `n` transactions, as a list. -/
def tableRows (X : Scene) (n : Nat) : List Watch.Row := X.keys.filterMap (X.rowsAfter n)

theorem mem_tableRows {n : Nat} {row : Watch.Row} :
    row ∈ X.tableRows n ↔ ∃ k, X.rowsAfter n k = some row := by
  refine List.mem_filterMap.trans ⟨fun ⟨k, _, hk⟩ => ⟨k, hk⟩, fun ⟨k, hk⟩ => ⟨k, ?_, hk⟩⟩
  -- a key that no transaction writes holds nothing
  by_contra hkeys
  have hnone : ((X.history.take n).flatMap (scopeWrites X.projection X.scope)).filter (·.key = k) =
      [] := by
    rw [List.filter_eq_nil_iff]
    intro w hw hwk
    obtain ⟨t, ht, hw⟩ := List.mem_flatMap.1 hw
    refine hkeys (List.mem_map.2 ⟨w, List.mem_flatMap.2 ⟨t, List.mem_of_mem_take ht, hw⟩, ?_⟩)
    exact of_decide_eq_true hwk
  rw [rowsAfter, scopeTable, Table.writeAll_apply, hnone] at hk
  cases hk

instance (X : Scene) (snapshot : Snapshot) (n : Nat) : Decidable (X.Covers snapshot n) :=
  inferInstanceAs (Decidable (_ ∧ _))

instance (X : Scene) (snapshot : Snapshot) (rows : List Watch.Row) (n : Nat) :
    Decidable (X.Taken snapshot rows n) :=
  decidable_of_iff (snapshot.cursor.sourceID = X.srv.sourceID ∧ snapshot.cursor.lsn < 2 ^ 64 ∧
      n ≤ X.history.length ∧ X.Covers snapshot n ∧ (∀ row ∈ rows, row ∈ X.tableRows n) ∧
      ∀ row ∈ X.tableRows n, row ∈ rows)
    ⟨fun ⟨hsource, hbounded, hle, hcovers, hin, hall⟩ => ⟨hsource, hbounded, hle, hcovers,
        fun row => ⟨fun hrow => mem_tableRows.1 (hin row hrow),
          fun hk => hall row (mem_tableRows.2 hk)⟩⟩,
      fun h => ⟨h.source, h.bounded, h.le, h.covers,
        fun row hrow => mem_tableRows.2 ((h.rows row).1 hrow),
        fun row hrow => (h.rows row).2 (mem_tableRows.1 hrow)⟩⟩

theorem quiet_of_le {n k : Nat} (h : k ≤ n) : X.Quiet n k := by
  intro t ht
  rw [List.drop_eq_nil_of_le ((List.length_take_le ..).trans h)] at ht
  cases ht

theorem Quiet.mono {n k m : Nat} (h : X.Quiet n m) (hk : k ≤ m) : X.Quiet n k :=
  fun t ht => h t (((List.take_prefix_take_left hk).drop n).subset ht)

end Scene

end Watchd.Sdk
