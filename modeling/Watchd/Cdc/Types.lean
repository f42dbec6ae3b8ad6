import Mathlib.Data.Finmap
import Mathlib.Data.Finset.Insert
import Watchd.Cdc.Errors

/-!
# Cursors, changes, transactions and snapshots

The data model of package `cdc`.  A cursor is a position in one source's WAL;
cursors of one source are totally ordered, cursors of different sources are
not comparable.  A snapshot decides by transaction ID which transactions its
rows already contain (`Snapshot.covers`).
-/

namespace Watchd.Cdc

/-- A Go string holding column data: the bytes PostgreSQL sent. -/
abbrev Text := List UInt8

/-- A source timestamp, in microseconds.  It is carried along and never compared. -/
abbrev Time := Int

/-- A Go `map[string]string` of column texts. -/
abbrev TextMap := Finmap fun _ : String => Text

/-! ## Cursors -/

/-- A position in the stream of a source. -/
structure Cursor where
  sourceID : String
  /-- a WAL position: a `uint64` that is only ever compared -/
  lsn : Nat
  deriving DecidableEq, Repr

namespace Cursor

/-- The zero `Cursor`. -/
def zero : Cursor := ⟨"", 0⟩

/-- The order of two cursors of one source. -/
def compare (c other : Cursor) : Except GoError Ordering :=
  if c.sourceID ≠ other.sourceID then
    .error (.new ("cdc: cannot compare cursors from different sources (" ++
      quote c.sourceID ++ ", " ++ quote other.sourceID ++ ")"))
  else if c.lsn < other.lsn then .ok .lt
  else if c.lsn > other.lsn then .ok .gt
  else .ok .eq

theorem compare_gt_iff {c other : Cursor} :
    c.compare other = .ok .gt ↔ c.sourceID = other.sourceID ∧ other.lsn < c.lsn := by
  unfold compare
  split
  · next h => simp [h]
  · next h =>
    have hsrc : c.sourceID = other.sourceID := by simpa using h
    rcases Nat.lt_trichotomy c.lsn other.lsn with hlt | heq | hgt
    · simp [hlt, Nat.le_of_lt hlt]
    · simp [heq]
    · simp [hgt, Nat.not_lt.mpr (Nat.le_of_lt hgt), hsrc]

/-- Comparing cursors of one source never fails. -/
theorem compare_ok {c other : Cursor} (h : c.sourceID = other.sourceID) :
    ∃ o, c.compare other = .ok o := by
  unfold compare
  rw [if_neg (not_not.mpr h)]
  split
  · exact ⟨_, rfl⟩
  · split <;> exact ⟨_, rfl⟩

end Cursor

/-- `ParseCursor`, over `pglogrepl.ParseLSN` as `parseLSN`. -/
def parseCursor (parseLSN : String → Option Nat) (sourceID text : String) :
    Except GoError Cursor :=
  if sourceID = "" then .error (errorf .invalidCursor ": cursor source ID is required")
  else
    match parseLSN text with
    | none => .error (errorf .invalidCursor (": " ++ quote text))
    | some lsn => .ok ⟨sourceID, lsn⟩

/-- A parsed cursor belongs to the source it was parsed for. -/
theorem parseCursor_sourceID {parseLSN : String → Option Nat} {sourceID text : String} {c : Cursor}
    (h : parseCursor parseLSN sourceID text = .ok c) : c.sourceID = sourceID := by
  unfold parseCursor at h
  split at h
  · cases h
  · split at h
    · cases h
    · cases h
      rfl

/-! ## Changes -/

/-- What a change does to its row. -/
inductive Operation
  | insert
  | update
  | delete
  deriving DecidableEq, Repr

/-- The operation as the source spells it. -/
def Operation.text : Operation → String
  | .insert => "insert"
  | .update => "update"
  | .delete => "delete"

/-- The kinds of a value. -/
inductive ValueKind
  | null
  | text
  | unchangedToast
  deriving DecidableEq, Repr

/-- One column value.  `text` is set only for `ValueKind.text`. -/
structure Value where
  kind : ValueKind := .null
  text : Text := []
  deriving DecidableEq, Repr

/-- One row mutation.  `columns` and `values` are parallel and empty for a delete. -/
structure Change where
  operation : Operation
  table : String
  key : TextMap
  columns : List String := []
  values : List Value := []
  deriving DecidableEq

/-- `change.Key[column]`: a missing entry reads as the empty string. -/
def Change.keyAt (c : Change) (column : String) : Text :=
  (c.key.lookup column).getD []

/-- Says that a projected table changed shape mid-stream. -/
structure IncompatibleRelationError where
  table : String
  difference : String
  deriving DecidableEq, Repr

/-! ## Transactions -/

/-- An atomic batch of committed source changes.  `cursor` is the position just after the commit,
`commitLSN` the start of the commit record. -/
structure Transaction where
  cursor : Cursor
  changes : List Change := []
  commitTime : Time := 0
  incompatible : List IncompatibleRelationError := []
  commitLSN : Nat
  xid : UInt32
  deriving DecidableEq

/-- Whether a consumer resuming from `c` must still apply `t`. -/
def Transaction.after (t : Transaction) (c : Cursor) : Except GoError Bool :=
  if t.cursor.sourceID ≠ c.sourceID then
    .error (.new ("cdc: cannot compare a transaction and a cursor from different sources (" ++
      quote t.cursor.sourceID ++ ", " ++ quote c.sourceID ++ ")"))
  else .ok (decide (t.commitLSN ≥ c.lsn))

theorem Transaction.after_eq_true_iff {t : Transaction} {c : Cursor} :
    t.after c = .ok true ↔ t.cursor.sourceID = c.sourceID ∧ c.lsn ≤ t.commitLSN := by
  unfold after
  split
  · next h => simp [h]
  · next h => simp_all

/-- The table a projection shows, and the column that holds the scope. -/
structure ProjectionSpec where
  sourceID : String
  schema : String
  table : String
  scopeColumn : String
  primaryKey : List String
  deriving DecidableEq, Repr

/-! ## Snapshots -/

/-- A PostgreSQL MVCC snapshot as `pg_current_snapshot()` reports it. -/
structure Visibility where
  xmin : UInt64
  xmax : UInt64
  inProgress : Finset UInt64
  deriving DecidableEq

/-- The 64-bit transaction ID nearest to `xmax` whose low half is `xid`, in the code's own
fixed-width arithmetic. -/
def Visibility.widen (v : Visibility) (xid : UInt32) : UInt64 :=
  let distance : Int64 := (xid - v.xmax.toUInt32).toInt32.toInt64
  let full : Int64 := v.xmax.toInt64 + distance
  if full < 0 then 0 else full.toUInt64

/-- Whether the committed transaction `xid` is visible in the snapshot. -/
def Visibility.includes (v : Visibility) (xid : UInt32) : Bool :=
  let full := v.widen xid
  if full ≥ v.xmax then false
  else if full < v.xmin then true
  else !decide (full ∈ v.inProgress)

/-- A consistent scoped read.  Its rows are delivered separately. -/
structure Snapshot where
  sourceID : String
  cursor : Cursor
  visibility : Option Visibility
  deriving DecidableEq

/-- Whether `t`'s effects are already in the snapshot's rows. -/
def Snapshot.covers (s : Snapshot) (t : Transaction) : Except GoError Bool :=
  if t.cursor.sourceID ≠ s.cursor.sourceID then
    .error (.new ("cdc: cannot check a transaction from source " ++ quote t.cursor.sourceID ++
      " against a snapshot of source " ++ quote s.cursor.sourceID))
  else
    match s.visibility with
    | none => .ok false
    | some v => .ok (v.includes t.xid)

/-- A table with its schema, if it has one. -/
def qualifiedTable (nspace relation : String) : String :=
  if nspace = "" then relation else nspace ++ "." ++ relation

end Watchd.Cdc
