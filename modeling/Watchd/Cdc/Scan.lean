import Watchd.Cdc.Types
import Watchd.Lib.Keyset
import Watchd.Lib.Loops

/-!
# Reading a scope page by page

`scanScopedRows` reads the rows of a scope in primary-key order, a page at a time:
each query asks for the rows after the last key of the page before, which it
carries as text.  The queries are the code's own; what the server answers to them
is assumed (`Answers`).

`scanScopedRows_once`: every row of the scope is delivered exactly once, in key
order.
-/

namespace Watchd.Cdc

open Watchd.Lib

/-! ## The scan -/

/-- A row of a scan: text, or `none` for SQL NULL, by column name. -/
abbrev ScannedRow := Finmap fun _ : String => Option Text

/-- A query parameter. -/
inductive Arg
  | text (value : Text)
  | int (n : Nat)
  deriving DecidableEq, Repr

/-- What a query gives: its fields, the raw values of its rows, and what ended it early. -/
structure ResultSet where
  fields : List String
  rows : List (List (Option Text))
  err : Option GoError := none

/-- A transaction, with `pgx.Identifier.Sanitize`.  Its errors are classified ones. -/
structure Tx where
  sanitize : List String → String
  query : String → List Arg → Except GoError ResultSet

section Scan

variable (tx : Tx) (spec : ProjectionSpec) (scope : Text) (batchRows : Nat)

/-- The ORDER BY list: the primary key. -/
def orderBy : String := ", ".intercalate (spec.primaryKey.map fun column => tx.sanitize [column])

/-- The text of a page's query; `lastKey` is the key of the last row before it. -/
def pageQuery (lastKey : Option (List Text)) : String :=
  let query := "SELECT * FROM " ++ tx.sanitize [spec.schema, spec.table] ++ " WHERE " ++
    tx.sanitize [spec.scopeColumn] ++ " = $1"
  match lastKey with
  | none => query ++ " ORDER BY " ++ orderBy tx spec ++ " LIMIT $2"
  | some key =>
    let placeholders := (List.range key.length).map fun index => "$" ++ toString (index + 2)
    query ++ " AND (" ++ orderBy tx spec ++ ") > (" ++ ", ".intercalate placeholders ++ ")" ++
      " ORDER BY " ++ orderBy tx spec ++ " LIMIT $" ++ toString (key.length + 2)

/-- The arguments of a page's query: the scope, the last key if there is one, and the page size. -/
def pageArgs (lastKey : Option (List Text)) : List Arg :=
  .text scope :: (lastKey.getD []).map .text ++ [.int batchRows]

/-- A row by its column names. -/
def scannedRow (fields : List String) (values : List (Option Text)) : ScannedRow :=
  fill ∅ (fields.zip values)

/-- One page. -/
def fetchBatch (lastKey : Option (List Text)) : Except GoError (List ScannedRow) :=
  match tx.query (pageQuery tx spec lastKey) (pageArgs scope batchRows lastKey) with
  | .error err => .error err
  | .ok result =>
    match result.err with
    | some err => .error err
    | none => .ok (result.rows.map (scannedRow result.fields))

/-- The primary-key texts of a row. -/
def keyTexts (primaryKey : List String) (row : ScannedRow) : Except GoError (List Text) :=
  primaryKey.mapM fun column =>
    match row.lookup column with
    | some (some text) => .ok text
    | _ => .error (errorf .postgresServer
        (": primary key column " ++ quote column ++ " missing or NULL in scanned row"))

/-- A sink may refuse a batch, looking at those it was given before. -/
abbrev SnapshotRowSink := List (List ScannedRow) → List ScannedRow → Option GoError

variable (sink : SnapshotRowSink)

/-- The loop of the scan, with the batches that it has given to the sink; `none` if it needs more
than `fuel` pages. -/
def scanFrom : Nat → Option (List Text) → List (List ScannedRow) →
    Option (List (List ScannedRow) × Except GoError Unit)
  | 0, _, _ => none
  | fuel + 1, lastKey, given =>
    match fetchBatch tx spec scope batchRows lastKey with
    | .error err => some (given, .error err)
    | .ok batch =>
      match batch.getLast? with
      | none => some (given, .ok ())
      | some lastRow =>
        match sink given batch with
        | some err => some (given ++ [batch], .error err)
        | none =>
          match keyTexts spec.primaryKey lastRow with
          | .error err => some (given ++ [batch], .error err)
          | .ok nextKey =>
            if batch.length < batchRows then some (given ++ [batch], .ok ())
            else scanFrom fuel (some nextKey) (given ++ [batch])

/-- All pages of a scope, from the first. -/
def scanScopedRows (fuel : Nat) : Option (List (List ScannedRow) × Except GoError Unit) :=
  scanFrom tx spec scope batchRows sink fuel none []

end Scan

/-! ## What the server answers -/

variable {κ : Type} [LinearOrder κ]

/-- The scope holds `rows`, with distinct keys.  The text of a row's key reads back as the key, and
a query gives, in key order, the first `batchRows` rows after the key it names. -/
structure Answers (tx : Tx) (spec : ProjectionSpec) (scope : Text) (batchRows : Nat)
    (fields : List String) (rows : List (List (Option Text))) (key : List (Option Text) → κ)
    (reads : List Text → Option κ) : Prop where
  distinct : (rows.map key).Nodup
  texts : ∀ row ∈ rows, ∃ texts, keyTexts spec.primaryKey (scannedRow fields row) = .ok texts ∧
    reads texts = some (key row)
  first : tx.query (pageQuery tx spec none) (pageArgs scope batchRows none) =
    .ok { fields := fields, rows := (inKeyOrder key rows).take batchRows }
  next : ∀ texts k, reads texts = some k →
    tx.query (pageQuery tx spec (some texts)) (pageArgs scope batchRows (some texts)) =
      .ok
        { fields := fields
          rows := (inKeyOrder key (rows.filter fun row => decide (k < key row))).take batchRows }

variable {tx : Tx} {spec : ProjectionSpec} {scope : Text} {batchRows : Nat} {fields : List String}
  {rows : List (List (Option Text))} {key : List (Option Text) → κ} {reads : List Text → Option κ}
  {sink : SnapshotRowSink}

/-- The key that the loop carries names the last row read. -/
def Names (reads : List Text → Option κ) (key : List (Option Text) → κ)
    (read : List (List (Option Text))) (lastKey : Option (List Text)) : Prop :=
  match lastKey with
  | none => read = []
  | some texts => ∃ k, reads texts = some k ∧ read.getLast?.map key = some k

/-- Where the loop stands between two pages: the sink was given the rows in `read`, in batches
within bounds, and those in `rest` are still to be read. -/
structure Reading (rows : List (List (Option Text))) (key : List (Option Text) → κ)
    (reads : List Text → Option κ) (fields : List String) (batchRows : Nat)
    (read rest : List (List (Option Text))) (lastKey : Option (List Text))
    (given : List (List ScannedRow)) : Prop where
  rows_eq : inKeyOrder key rows = read ++ rest
  names : Names reads key read lastKey
  bounded : ∀ batch ∈ given, batch ≠ [] ∧ batch.length ≤ batchRows
  given_eq : given.flatten = read.map (scannedRow fields)

section Reading

variable {read rest : List (List (Option Text))} {lastKey : Option (List Text)}
  {given : List (List ScannedRow)}

theorem Reading.start : Reading rows key reads fields batchRows [] (inKeyOrder key rows) none [] :=
  ⟨rfl, rfl, fun _ hb => absurd hb List.not_mem_nil, rfl⟩

theorem Reading.order (hr : Reading rows key reads fields batchRows read rest lastKey given) :
    given.flatten <+: (inKeyOrder key rows).map (scannedRow fields) := by
  rw [hr.given_eq, hr.rows_eq]
  exact ⟨rest.map (scannedRow fields), (List.map_append ..).symm⟩

theorem Reading.whole (hr : Reading rows key reads fields batchRows read rest lastKey given)
    (hrest : rest = []) : given.flatten = (inKeyOrder key rows).map (scannedRow fields) := by
  rw [hr.given_eq, hr.rows_eq, hrest, List.append_nil]

/-- A page is the next rows that have not been read. -/
theorem Answers.fetchBatch_eq (h : Answers tx spec scope batchRows fields rows key reads)
    (hr : Reading rows key reads fields batchRows read rest lastKey given) :
    fetchBatch tx spec scope batchRows lastKey =
      .ok ((rest.take batchRows).map (scannedRow fields)) := by
  have hlast := hr.names
  unfold fetchBatch
  cases lastKey with
  | none =>
    cases hlast
    rw [h.first, hr.rows_eq]
    rfl
  | some texts =>
    obtain ⟨k, hreads, hlast⟩ := hlast
    rw [h.next texts k hreads, inKeyOrder_after h.distinct hr.rows_eq hlast]

/-- The sink is given a page that is not empty, and its last row names where the next one starts. -/
theorem Answers.reading_page (h : Answers tx spec scope batchRows fields rows key reads)
    (hr : Reading rows key reads fields batchRows read rest lastKey given)
    {last : List (Option Text)} (hpage : (rest.take batchRows).getLast? = some last) :
    ∃ texts, keyTexts spec.primaryKey (scannedRow fields last) = .ok texts ∧
      Reading rows key reads fields batchRows (read ++ rest.take batchRows) (rest.drop batchRows)
        (some texts) (given ++ [(rest.take batchRows).map (scannedRow fields)]) := by
  have hmem : last ∈ rest := List.mem_of_mem_take (List.mem_of_getLast? hpage)
  have hin : last ∈ rows :=
    (inKeyOrder_perm key rows).mem_iff.1 (hr.rows_eq ▸ List.mem_append_right _ hmem)
  obtain ⟨texts, htexts, hreads⟩ := h.texts last hin
  refine ⟨texts, htexts, ?_, ⟨key last, hreads, ?_⟩, fun batch hb => ?_, ?_⟩
  · rw [List.append_assoc, List.take_append_drop, hr.rows_eq]
  · rw [List.getLast?_append, hpage]
    rfl
  · rcases List.mem_append.1 hb with hb | hb
    · exact hr.bounded batch hb
    · rw [List.mem_singleton.1 hb, List.length_map]
      refine ⟨fun hnil => ?_, List.length_take_le ..⟩
      rw [List.map_eq_nil_iff.1 hnil] at hpage
      cases hpage
  · simp [hr.given_eq]

end Reading

/-- What the loop has done when it stops: the batches are within bounds and hold the rows, in order,
up to where it stopped, and only the sink stops it early. -/
structure ScanEnds (batchRows : Nat) (sink : SnapshotRowSink) (all : List ScannedRow)
    (batches : List (List ScannedRow)) (result : Except GoError Unit) : Prop where
  bounded : ∀ batch ∈ batches, batch ≠ [] ∧ batch.length ≤ batchRows
  order : batches.flatten <+: all
  complete : (∀ given batch, sink given batch = none) → result = .ok () ∧ batches.flatten = all

/-- The loop from any page on.  Each page that is not the last shortens the rows still to be
read. -/
theorem Answers.scanFrom_ends (h : Answers tx spec scope batchRows fields rows key reads)
    (hbatch : 1 ≤ batchRows) (sink : SnapshotRowSink) {fuel : Nat}
    {read rest : List (List (Option Text))} {lastKey : Option (List Text)}
    {given : List (List ScannedRow)}
    (hr : Reading rows key reads fields batchRows read rest lastKey given)
    (hfuel : rest.length < fuel) :
    ∃ batches result,
      scanFrom tx spec scope batchRows sink fuel lastKey given = some (batches, result) ∧
      ScanEnds batchRows sink ((inKeyOrder key rows).map (scannedRow fields)) batches result := by
  induction fuel generalizing read rest lastKey given with
  | zero => exact absurd hfuel (Nat.not_lt_zero _)
  | succ fuel ih =>
    have hfetch := h.fetchBatch_eq hr
    cases hpage : (rest.take batchRows).getLast? with
    | none =>
      -- an empty page: everything has been read
      have hrest : rest = [] := by
        have htake := List.getLast?_eq_none_iff.1 hpage
        exact (List.take_eq_nil_iff.1 htake).resolve_left (by omega)
      refine ⟨given, .ok (), ?_, hr.bounded, hr.order, fun _ => ⟨rfl, hr.whole hrest⟩⟩
      simp only [scanFrom, hfetch, List.getLast?_map, hpage, Option.map_none]
    | some last =>
      obtain ⟨texts, htexts, hr'⟩ := h.reading_page hr hpage
      have hdrop : (rest.drop batchRows).length = rest.length - batchRows := List.length_drop ..
      have hlen : (rest.take batchRows).length = min batchRows rest.length := List.length_take ..
      have hpos : 0 < rest.length :=
        List.length_pos_of_mem (List.mem_of_mem_take (List.mem_of_getLast? hpage))
      cases hsink : sink given ((rest.take batchRows).map (scannedRow fields)) with
      | some err =>
        refine ⟨_, .error err, ?_, hr'.bounded, hr'.order, fun hnone => ?_⟩
        · simp only [scanFrom, hfetch, List.getLast?_map, hpage, Option.map_some, hsink]
        · rw [hnone] at hsink
          cases hsink
      | none =>
        by_cases hshort : (rest.take batchRows).length < batchRows
        · -- a page that is not full is the last one
          have hunread : rest.drop batchRows = [] := List.eq_nil_of_length_eq_zero (by omega)
          refine ⟨_, .ok (), ?_, hr'.bounded, hr'.order, fun _ => ⟨rfl, hr'.whole hunread⟩⟩
          simp only [scanFrom, hfetch, List.getLast?_map, hpage, Option.map_some, hsink, htexts,
            List.length_map, hshort, if_true]
        · obtain ⟨batches, result, hscan, hends⟩ := ih hr' (by omega)
          refine ⟨batches, result, ?_, hends⟩
          simp only [scanFrom, hfetch, List.getLast?_map, hpage, Option.map_some, hsink, htexts,
            List.length_map, hshort, if_false]
          exact hscan

/-- **Keyset pagination reads the scope exactly once.**  With fuel for one page more than there are
rows the scan ends; the batches it gave to the sink are not empty, have at most `batchRows` rows,
and hold the rows of the scope in key order, all of them unless the sink refused one. -/
theorem scanScopedRows_once (h : Answers tx spec scope batchRows fields rows key reads)
    (hbatch : 1 ≤ batchRows) (sink : SnapshotRowSink) {fuel : Nat} (hfuel : rows.length < fuel) :
    ∃ batches result,
      scanScopedRows tx spec scope batchRows sink fuel = some (batches, result) ∧
      (∀ batch ∈ batches, batch ≠ [] ∧ batch.length ≤ batchRows) ∧
      batches.flatten <+: (inKeyOrder key rows).map (scannedRow fields) ∧
      ((∀ given batch, sink given batch = none) →
        result = .ok () ∧ batches.flatten = (inKeyOrder key rows).map (scannedRow fields)) := by
  have hlen : (inKeyOrder key rows).length < fuel := by
    rw [(inKeyOrder_perm key rows).length_eq]
    exact hfuel
  obtain ⟨batches, result, hscan, hends⟩ := h.scanFrom_ends hbatch sink .start hlen
  exact ⟨batches, result, hscan, hends.bounded, hends.order, hends.complete⟩

namespace Demo

/-- A table with a key of two columns. -/
def pairSpec : ProjectionSpec := ⟨"pg", "public", "pairs", "tenant", ["a", "b"]⟩

/-- Its rows, in no order. -/
def pairs : List (List (Option Text)) :=
  [[some [2], some [1], none], [some [1], some [9], some [7]], [some [1], some [3], none],
    [some [2], some [0], some []]]

/-- The key of a row, as the table orders it. -/
def pairKey : List (Option Text) → Nat
  | some [a] :: some [b] :: _ => a.toNat * 256 + b.toNat
  | _ => 0

/-- The order of the key's texts. -/
def readsPair : List Text → Option Nat
  | [[a], [b]] => some (a.toNat * 256 + b.toNat)
  | _ => none

/-- A table of pairs that answers the queries of a scan. -/
def pairTx : Tx where
  sanitize parts := ".".intercalate (parts.map fun part => "\"" ++ part ++ "\"")
  query _
    | [.text _, .int n] =>
      .ok { fields := ["a", "b", "note"], rows := (inKeyOrder pairKey pairs).take n }
    | [.text _, .text [a], .text [b], .int n] =>
      .ok
        { fields := ["a", "b", "note"]
          rows := (inKeyOrder pairKey (pairs.filter fun row =>
            decide (a.toNat * 256 + b.toNat < pairKey row))).take n }
    | _ => .error (.sentinel .postgresServer)

theorem pairTx_answers (scope : Text) (batchRows : Nat) :
    Answers pairTx pairSpec scope batchRows ["a", "b", "note"] pairs pairKey readsPair where
  distinct := by decide
  texts := by
    intro row hrow
    simp only [pairs, List.mem_cons, List.not_mem_nil, or_false] at hrow
    rcases hrow with rfl | rfl | rfl | rfl <;> exact ⟨_, rfl, rfl⟩
  first := rfl
  next := by
    intro texts k hreads
    unfold readsPair at hreads
    split at hreads
    · cases hreads
      rfl
    · cases hreads

end Demo

theorem scanScopedRows_once_run :
    ∃ batches, scanScopedRows Demo.pairTx Demo.pairSpec [116] 2 (fun _ _ => none) 5 =
        some (batches, .ok ()) ∧
      batches.flatten =
        (inKeyOrder Demo.pairKey Demo.pairs).map (scannedRow ["a", "b", "note"]) := by
  obtain ⟨batches, result, hscan, -, -, hcomplete⟩ :=
    scanScopedRows_once (Demo.pairTx_answers [116] 2) (by decide) (fun _ _ => none)
      (show Demo.pairs.length < 5 by decide)
  obtain ⟨rfl, hflatten⟩ := hcomplete fun _ _ => rfl
  exact ⟨batches, hscan, hflatten⟩

end Watchd.Cdc
