import Watchd.Lib.Tables
import Watchd.Sdk.Receive

/-!
# The in-memory store

`MemoryStore` keeps a projection's rows in a map, keyed by the primary-key texts
joined with NUL bytes.  What it is for is a table keyed by the texts themselves
(`scopeTable`, the rows that a list of transactions leaves in one scope); a
store's map represents such a table, and `Apply` and `Put` keep it so.

`apply_represents` is the theorem for `Apply`.
-/

namespace Watchd.Sdk

open Watchd.Cdc Watchd.Lib Watchd.Wire

/-! ## The store -/

/-- A Go `map[string]Row`. -/
abbrev RowMap := Finmap fun _ : Text => Row

/-- `MemoryStore`, without its lock. -/
structure MemoryStore where
  primaryKey : List String
  rows : RowMap := ∅
  cursor : String := ""

/-- `ErrMissingKey`, with the column. -/
def errMissingKey (column : String) : String :=
  "watchd: row is missing a primary-key column: " ++ quote column

/-- The operation as the SDK spells it. -/
def Operation.text : Operation → String
  | .unknown => "unknown"
  | .insert => "insert"
  | .update => "update"
  | .delete => "delete"

/-- Encodes primary-key values as one map key. -/
def joinKey (parts : List Text) : Text := [(0 : UInt8)].intercalate parts

/-- The text a row is stored under. -/
def keyOf (primaryKey : List String) (key : TextMap) : Except String Text :=
  (primaryKey.mapM fun column =>
    match key.lookup column with
    | some value => Except.ok value
    | none => .error (errMissingKey column)).map joinKey

/-- The row an insert or update makes of `current`. -/
def mergeRow (current : Option Row) (values : Row) : Row :=
  collect (fun column value =>
    if value.unchanged then current.bind (·.lookup column) else some value) values

/-- The key of a snapshot row. -/
def snapshotKey (primaryKey : List String) (row : Row) : Except String TextMap :=
  primaryKey.foldlM (fun key column =>
    match row.lookup column with
    | some value =>
      if value.null || value.unchanged then .error (errMissingKey column)
      else .ok (key.insert column value.text)
    | none => .error (errMissingKey column)) ∅

/-- Adds a row to a snapshot. -/
def putRow (primaryKey : List String) (rows : RowMap) (row : Row) : Except String RowMap := do
  let key ← snapshotKey primaryKey row
  let id ← keyOf primaryKey key
  return rows.insert id row

/-- `memorySnapshot.Put`: the rows before a bad one stay put. -/
def put (primaryKey : List String) : RowMap → List Row → RowMap × Option String
  | rows, [] => (rows, none)
  | rows, row :: rest =>
    match putRow primaryKey rows row with
    | .error err => (rows, some err)
    | .ok rows => put primaryKey rows rest

namespace MemoryStore

/-- One change: a delete of an absent row is no error. -/
def applyChange (s : MemoryStore) (c : Change) : Except String MemoryStore :=
  match keyOf s.primaryKey c.key with
  | .error err => .error err
  | .ok id =>
    match c.operation with
    | .delete => .ok { s with rows := s.rows.erase id }
    | .insert | .update =>
      .ok { s with rows := s.rows.insert id (mergeRow (s.rows.lookup id) c.values) }
    | .unknown => .error ("watchd: unknown operation " ++ c.operation.text)

/-- The changes before a bad one stay applied. -/
def applyChanges : MemoryStore → List Change → MemoryStore × Option String
  | s, [] => (s, none)
  | s, c :: rest =>
    match s.applyChange c with
    | .error err => (s, some err)
    | .ok s => applyChanges s rest

/-- A batch: the changes before one that is refused stay, the cursor moves only with all of them. -/
def apply (s : MemoryStore) (b : Batch) : MemoryStore × Option String :=
  match s.applyChanges b.changes with
  | (s, some err) => (s, some err)
  | (s, none) => ({ s with cursor := b.cursor }, none)

/-- `Apply` of one batch after another, up to the first that is refused. -/
def applyAll : MemoryStore → List Batch → MemoryStore × Option String
  | s, [] => (s, none)
  | s, b :: bs =>
    match s.apply b with
    | (s, some err) => (s, some err)
    | (s, none) => applyAll s bs

/-- The cursor alone. -/
def saveCursor (s : MemoryStore) (cursor : String) : MemoryStore := { s with cursor := cursor }

/-- A snapshot replaces the rows; until the next cursor there is none. -/
def commit (s : MemoryStore) (rows : RowMap) : MemoryStore := { s with rows := rows, cursor := "" }

end MemoryStore

/-- The store as a `Store`; a writer holds the rows put so far. -/
def memoryStore : Store MemoryStore RowMap where
  cursor s := (s, .ok s.cursor)
  beginSnapshot s := (s, .ok ∅)
  put s w rows := let (w, err) := put s.primaryKey w rows; (s, w, err)
  commit s w := (s.commit w, none)
  abort s _ := (s, none)
  apply s b := s.apply b
  saveCursor s cursor := (s.saveCursor cursor, none)

/-! ## The rows of a scope -/

/-- The columns of a change with their values. -/
def cells (c : Cdc.Change) : Finmap fun _ : String => Cdc.Value := fill ∅ (c.columns.zip c.values)

/-- The row a change makes of the row it finds. -/
def changedRow (c : Cdc.Change) (current : Option Watch.Row) : Option Watch.Row :=
  match c.operation with
  | .delete => none
  | .insert | .update =>
    some (collect (fun column value =>
      match value.kind with
      | .text => some (some value.text)
      | .null => some none
      | .unchangedToast => current.bind (·.lookup column)) (cells c))

/-- A change as a write of the table of its projection. -/
def writeOf (primaryKey : List String) (c : Cdc.Change) : Write (List Text) Watch.Row :=
  ⟨primaryKey.map c.keyAt, changedRow c⟩

/-- The writes of a transaction's part for one scope. -/
def scopeWrites (p : Watch.Projection) (scope : Text) (t : Transaction) :
    List (Write (List Text) Watch.Row) :=
  (p.changes scope t).map (writeOf p.spec.primaryKey)

/-- The rows of one scope after the transactions `ts`. -/
def scopeTable (p : Watch.Projection) (scope : Text) (ts : List Transaction) :
    Table (List Text) Watch.Row :=
  Table.writeAll (fun _ => none) (ts.flatMap (scopeWrites p scope))

/-- A change whose key is complete and whose values carry it.  PostgreSQL's texts hold no NUL. -/
structure WellFormed (primaryKey : List String) (c : Cdc.Change) : Prop where
  key : ∀ column ∈ primaryKey, ∃ text, c.key.lookup column = some text ∧ (0 : UInt8) ∉ text
  values : c.operation ≠ .delete → ∀ column ∈ primaryKey,
    (cells c).lookup column = some ⟨.text, c.keyAt column⟩

/-- A row carries the key texts `k`. -/
def Carries (primaryKey : List String) (row : Watch.Row) (k : List Text) : Prop :=
  (∀ text ∈ k, (0 : UInt8) ∉ text) ∧ primaryKey.map row.lookup = k.map fun text => some (some text)

/-- Every row of a table carries the key it is held at. -/
def Keyed (primaryKey : List String) (tbl : Table (List Text) Watch.Row) : Prop :=
  ∀ k row, tbl k = some row → Carries primaryKey row k

/-! ## What the client receives -/

/-- A snapshot row as the client gets it. -/
def receivedRow (row : Watch.Row) : Row := convertValues (convertRow row)

/-- A change as it arrives. -/
def receivedChange (c : Cdc.Change) : Change := convertChange (Wire.convertChange c)

/-- A batch as the client gets it. -/
def received (srv : Server) (b : Watch.Batch) : Batch :=
  ⟨srv.encodeCursor b.cursor, b.changes.map receivedChange⟩

theorem eventOf_convertBatch (srv : Server) (b : Watch.Batch) :
    eventOf (srv.convertBatch b) = .batch (received srv b) := by
  simp [Server.convertBatch, eventOf, convertBatch, received, receivedChange]

theorem lookup_receivedRow (row : Watch.Row) (column : String) :
    (receivedRow row).lookup column = (row.lookup column).map fun value =>
      match value with
      | some text => { text := text }
      | none => { null := true } := by
  simp only [receivedRow, convertValues, convertRow, lookup_collect]
  cases row.lookup column with
  | none => rfl
  | some value => cases value <;> rfl

/-- A column value as the client gets it. -/
def valueOf (v : Cdc.Value) : Value :=
  match v.kind with
  | .text => { text := v.text }
  | .null => { null := true }
  | .unchangedToast => { unchanged := true }

theorem lookup_receivedChange (c : Cdc.Change) (column : String) :
    (receivedChange c).values.lookup column = ((cells c).lookup column).map valueOf := by
  have hfill := lookup_fill_map convertChangeValue (c.columns.zip c.values)
    (m := ∅) (fun _ => Finmap.lookup_empty _) column
  have hzip : c.columns.zip (c.values.map convertChangeValue) =
      (c.columns.zip c.values).map fun p => (p.1, convertChangeValue p.2) := List.zip_map_right ..
  simp only [receivedChange, convertChange, Wire.convertChange, convertValues, lookup_collect,
    convertChangeValues, hzip, hfill, cells, Option.bind_map]
  cases (fill ∅ (c.columns.zip c.values)).lookup column with
  | none => rfl
  | some v => cases hk : v.kind <;> simp [convertChangeValue, hk, convertValue, valueOf]

/-! ## Tables in the store -/

/-- Texts that can be a primary key. -/
def KeyOk (primaryKey : List String) (k : List Text) : Prop :=
  k.length = primaryKey.length ∧ ∀ text ∈ k, (0 : UInt8) ∉ text

theorem joinKey_inj {primaryKey : List String} {k k' : List Text} (hk : KeyOk primaryKey k)
    (hk' : KeyOk primaryKey k') (h : joinKey k = joinKey k') : k = k' :=
  intercalate_inj (hk.1.trans hk'.1.symm) hk.2 hk'.2 h

/-- The map holds the rows of a table, each under its joined key. -/
structure Holds (primaryKey : List String) (rows : RowMap)
    (tbl : Table (List Text) Row) : Prop where
  lookup : ∀ k, KeyOk primaryKey k → rows.lookup (joinKey k) = tbl k
  keyed : ∀ id ∈ rows, ∃ k, KeyOk primaryKey k ∧ id = joinKey k

namespace Holds

variable {primaryKey : List String} {rows rows' : RowMap} {tbl : Table (List Text) Row}
  {k : List Text}

theorem empty : Holds primaryKey ∅ fun _ => none :=
  ⟨fun _ _ => rfl, fun _ hid => absurd hid Finmap.notMem_empty⟩

/-- A table is held in one way only. -/
theorem unique (h : Holds primaryKey rows tbl) (h' : Holds primaryKey rows' tbl) :
    rows = rows' := by
  refine Finmap.ext_lookup fun id => ?_
  by_cases hid : ∃ k, KeyOk primaryKey k ∧ id = joinKey k
  · obtain ⟨k, hk, rfl⟩ := hid
    rw [h.lookup k hk, h'.lookup k hk]
  · rw [Finmap.lookup_eq_none.2 fun hmem => hid (h.keyed id hmem),
      Finmap.lookup_eq_none.2 fun hmem => hid (h'.keyed id hmem)]

theorem insert (h : Holds primaryKey rows tbl) (hk : KeyOk primaryKey k) (row : Row) :
    Holds primaryKey (rows.insert (joinKey k) row) (Function.update tbl k (some row)) := by
  refine ⟨fun k' hk' => ?_, fun id hid => ?_⟩
  · by_cases heq : k' = k
    · subst heq
      simp
    · have hne : joinKey k' ≠ joinKey k := fun hj => heq (joinKey_inj hk' hk hj)
      rw [Finmap.lookup_insert_of_ne _ hne, Function.update_of_ne heq]
      exact h.lookup k' hk'
  · rcases Finmap.mem_insert.1 hid with rfl | hmem
    · exact ⟨k, hk, rfl⟩
    · exact h.keyed id hmem

theorem erase (h : Holds primaryKey rows tbl) (hk : KeyOk primaryKey k) :
    Holds primaryKey (rows.erase (joinKey k)) (Function.update tbl k none) := by
  refine ⟨fun k' hk' => ?_, fun id hid => h.keyed id (Finmap.mem_erase.1 hid).2⟩
  by_cases heq : k' = k
  · subst heq
    simp
  · have hne : joinKey k' ≠ joinKey k := fun hj => heq (joinKey_inj hk' hk hj)
    rw [Finmap.lookup_erase_ne hne, Function.update_of_ne heq]
    exact h.lookup k' hk'

end Holds

/-- The map of a store holds the rows of a table. -/
structure Represents (primaryKey : List String) (rows : RowMap)
    (tbl : Table (List Text) Watch.Row) :
    Prop where
  lookup : ∀ k, KeyOk primaryKey k → rows.lookup (joinKey k) = (tbl k).map receivedRow
  keyed : ∀ id ∈ rows, ∃ k, KeyOk primaryKey k ∧ id = joinKey k

namespace Represents

variable {primaryKey : List String} {rows rows' : RowMap} {tbl : Table (List Text) Watch.Row}
  {k : List Text}

/-- The rows of the table, as the client gets them, are what is held. -/
theorem holds (h : Represents primaryKey rows tbl) :
    Holds primaryKey rows fun k => (tbl k).map receivedRow :=
  ⟨h.lookup, h.keyed⟩

theorem of_holds {held : Table (List Text) Row} (h : Holds primaryKey rows held)
    (heq : ∀ k, held k = (tbl k).map receivedRow) : Represents primaryKey rows tbl :=
  ⟨fun k hk => (h.lookup k hk).trans (heq k), h.keyed⟩

theorem empty : Represents primaryKey ∅ fun _ => none := of_holds .empty fun _ => rfl

/-- A table is held in one way only. -/
theorem unique (h : Represents primaryKey rows tbl) (h' : Represents primaryKey rows' tbl) :
    rows = rows' :=
  h.holds.unique h'.holds

theorem map_update (tbl : Table (List Text) Watch.Row) (k : List Text) (row : Option Watch.Row)
    (k' : List Text) :
    Function.update (fun k => (tbl k).map receivedRow) k (row.map receivedRow) k' =
      (Function.update tbl k row k').map receivedRow := by
  by_cases heq : k' = k
  · subst heq
    simp
  · simp [Function.update_of_ne heq]

theorem insert (h : Represents primaryKey rows tbl) (hk : KeyOk primaryKey k) (row : Watch.Row) :
    Represents primaryKey (rows.insert (joinKey k) (receivedRow row))
      (Function.update tbl k (some row)) :=
  of_holds (h.holds.insert hk (receivedRow row)) (map_update tbl k (some row))

theorem erase (h : Represents primaryKey rows tbl) (hk : KeyOk primaryKey k) :
    Represents primaryKey (rows.erase (joinKey k)) (Function.update tbl k none) :=
  of_holds (h.holds.erase hk) (map_update tbl k none)

end Represents

/-! ## Tuples -/

/-- The tuple of a key: its values of the primary-key columns, in order. -/
def tupleOf (primaryKey : List String) (key : TextMap) : Option (List Text) :=
  primaryKey.mapM fun column => key.lookup column

/-- The text a row has in a column. -/
def Row.text (row : Row) (column : String) : Option Text :=
  (row.lookup column).bind fun value =>
    if value.null || value.unchanged then none else some value.text

/-- The tuple of a row. -/
def rowTuple (primaryKey : List String) (row : Row) : Option (List Text) :=
  primaryKey.mapM row.text

/-- `keyOf` joins the tuple. -/
theorem keyOf_eq_ok {primaryKey : List String} {key : TextMap} {id : Text} :
    keyOf primaryKey key = .ok id ↔ ∃ k, tupleOf primaryKey key = some k ∧ id = joinKey k := by
  have hcolumn : ∀ (column : String) (text : Text),
      (match key.lookup column with
        | some value => Except.ok value
        | none => .error (errMissingKey column)) = .ok text ↔ key.lookup column = some text := by
    intro column text
    cases key.lookup column <;> simp
  have hparts : ∀ k, (primaryKey.mapM fun column =>
      match key.lookup column with
      | some value => Except.ok value
      | none => .error (errMissingKey column)) = .ok k ↔ tupleOf primaryKey key = some k := by
    intro k
    simp only [mapM_eq_ok, tupleOf, mapM_eq_some, hcolumn]
  unfold keyOf
  simp only [← hparts]
  cases (primaryKey.mapM fun column =>
    match key.lookup column with
    | some value => Except.ok value
    | none => .error (errMissingKey column)) with
  | error err => exact ⟨nofun, nofun⟩
  | ok k => simp [Except.map, eq_comm]

/-- The key of a row has the row's tuple. -/
theorem snapshotKey_eq_ok {primaryKey : List String} {row : Row} {key : TextMap} :
    snapshotKey primaryKey row = .ok key ↔
      (∀ column ∈ primaryKey, row.text column ≠ none) ∧
        key =
          primaryKey.foldl (fun key column => key.insert column ((row.text column).getD [])) ∅ := by
  have hloop : snapshotKey primaryKey row = primaryKey.foldlM (fun key column =>
      if row.text column = none then .error (errMissingKey column)
      else .ok (key.insert column ((row.text column).getD []))) ∅ := by
    unfold snapshotKey
    congr 1
    funext key column
    cases hvalue : row.lookup column with
    | none => simp [Row.text, hvalue]
    | some value =>
      cases hempty : value.null || value.unchanged with
      | true => simp only [Row.text, hvalue, Option.bind_some, hempty, if_true]
      | false =>
        simp only [Row.text, hvalue, Option.bind_some, hempty]
        rfl
  rw [hloop]
  exact foldlM_guard

theorem keyOf_eq {primaryKey : List String} {key : TextMap} {text : String → Text}
    (h : ∀ column ∈ primaryKey, key.lookup column = some (text column)) :
    keyOf primaryKey key = .ok (joinKey (primaryKey.map text)) :=
  keyOf_eq_ok.2 ⟨_, mapM_eq_some_map h, rfl⟩

/-- `Put` keeps a row under its joined tuple. -/
theorem putRow_eq_ok {primaryKey : List String} {rows rows' : RowMap} {row : Row} :
    putRow primaryKey rows row = .ok rows' ↔
      ∃ k, rowTuple primaryKey row = some k ∧ rows' = rows.insert (joinKey k) row := by
  have hput : (∀ column ∈ primaryKey, row.text column ≠ none) →
      rowTuple primaryKey row = some (primaryKey.map fun column => (row.text column).getD []) ∧
        putRow primaryKey rows row = .ok
          (rows.insert (joinKey (primaryKey.map fun column => (row.text column).getD [])) row) := by
    intro hfull
    refine ⟨mapM_eq_some_map fun column hc => ?_, ?_⟩
    · obtain ⟨text, htext⟩ := Option.ne_none_iff_exists'.1 (hfull column hc)
      rw [htext]
      rfl
    · refine bind_eq_ok.2 ⟨_, snapshotKey_eq_ok.2 ⟨hfull, rfl⟩, bind_eq_ok.2 ⟨_, ?_, rfl⟩⟩
      exact keyOf_eq fun column hc => by rw [lookup_foldl_insert, if_pos hc]
  constructor
  · intro h
    obtain ⟨key, hkey, -⟩ := bind_eq_ok.1 h
    obtain ⟨htuple, heq⟩ := hput (snapshotKey_eq_ok.1 hkey).1
    rw [heq] at h
    cases h
    exact ⟨_, htuple, rfl⟩
  · rintro ⟨k, hk, rfl⟩
    have hfull : ∀ column ∈ primaryKey, row.text column ≠ none :=
      ((List.forall₂_and_left primaryKey k).1 ((mapM_eq_some.1 hk).imp fun column text htext =>
        ⟨by simp [htext], htext⟩)).1
    obtain ⟨htuple, heq⟩ := hput hfull
    rw [hk] at htuple
    cases htuple
    exact heq

/-! ## Apply -/

theorem WellFormed.keyAt {primaryKey : List String} {c : Cdc.Change} (h : WellFormed primaryKey c)
    {column : String} (hc : column ∈ primaryKey) :
    c.key.lookup column = some (c.keyAt column) ∧ (0 : UInt8) ∉ c.keyAt column := by
  obtain ⟨text, hlookup, hnul⟩ := h.key column hc
  have heq : c.keyAt column = text := by simp [Cdc.Change.keyAt, hlookup]
  rw [heq]
  exact ⟨hlookup, hnul⟩

theorem WellFormed.keyOk {primaryKey : List String} {c : Cdc.Change} (h : WellFormed primaryKey c) :
    KeyOk primaryKey (primaryKey.map c.keyAt) := by
  refine ⟨List.length_map .., ?_⟩
  intro text htext
  obtain ⟨column, hc, rfl⟩ := List.mem_map.1 htext
  exact (h.keyAt hc).2

/-- The store makes of a row what the change makes of it. -/
theorem mergeRow_received {c : Cdc.Change} {current : Option Watch.Row} {row : Watch.Row}
    (h : changedRow c current = some row) :
    mergeRow (current.map receivedRow) (receivedChange c).values = receivedRow row := by
  refine Finmap.ext_lookup fun column => ?_
  have hrow : row.lookup column = ((cells c).lookup column).bind fun value =>
      match value.kind with
      | .text => some (some value.text)
      | .null => some none
      | .unchangedToast => current.bind (·.lookup column) := by
    unfold changedRow at h
    cases hop : c.operation with
    | delete =>
      rw [hop] at h
      cases h
    | insert =>
      rw [hop] at h
      cases h
      exact lookup_collect ..
    | update =>
      rw [hop] at h
      cases h
      exact lookup_collect ..
  rw [lookup_receivedRow, hrow, mergeRow, lookup_collect, lookup_receivedChange]
  cases (cells c).lookup column with
  | none => rfl
  | some v =>
    cases hk : v.kind with
    | text => simp [valueOf, hk]
    | null => simp [valueOf, hk]
    | unchangedToast =>
      cases current with
      | none => simp [valueOf, hk]
      | some r => simp [valueOf, hk, lookup_receivedRow]

namespace MemoryStore

variable {primaryKey : List String} {s : MemoryStore} {tbl : Table (List Text) Watch.Row}

/-- Applying a change writes it to the table. -/
theorem applyChange_represents (hs : s.primaryKey = primaryKey)
    (h : Represents primaryKey s.rows tbl) {c : Cdc.Change} (hc : WellFormed primaryKey c) :
    ∃ rows, s.applyChange (receivedChange c) = .ok { s with rows := rows } ∧
      Represents primaryKey rows (tbl.write (writeOf primaryKey c)) := by
  have hkey : keyOf s.primaryKey (receivedChange c).key =
      .ok (joinKey (primaryKey.map c.keyAt)) := by
    rw [hs]
    exact keyOf_eq fun column hcol => (hc.keyAt hcol).1
  have hop : (receivedChange c).operation = operations (Wire.operations c.operation) := rfl
  have hwrite : tbl.write (writeOf primaryKey c) = Function.update tbl (primaryKey.map c.keyAt)
      (changedRow c (tbl (primaryKey.map c.keyAt))) := rfl
  rw [hwrite]
  cases hrow : changedRow c (tbl (primaryKey.map c.keyAt)) with
  | none =>
    have hdelete : c.operation = .delete := by
      cases hc : c.operation with
      | delete => rfl
      | insert => simp [changedRow, hc] at hrow
      | update => simp [changedRow, hc] at hrow
    refine ⟨s.rows.erase (joinKey (primaryKey.map c.keyAt)), ?_, h.erase hc.keyOk⟩
    simp only [applyChange, hkey, hop, hdelete, Wire.operations, operations]
  | some row =>
    refine ⟨s.rows.insert (joinKey (primaryKey.map c.keyAt)) (receivedRow row), ?_,
      h.insert hc.keyOk row⟩
    have hmerge := mergeRow_received hrow
    rw [← h.lookup _ hc.keyOk] at hmerge
    cases hc : c.operation with
    | delete => simp [changedRow, hc] at hrow
    | insert => simp only [applyChange, hkey, hop, hc, Wire.operations, operations, hmerge]
    | update => simp only [applyChange, hkey, hop, hc, Wire.operations, operations, hmerge]

theorem applyChanges_represents {cs : List Cdc.Change} (hs : s.primaryKey = primaryKey)
    (h : Represents primaryKey s.rows tbl) (hcs : ∀ c ∈ cs, WellFormed primaryKey c) :
    ∃ rows, s.applyChanges (cs.map receivedChange) = ({ s with rows := rows }, none) ∧
      Represents primaryKey rows (tbl.writeAll (cs.map (writeOf primaryKey))) := by
  induction cs generalizing s tbl with
  | nil => exact ⟨s.rows, rfl, h⟩
  | cons c cs ih =>
    rw [List.forall_mem_cons] at hcs
    obtain ⟨rows, happly, hrows⟩ := applyChange_represents hs h hcs.1
    obtain ⟨rows', hrest, hrows'⟩ := ih (s := { s with rows := rows }) hs hrows hcs.2
    exact ⟨rows', by simp only [List.map_cons, applyChanges, happly, hrest], hrows'⟩

/-- **Apply** writes a batch's changes to the table and keeps its cursor. -/
theorem apply_represents {b : Watch.Batch} (srv : Server) (hs : s.primaryKey = primaryKey)
    (h : Represents primaryKey s.rows tbl) (hb : ∀ c ∈ b.changes, WellFormed primaryKey c) :
    ∃ rows, s.apply (received srv b) = (⟨s.primaryKey, rows, srv.encodeCursor b.cursor⟩, none) ∧
      Represents primaryKey rows (tbl.writeAll (b.changes.map (writeOf primaryKey))) := by
  obtain ⟨rows, happly, hrows⟩ := applyChanges_represents hs h hb
  exact ⟨rows, by simp only [apply, received, happly], hrows⟩

end MemoryStore

/-! ## Put -/

/-- The primary-key texts of a row. -/
def rowKey (primaryKey : List String) (row : Watch.Row) : List Text :=
  primaryKey.map fun column => ((row.lookup column).bind fun value => value).getD []

/-- Putting a row, as a write. -/
def rowWrite (primaryKey : List String) (row : Watch.Row) : Write (List Text) Watch.Row :=
  ⟨rowKey primaryKey row, fun _ => some row⟩

section Put

variable {primaryKey : List String}

theorem Carries.eq_rowKey {row : Watch.Row} {k : List Text} (h : Carries primaryKey row k) :
    k = rowKey primaryKey row := by
  have hk := congrArg (List.map fun value : Option (Option Text) =>
    (value.bind fun v => v).getD []) h.2
  rw [List.map_map, List.map_map] at hk
  calc k = k.map id := (List.map_id k).symm
    _ = rowKey primaryKey row := hk.symm

theorem Carries.keyOk {row : Watch.Row} {k : List Text} (h : Carries primaryKey row k) :
    KeyOk primaryKey k :=
  ⟨by simpa using congrArg List.length h.2.symm, h.1⟩

theorem Carries.lookup {row : Watch.Row} {k : List Text} (h : Carries primaryKey row k)
    {column : String} (hc : column ∈ primaryKey) :
    row.lookup column = some (some (((row.lookup column).bind fun value => value).getD [])) := by
  have hmem : row.lookup column ∈ k.map fun text => some (some text) := by
    rw [← h.2]
    exact List.mem_map_of_mem hc
  obtain ⟨text, -, htext⟩ := List.mem_map.1 hmem
  simp [← htext]

/-- Putting a row writes it to the table. -/
theorem putRow_represents {rows : RowMap} {tbl : Table (List Text) Watch.Row}
    (h : Represents primaryKey rows tbl) {row : Watch.Row}
    (hrow : Carries primaryKey row (rowKey primaryKey row)) :
    ∃ rows', putRow primaryKey rows (receivedRow row) = .ok rows' ∧
      Represents primaryKey rows' (tbl.write (rowWrite primaryKey row)) := by
  refine ⟨_, putRow_eq_ok.2 ⟨_, mapM_eq_some_map fun column hc => ?_, rfl⟩, h.insert hrow.keyOk row⟩
  rw [Row.text, lookup_receivedRow, hrow.lookup hc]
  rfl

theorem put_represents {rows : RowMap} {tbl : Table (List Text) Watch.Row}
    (h : Represents primaryKey rows tbl) {new : List Watch.Row}
    (hnew : ∀ row ∈ new, Carries primaryKey row (rowKey primaryKey row)) :
    ∃ rows', put primaryKey rows (new.map receivedRow) = (rows', none) ∧
      Represents primaryKey rows' (tbl.writeAll (new.map (rowWrite primaryKey))) := by
  induction new generalizing rows tbl with
  | nil => exact ⟨rows, rfl, h⟩
  | cons row new ih =>
    rw [List.forall_mem_cons] at hnew
    obtain ⟨rows₁, hput, h₁⟩ := putRow_represents h hnew.1
    obtain ⟨rows', hrest, h'⟩ := ih h₁ hnew.2
    exact ⟨rows', by simp only [List.map_cons, put, hput, hrest], h'⟩

/-- Writing every row of a table gives the table. -/
theorem writeAll_rows {tbl : Table (List Text) Watch.Row} (htbl : Keyed primaryKey tbl)
    {rows : List Watch.Row} (hrows : ∀ row, row ∈ rows ↔ ∃ k, tbl k = some row) :
    Table.writeAll (fun _ => none) (rows.map (rowWrite primaryKey)) = tbl := by
  funext k
  -- the rows written at `k` are the row the table holds there
  have hat : ∀ row ∈ rows, rowKey primaryKey row = k → tbl k = some row := by
    intro row hmem hk
    obtain ⟨k', hk'⟩ := (hrows row).1 hmem
    rw [← hk, ← (htbl k' row hk').eq_rowKey]
    exact hk'
  have hfold : ∀ (ws : List (Write (List Text) Watch.Row)) (r : Option Watch.Row),
      (∀ w ∈ ws, ∀ r, w.effect r = tbl k) → (r = tbl k ∨ ws ≠ []) →
      ws.foldl (fun r w => w.effect r) r = tbl k := by
    intro ws
    induction ws with
    | nil => exact fun r _ hr => hr.resolve_right fun hne => hne rfl
    | cons w ws ih =>
      intro r hws _
      rw [List.forall_mem_cons] at hws
      exact ih _ hws.2 (.inl (hws.1 r))
  rw [Table.writeAll_apply]
  refine hfold _ _ ?_ ?_
  · intro w hw r
    obtain ⟨hmem, hk⟩ := List.mem_filter.1 hw
    obtain ⟨row, hrow, rfl⟩ := List.mem_map.1 hmem
    exact (hat row hrow (of_decide_eq_true hk)).symm
  · cases htk : tbl k with
    | none => exact .inl rfl
    | some row =>
      refine .inr (List.ne_nil_of_mem (a := rowWrite primaryKey row) (List.mem_filter.2 ⟨?_, ?_⟩))
      · exact List.mem_map_of_mem ((hrows row).2 ⟨k, htk⟩)
      · exact decide_eq_true (htbl k row htk).eq_rowKey.symm

end Put

/-! ## The rows of a scope carry their keys -/

theorem Keyed.write {primaryKey : List String} {tbl : Table (List Text) Watch.Row}
    (h : Keyed primaryKey tbl) {c : Cdc.Change} (hc : WellFormed primaryKey c) :
    Keyed primaryKey (tbl.write (writeOf primaryKey c)) := by
  intro k row hk
  by_cases heq : k = primaryKey.map c.keyAt
  · subst heq
    have hrow : changedRow c (tbl (primaryKey.map c.keyAt)) = some row := by
      simpa [Table.write, writeOf] using hk
    refine ⟨hc.keyOk.2, ?_⟩
    rw [List.map_map]
    refine List.map_congr_left fun column hcol => ?_
    have hvalue : c.operation ≠ .delete → row.lookup column = some (some (c.keyAt column)) := by
      intro hop
      have hcell := hc.values hop column hcol
      unfold changedRow at hrow
      cases hop' : c.operation with
      | delete => exact absurd hop' hop
      | insert =>
        rw [hop'] at hrow
        cases hrow
        rw [lookup_collect, hcell]
        rfl
      | update =>
        rw [hop'] at hrow
        cases hrow
        rw [lookup_collect, hcell]
        rfl
    refine hvalue fun hop => ?_
    simp [changedRow, hop] at hrow
  · have hother : tbl.write (writeOf primaryKey c) k = tbl k := Function.update_of_ne heq _ _
    exact h k row (hother ▸ hk)

theorem Keyed.writeAll {primaryKey : List String} {tbl : Table (List Text) Watch.Row}
    (h : Keyed primaryKey tbl) {cs : List Cdc.Change} (hcs : ∀ c ∈ cs, WellFormed primaryKey c) :
    Keyed primaryKey (tbl.writeAll (cs.map (writeOf primaryKey))) := by
  induction cs generalizing tbl with
  | nil => exact h
  | cons c cs ih =>
    rw [List.forall_mem_cons] at hcs
    exact ih (h.write hcs.1) hcs.2

/-- Every change of the scope in `ts` is well formed. -/
def AllWellFormed (p : Watch.Projection) (scope : Text) (ts : List Transaction) : Prop :=
  ∀ t ∈ ts, ∀ c ∈ p.changes scope t, WellFormed p.spec.primaryKey c

theorem scopeTable_append (p : Watch.Projection) (scope : Text) (ts : List Transaction)
    (t : Transaction) :
    scopeTable p scope (ts ++ [t]) = (scopeTable p scope ts).writeAll (scopeWrites p scope t) := by
  rw [scopeTable, List.flatMap_append, Table.writeAll_append]
  simp [scopeTable]

theorem scopeTable_keyed {p : Watch.Projection} {scope : Text} {ts : List Transaction}
    (h : AllWellFormed p scope ts) : Keyed p.spec.primaryKey (scopeTable p scope ts) := by
  have hmap : ts.flatMap (scopeWrites p scope) =
      (ts.flatMap (p.changes scope)).map (writeOf p.spec.primaryKey) := by
    rw [List.map_flatMap]
    rfl
  rw [scopeTable, hmap]
  refine Keyed.writeAll (fun k row hk => by cases hk) fun c hc => ?_
  obtain ⟨t, ht, hc⟩ := List.mem_flatMap.1 hc
  exact h t ht c hc

end Watchd.Sdk
