import Mathlib.Data.List.Sort
import Watchd.Cdc.Types
import Watchd.Lib.Loops

/-!
# Relation shapes

What row decoding depends on in a table: the columns the stream carries and how
rows are keyed.  A baseline is read from the catalog when a projection spec is
validated (`projectionShape`) and kept in the registry `Shapes`; the shape the
stream presents comes from each pgoutput Relation message (`shapeOfRelation`).
`RelationShape.diff` compares the two.
-/

namespace Watchd.Cdc

open Watchd.Lib

/-! ## pgoutput Relation messages -/

/-- A column of a relation message; flag 1 marks a key column. -/
structure RelationColumn where
  flags : UInt8
  name : String
  dataType : UInt32
  deriving DecidableEq, Repr

/-- A pgoutput Relation. -/
structure RelationMessage where
  relationID : UInt32
  nspace : String
  relationName : String
  replicaIdentity : UInt8
  columns : List RelationColumn
  deriving DecidableEq, Repr

/-- The columns flagged as part of the replica identity, in column order. -/
def RelationMessage.keyColumns (m : RelationMessage) : List RelationColumn :=
  m.columns.filter fun c => c.flags = 1

/-! ## Shapes -/

/-- What of a column is compared. -/
structure ShapeColumn where
  name : String
  typeOID : UInt32
  deriving DecidableEq, Repr

/-- What of a table is compared with its baseline. -/
structure RelationShape where
  table : String
  oid : UInt32
  replicaIdentity : UInt8
  columns : List ShapeColumn
  /-- the replica-identity column names, sorted -/
  key : List String
  deriving DecidableEq, Repr

/-- `slices.Sort` on strings. -/
def sortStrings (names : List String) : List String :=
  names.insertionSort (· ≤ ·)

theorem mem_sortStrings {names : List String} {name : String} :
    name ∈ sortStrings names ↔ name ∈ names :=
  (List.perm_insertionSort _ names).mem_iff

/-- The shape a relation message describes. -/
def shapeOfRelation (m : RelationMessage) : RelationShape where
  table := qualifiedTable m.nspace m.relationName
  oid := m.relationID
  replicaIdentity := m.replicaIdentity
  columns := m.columns.map fun c => ⟨c.name, c.dataType⟩
  key := sortStrings (m.keyColumns.map (·.name))

namespace RelationShape

/-- The loop of `diff` over the two column lists; `all` is the whole actual list. -/
def diffColumns (all : List ShapeColumn) : List ShapeColumn → List ShapeColumn → String
  | [], [] => ""
  | c :: _, [] => "column " ++ quote c.name ++ " was dropped"
  | [], a :: _ => "column " ++ quote a.name ++ " was added"
  | c :: cs, a :: as =>
    if c.name ≠ a.name then
      if all.any fun x => x.name = c.name then "column " ++ quote a.name ++ " was added or moved"
      else "column " ++ quote c.name ++ " was dropped or renamed"
    else if c.typeOID ≠ a.typeOID then
      "column " ++ quote c.name ++ " changed type (type " ++ toString c.typeOID.toNat ++
        ", now " ++ toString a.typeOID.toNat ++ ")"
    else diffColumns all cs as

/-- How `actual` departs from `s`, or `""` if it does not. -/
def diff (s actual : RelationShape) : String :=
  if s.oid ≠ actual.oid then
    "table was dropped and recreated (relation " ++ toString s.oid.toNat ++ ", now " ++
      toString actual.oid.toNat ++ ")"
  else if s.replicaIdentity ≠ actual.replicaIdentity then
    "replica identity changed from " ++ quoteByte s.replicaIdentity ++ " to " ++
      quoteByte actual.replicaIdentity
  else if s.key ≠ actual.key then
    "key columns changed from (" ++ ",".intercalate s.key ++ ") to (" ++
      ",".intercalate actual.key ++ ")"
  else diffColumns actual.columns s.columns actual.columns

theorem diffColumns_eq_empty_iff (all : List ShapeColumn) {cs as : List ShapeColumn} :
    diffColumns all cs as = "" ↔ cs = as := by
  induction cs generalizing as with
  | nil => cases as <;> simp [diffColumns]
  | cons c cs ih =>
    cases as with
    | nil => simp [diffColumns]
    | cons a as =>
      obtain ⟨cname, ctype⟩ := c
      obtain ⟨aname, atype⟩ := a
      by_cases hname : cname = aname
      · by_cases htype : ctype = atype
        · simp [diffColumns, hname, htype, ih]
        · simp [diffColumns, hname, htype]
      · have hne : (⟨cname, ctype⟩ : ShapeColumn) :: cs ≠ ⟨aname, atype⟩ :: as := by
          simp [hname]
        simp only [diffColumns, ne_eq, hname, not_false_eq_true, if_true, hne, iff_false]
        split <;> simp

/-- **Two shapes have no difference** exactly when they agree on everything but the name. -/
theorem diff_eq_empty_iff {s actual : RelationShape} :
    s.diff actual = "" ↔ s.oid = actual.oid ∧ s.replicaIdentity = actual.replicaIdentity ∧
      s.key = actual.key ∧ s.columns = actual.columns := by
  unfold diff
  split
  · next h => simp [h]
  · next hoid =>
    split
    · next h => simp [h]
    · next hident =>
      split
      · next h => simp [h]
      · next hkey =>
        rw [diffColumns_eq_empty_iff]
        simp only [ne_eq, not_not] at hoid hident hkey
        simp [hoid, hident, hkey]

end RelationShape

/-! ## The registry of baselines -/

/-- The registry of baselines; `gen` counts the recordings. -/
structure Shapes where
  gen : Nat := 0
  byTable : Finmap fun _ : String => RelationShape := ∅
  byOID : Finmap fun _ : UInt32 => RelationShape := ∅
  deriving DecidableEq

namespace Shapes

/-- The baseline of a table. -/
def baselineByTable (s : Shapes) (table : String) : Option RelationShape := s.byTable.lookup table

/-- The baseline of a relation, whatever its name. -/
def baselineByOID (s : Shapes) (oid : UInt32) : Option RelationShape := s.byOID.lookup oid

/-- Makes `shape` the baseline of its table.  An unchanged shape leaves the generation alone. -/
def record (s : Shapes) (shape : RelationShape) : Shapes :=
  match s.baselineByTable shape.table with
  | none =>
    { gen := s.gen + 1
      byTable := s.byTable.insert shape.table shape
      byOID := s.byOID.insert shape.oid shape }
  | some previous =>
    if previous.diff shape = "" then s
    else
      { gen := s.gen + 1
        byTable := s.byTable.insert shape.table shape
        byOID := (s.byOID.erase previous.oid).insert shape.oid shape }

end Shapes

/-! ## Reading a baseline from the catalog -/

/-- What the catalog says about a published table. -/
structure Catalog where
  oid : UInt32
  /-- `relreplident` -/
  identity : String
  /-- the live columns in `attnum` order -/
  attributes : List ShapeColumn
  /-- the columns the publication carries: all of them, or its column list -/
  attnames : List String
  /-- the columns of the index marked `indisreplident`, in the order the query returns them -/
  replicaIndex : List String
  /-- no two live columns of a table share a name -/
  names_nodup : (attributes.map (·.name)).Nodup

/-- The names of the columns the publication carries. -/
def Catalog.published (c : Catalog) : List String :=
  (c.attributes.map (·.name)).filter (· ∈ c.attnames)

/-- `identity[0]`, if `len(identity) == 1`. -/
def Catalog.identityByte (c : Catalog) : Option UInt8 :=
  match c.identity.toUTF8.data.toList with
  | [b] => some b
  | _ => none

/-- One query of `projectionShape`. -/
inductive ShapeQuery
  | relation
  | columns
  | replicaIndex
  deriving DecidableEq, Repr

/-- One part of `pgx.Identifier.Sanitize`. -/
def sanitizePart (part : String) : String :=
  "\"" ++ String.join (part.toList.map fun c =>
    if c.toNat = 0 then "" else if c = '"' then "\"\"" else String.singleton c) ++ "\""

/-- `pgx.Identifier.Sanitize` of the spec's table. -/
def ProjectionSpec.sanitized (spec : ProjectionSpec) : String :=
  sanitizePart spec.schema ++ "." ++ sanitizePart spec.table

/-- Runs a query: the classified error it fails with, or its answer. -/
def queried {α : Type} (fails : ShapeQuery → Option GoError) (q : ShapeQuery) (answer : α) :
    Except GoError α :=
  match fails q with
  | some err => .error err
  | none => .ok answer

/-- The switch of `projectionShape` on the replica identity. -/
def identityKey (fails : ShapeQuery → Option GoError) (catalog : Catalog) (spec : ProjectionSpec)
    (columns : List ShapeColumn) (replicaIdentity : UInt8) : Except GoError (List String) :=
  if replicaIdentity = 'd'.toUInt8 then .ok spec.primaryKey
  else if replicaIdentity = 'f'.toUInt8 then .ok (columns.map (·.name))
  else if replicaIdentity = 'i'.toUInt8 then queried fails .replicaIndex catalog.replicaIndex
  else .ok []

/-- Reads `spec`'s table shape as the stream will present it.  `fails` says which queries fail. -/
def projectionShape (fails : ShapeQuery → Option GoError) (catalog : Catalog)
    (spec : ProjectionSpec) : Except GoError RelationShape := do
  let (oid, published) ← queried fails .relation (catalog.oid, catalog.published)
  match catalog.identityByte with
  | none =>
    .error (errorf .invalidReaderConfig (": projection table " ++ spec.sanitized ++
      " has unexpected replica identity " ++ quote catalog.identity))
  | some replicaIdentity =>
    let columns ← queried fails .columns (catalog.attributes.filter (·.name ∈ published))
    let key ← identityKey fails catalog spec columns replicaIdentity
    return ⟨spec.schema ++ "." ++ spec.table, oid, replicaIdentity, columns, sortStrings key⟩

/-- Whether the replica identity includes `column`: the primary key, every published column, or
the columns of the replica-identity index. -/
def Catalog.Identifies (c : Catalog) (spec : ProjectionSpec) (column : String) : Prop :=
  c.identityByte = some 'd'.toUInt8 ∧ column ∈ spec.primaryKey ∨
    c.identityByte = some 'f'.toUInt8 ∧ column ∈ c.published ∨
    c.identityByte = some 'i'.toUInt8 ∧ column ∈ c.replicaIndex

/-- The replica identity includes the whole primary key: it is the primary key, or every column
with the primary key published, or an index over the primary key. -/
def Catalog.CoversPrimaryKey (c : Catalog) (spec : ProjectionSpec) : Prop :=
  c.identityByte = some 'd'.toUInt8 ∨
    c.identityByte = some 'f'.toUInt8 ∧ (∀ column ∈ spec.primaryKey, column ∈ c.published) ∨
    c.identityByte = some 'i'.toUInt8 ∧ ∀ column ∈ spec.primaryKey, column ∈ c.replicaIndex

theorem Catalog.coversPrimaryKey_iff {c : Catalog} {spec : ProjectionSpec}
    (hne : spec.primaryKey ≠ []) :
    c.CoversPrimaryKey spec ↔ ∀ column ∈ spec.primaryKey, c.Identifies spec column := by
  constructor
  · rintro (hd | ⟨hf, hall⟩ | ⟨hi, hall⟩) column hmem
    · exact .inl ⟨hd, hmem⟩
    · exact .inr (.inl ⟨hf, hall column hmem⟩)
    · exact .inr (.inr ⟨hi, hall column hmem⟩)
  · intro h
    have hdf : 'd'.toUInt8 ≠ 'f'.toUInt8 := by decide
    have hdi : 'd'.toUInt8 ≠ 'i'.toUInt8 := by decide
    have hfi : 'f'.toUInt8 ≠ 'i'.toUInt8 := by decide
    -- the first column of the key tells which replica identity it is
    obtain ⟨column, hmem⟩ := List.exists_mem_of_ne_nil _ hne
    rcases h column hmem with ⟨hd, -⟩ | ⟨hf, -⟩ | ⟨hi, -⟩
    · exact .inl hd
    · refine .inr (.inl ⟨hf, fun column' hmem' => ?_⟩)
      simpa [Identifies, hf, hdf.symm, hfi] using h column' hmem'
    · refine .inr (.inr ⟨hi, fun column' hmem' => ?_⟩)
      simpa [Identifies, hi, hdi.symm, hfi.symm] using h column' hmem'

theorem queried_eq_ok {α : Type} {fails : ShapeQuery → Option GoError} {q : ShapeQuery}
    {answer a : α} (h : queried fails q answer = .ok a) : a = answer := by
  unfold queried at h
  split at h
  · cases h
  · cases h
    rfl

theorem Catalog.map_name_filter (c : Catalog) :
    (c.attributes.filter (·.name ∈ c.published)).map (·.name) = c.published := by
  have hcongr : c.attributes.filter (·.name ∈ c.published) =
      c.attributes.filter (·.name ∈ c.attnames) := by
    refine List.filter_congr fun a ha => decide_eq_decide.2 ?_
    rw [published, List.mem_filter, decide_eq_true_iff]
    exact ⟨fun h => h.2, fun h => ⟨List.mem_map_of_mem ha, h⟩⟩
  rw [hcongr, published, List.filter_map]
  rfl

theorem mem_identityKey {fails : ShapeQuery → Option GoError} {catalog : Catalog}
    {spec : ProjectionSpec} {columns : List ShapeColumn} {b : UInt8} {key : List String}
    (hident : catalog.identityByte = some b) (hcolumns : columns.map (·.name) = catalog.published)
    (h : identityKey fails catalog spec columns b = .ok key) {column : String} :
    column ∈ key ↔ catalog.Identifies spec column := by
  have hdf : 'd'.toUInt8 ≠ 'f'.toUInt8 := by decide
  have hdi : 'd'.toUInt8 ≠ 'i'.toUInt8 := by decide
  have hfi : 'f'.toUInt8 ≠ 'i'.toUInt8 := by decide
  rw [Catalog.Identifies, hident]
  unfold identityKey at h
  split at h
  · next hd =>
    cases h
    simp [hd, hdf, hdi]
  · next hd =>
    split at h
    · next hf =>
      cases h
      rw [hcolumns]
      simp [hf, hdf.symm, hfi]
    · next hf =>
      split at h
      · next hi =>
        cases queried_eq_ok h
        simp [hi, hdi.symm, hfi.symm]
      · next hi =>
        cases h
        simp [hd, hf, hi]

/-- A baseline that could be read: its columns are those the publication carries, its key the
replica identity. -/
theorem projectionShape_eq {fails : ShapeQuery → Option GoError} {catalog : Catalog}
    {spec : ProjectionSpec} {shape : RelationShape}
    (h : projectionShape fails catalog spec = .ok shape) :
    shape.table = spec.schema ++ "." ++ spec.table ∧
    shape.columns.map (·.name) = catalog.published ∧
    ∀ column, column ∈ shape.key ↔ catalog.Identifies spec column := by
  obtain ⟨⟨oid, published⟩, hrel, h⟩ := bind_eq_ok.1 h
  cases queried_eq_ok hrel
  cases hident : catalog.identityByte with
  | none =>
    simp only [hident] at h
    cases h
  | some b =>
    simp only [hident] at h
    obtain ⟨columns, hcols, h⟩ := bind_eq_ok.1 h
    cases queried_eq_ok hcols
    obtain ⟨key, hkey, h⟩ := bind_eq_ok.1 h
    cases h
    refine ⟨rfl, catalog.map_name_filter, fun column => ?_⟩
    rw [mem_sortStrings]
    exact mem_identityKey hident catalog.map_name_filter hkey

section Baseline

variable {spec : ProjectionSpec} {fails : ShapeQuery → Option GoError} {catalog : Catalog}
  {shape : RelationShape} {rm : RelationMessage}

/-- The columns of a relation that matches its baseline have distinct names. -/
theorem names_nodup_of_diff (hshape : projectionShape fails catalog spec = .ok shape)
    (hdiff : shape.diff (shapeOfRelation rm) = "") : (rm.columns.map (·.name)).Nodup := by
  obtain ⟨-, -, -, hcolumns⟩ := RelationShape.diff_eq_empty_iff.1 hdiff
  have hnames : shape.columns.map (·.name) = rm.columns.map (·.name) := by
    rw [hcolumns, shapeOfRelation, List.map_map]
    rfl
  rw [← hnames, (projectionShape_eq hshape).2.1]
  exact catalog.names_nodup.sublist List.filter_sublist

/-- The flagged columns of a relation that matches its baseline are its replica identity. -/
theorem mem_keyColumns_iff (hshape : projectionShape fails catalog spec = .ok shape)
    (hdiff : shape.diff (shapeOfRelation rm) = "") {column : String} :
    column ∈ rm.keyColumns.map (·.name) ↔ catalog.Identifies spec column := by
  obtain ⟨-, -, hkey, -⟩ := RelationShape.diff_eq_empty_iff.1 hdiff
  rw [← (projectionShape_eq hshape).2.2 column, hkey]
  exact mem_sortStrings.symm

end Baseline

end Watchd.Cdc
