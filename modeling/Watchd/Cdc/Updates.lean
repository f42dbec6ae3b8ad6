import Watchd.Cdc.Changes
import Watchd.Cdc.Incompatible
import Watchd.Cdc.Validation

/-!
# Updates that leave the primary key alone

Old and new rows are compared over the columns flagged as replica identity.
These are the primary key only for the default replica identity: under
`REPLICA IDENTITY FULL` every column is flagged, under a replica-identity index
its columns are.  A flagged column outside the primary key must be non-empty
text and must not change, or the update is refused.

`update_accepted_iff`: an update that keeps the primary key is accepted exactly if
its flagged columns outside the primary key allow it.
-/

namespace Watchd.Cdc

open Watchd.Lib

/-! ## Reading rows by column name -/

theorem map_valueIn {names : List String} {tuple : TupleData} (hnd : names.Nodup)
    (hlen : tuple.length = names.length) :
    names.map (valueIn names tuple) = tuple.map (·.text?) := by
  refine List.ext_getElem (by simp [hlen]) fun i hi hi' => ?_
  rw [List.length_map] at hi hi'
  have hmem : (names[i], tuple[i]) ∈ names.zip tuple := by
    rw [← List.getElem_zip (h := by simp [hi, hi'])]
    exact List.getElem_mem _
  have hnd' : ((names.zip tuple).map Prod.fst).Nodup := by
    rwa [List.map_fst_zip (Nat.le_of_eq hlen.symm)]
  simp [valueIn, (lookup_eq_some_iff hnd').mpr hmem]

section Keys

variable {rm : RelationMessage} (hnd : (rm.columns.map (·.name)).Nodup)

/-- The names of the columns an old tuple holds. -/
def oldNames (rm : RelationMessage) (old : TupleData) : List String :=
  if old.length = rm.columns.length then rm.columns.map (·.name)
  else rm.keyColumns.map (·.name)

include hnd

theorem nodup_keyNames : (rm.keyColumns.map (·.name)).Nodup :=
  hnd.sublist (List.filter_sublist.map _)

/-- The key columns of a complete row, by name and by position. -/
theorem map_valueIn_keyNames {t : TupleData} (hlen : t.length = rm.columns.length) :
    (rm.keyColumns.map (·.name)).map (valueIn (rm.columns.map (·.name)) t) =
      (keyCells rm t).map (·.2.text?) := by
  rw [← keyCells_fst hlen, List.map_map]
  refine List.map_congr_left fun nc hnc => ?_
  obtain ⟨p, hp, rfl⟩ := List.mem_map.mp hnc
  have hmem : (p.1.name, p.2) ∈ (rm.columns.map (·.name)).zip t := by
    rw [List.zip_map_left]
    exact List.mem_map.mpr ⟨p, (List.mem_filter.mp hp).1, rfl⟩
  have hnd' : (((rm.columns.map (·.name)).zip t).map Prod.fst).Nodup := by
    rwa [List.map_fst_zip (by simp [hlen])]
  simp [valueIn, (lookup_eq_some_iff hnd').mpr hmem]

theorem map_valueIn_oldNames {old : TupleData}
    (hlen : old.length = rm.columns.length ∨ old.length = rm.keyColumns.length) :
    (rm.keyColumns.map (·.name)).map (valueIn (oldNames rm old) old) =
      (oldCells rm old).map (·.text?) := by
  by_cases hrow : old.length = rm.columns.length
  · rw [oldNames, oldCells, if_pos hrow, if_pos hrow, map_valueIn_keyNames hnd hrow, List.map_map]
    rfl
  · rw [oldNames, oldCells, if_neg hrow, if_neg hrow]
    exact map_valueIn (nodup_keyNames hnd) (by simpa using hlen.resolve_left hrow)

end Keys

theorem TupleDataColumn.text?_eq_some_iff {c : TupleDataColumn} {text : Text} :
    c.text? = some text ↔ c.dataType = tupleDataTypeText ∧ c.data = text := by
  unfold TupleDataColumn.text?
  split
  · next h => simp [h]
  · next h => simp [h]

theorem TupleDataColumn.NonEmptyText.text?_eq {c : TupleDataColumn} (h : c.NonEmptyText) :
    c.text? = some c.data := text?_eq_some_iff.mpr ⟨h.1, rfl⟩

section OldTuple

variable {rm : RelationMessage} {maxValueBytes : Int} {old t : TupleData}
  (hshape : old.length = rm.columns.length ∨ old.length = rm.keyColumns.length)
  (hsup : ∀ c ∈ old, c.Supported maxValueBytes)

include hshape hsup

/-- An old tuple of supported columns is refused only for its key columns. -/
theorem keyTuple_iff : KeyTuple rm maxValueBytes old ↔ ∀ c ∈ oldCells rm old, c.NonEmptyText := by
  by_cases hrow : old.length = rm.columns.length
  · rw [oldCells, if_pos hrow, List.forall_mem_map]
    constructor
    · rintro (⟨-, -, h⟩ | ⟨-, h⟩) nc hnc
      · exact h nc hnc
      · obtain ⟨p, hp, rfl⟩ := List.mem_map.mp hnc
        exact (h p.2 (List.of_mem_zip (List.mem_filter.mp hp).1).2).1
    · exact fun h => .inl ⟨hrow, hsup, h⟩
  · rw [oldCells, if_neg hrow]
    constructor
    · rintro (⟨h, -⟩ | ⟨-, h⟩) c hc
      · exact absurd h hrow
      · exact (h c hc).1
    · intro h
      exact .inr ⟨hshape.resolve_left hrow, fun c hc => ⟨h c hc, (hsup c hc).length_le (h c hc).1⟩⟩

/-- The old tuple is accepted and has the new row's key exactly when its key columns hold the same
texts. -/
theorem keyTuple_sameKey_iff (hkey : ∀ nc ∈ keyCells rm t, nc.2.NonEmptyText) :
    (KeyTuple rm maxValueBytes old ∧ SameKey rm old t) ↔
      (oldCells rm old).map (·.text?) = (keyCells rm t).map (·.2.text?) := by
  have hnew : (keyCells rm t).map (·.2.text?) = ((keyCells rm t).map (·.2.data)).map some := by
    rw [List.map_map]
    exact List.map_congr_left fun nc hnc => (hkey nc hnc).text?_eq
  rw [keyTuple_iff hshape hsup, hnew]
  constructor
  · rintro ⟨hold, hsame⟩
    rw [← hsame, List.map_map]
    exact List.map_congr_left fun c hc => (hold c hc).text?_eq
  · intro h
    have hdata : ∀ c ∈ oldCells rm old, ∃ text ∈ (keyCells rm t).map (·.2.data),
        c.text? = some text := by
      intro c hc
      have hmem : c.text? ∈ ((keyCells rm t).map (·.2.data)).map some := by
        rw [← h]
        exact List.mem_map.mpr ⟨c, hc, rfl⟩
      obtain ⟨text, htext, heq⟩ := List.mem_map.mp hmem
      exact ⟨text, htext, heq.symm⟩
    have hold : ∀ c ∈ oldCells rm old, c.NonEmptyText := by
      intro c hc
      obtain ⟨text, htext, heq⟩ := hdata c hc
      obtain ⟨htype, rfl⟩ := TupleDataColumn.text?_eq_some_iff.mp heq
      obtain ⟨nc, hnc, hnc'⟩ := List.mem_map.mp htext
      exact ⟨htype, hnc' ▸ (hkey nc hnc).2⟩
    refine ⟨hold, List.map_injective_iff.mpr (Option.some_injective _) ?_⟩
    rw [← h, List.map_map]
    exact List.map_congr_left fun c hc => (hold c hc).text?_eq.symm

end OldTuple

/-! ## Updates -/

/-- The update gives the new row `t` and leaves the primary key alone: the columns of both tuples
are supported, and the primary-key columns are non-empty text, the same in the old tuple. -/
structure LeavesKey (rm : RelationMessage) (primaryKey : List String) (maxValueBytes : Int)
    (m : UpdateMessage) (t : TupleData) : Prop where
  newTuple_eq : m.newTuple = some t
  length_eq : t.length = rm.columns.length
  supported : ∀ c ∈ t, c.Supported maxValueBytes
  key : ∀ column ∈ primaryKey, column ∈ rm.columns.map (·.name) →
    ∃ text, text ≠ [] ∧ valueIn (rm.columns.map (·.name)) t column = some text
  old_shape : ∀ old ∈ m.oldTuple,
    old.length = rm.columns.length ∨ old.length = rm.keyColumns.length
  old_supported : ∀ old ∈ m.oldTuple, ∀ c ∈ old, c.Supported maxValueBytes
  old_key : ∀ old ∈ m.oldTuple, ∀ column ∈ primaryKey, column ∈ oldNames rm old →
    valueIn (oldNames rm old) old column = valueIn (rm.columns.map (·.name)) t column

/-- The columns flagged as replica identity: there are some, and each one outside the primary key
is non-empty text in the new row and the same text in the old tuple. -/
def IdentityUnchanged (rm : RelationMessage) (primaryKey : List String) (m : UpdateMessage)
    (t : TupleData) : Prop :=
  rm.keyColumns ≠ [] ∧ ∀ column ∈ rm.keyColumns.map (·.name), column ∉ primaryKey →
    ∃ text, text ≠ [] ∧ valueIn (rm.columns.map (·.name)) t column = some text ∧
      ∀ old ∈ m.oldTuple, valueIn (oldNames rm old) old column = some text

section Update

variable {rm : RelationMessage} {primaryKey : List String} {maxValueBytes : Int}
  {m : UpdateMessage} {t : TupleData} (hnd : (rm.columns.map (·.name)).Nodup)

include hnd

theorem forall_keyCells_iff (hlen : t.length = rm.columns.length) :
    (∀ nc ∈ keyCells rm t, nc.2.NonEmptyText) ↔ ∀ column ∈ rm.keyColumns.map (·.name),
      ∃ text, text ≠ [] ∧ valueIn (rm.columns.map (·.name)) t column = some text := by
  have hcell : ∀ c : TupleDataColumn, c.NonEmptyText ↔ ∃ text, text ≠ [] ∧ c.text? = some text := by
    intro c
    simp only [TupleDataColumn.text?_eq_some_iff, TupleDataColumn.NonEmptyText]
    constructor
    · exact fun ⟨htype, hne⟩ => ⟨c.data, hne, htype, rfl⟩
    · rintro ⟨text, hne, htype, rfl⟩
      exact ⟨htype, hne⟩
  have hmap := map_valueIn_keyNames hnd hlen
  rw [← List.forall_mem_map (P := fun v : Option Text => ∃ text, text ≠ [] ∧ v = some text), hmap,
    List.forall_mem_map]
  exact forall₂_congr fun nc _ => hcell nc.2

omit hnd in
theorem keyNames_subset {column : String} (h : column ∈ rm.keyColumns.map (·.name))
    (old : TupleData) : column ∈ oldNames rm old := by
  unfold oldNames
  split
  · exact (List.filter_sublist.map _).subset h
  · exact h

omit hnd in
/-- All of the flagged columns, the primary key among them. -/
theorem IdentityUnchanged.all (hk : LeavesKey rm primaryKey maxValueBytes m t)
    (h : IdentityUnchanged rm primaryKey m t) :
    ∀ column ∈ rm.keyColumns.map (·.name),
      ∃ text, text ≠ [] ∧ valueIn (rm.columns.map (·.name)) t column = some text ∧
        ∀ old ∈ m.oldTuple, valueIn (oldNames rm old) old column = some text := by
  intro column hc
  by_cases hpk : column ∈ primaryKey
  · obtain ⟨text, hne, hval⟩ := hk.key column hpk ((List.filter_sublist.map _).subset hc)
    refine ⟨text, hne, hval, fun old hold => ?_⟩
    rw [hk.old_key old hold column hpk (keyNames_subset hc old), hval]
  · exact h.2 column hc hpk

theorem LeavesKey.decodes_iff (h : LeavesKey rm primaryKey maxValueBytes m t) :
    (Message.update m).Decodes rm maxValueBytes (rowChange .update rm t) ↔
      IdentityUnchanged rm primaryKey m t := by
  -- the texts of the key columns, by name on one side and by position on the other
  have hsame : (∀ nc ∈ keyCells rm t, nc.2.NonEmptyText) → ∀ old ∈ m.oldTuple,
      ((KeyTuple rm maxValueBytes old ∧ SameKey rm old t) ↔
        ∀ column ∈ rm.keyColumns.map (·.name), valueIn (oldNames rm old) old column =
          valueIn (rm.columns.map (·.name)) t column) := by
    intro hkey old hold
    rw [keyTuple_sameKey_iff (h.old_shape old hold) (h.old_supported old hold) hkey,
      ← map_valueIn_oldNames hnd (h.old_shape old hold), ← map_valueIn_keyNames hnd h.length_eq,
      List.map_inj_left]
  constructor
  · rintro ⟨t', ht', hacc, hold, -⟩
    cases h.newTuple_eq.symm.trans ht'
    refine ⟨hacc.keyed, fun column hc _ => ?_⟩
    obtain ⟨text, hne, hval⟩ := (forall_keyCells_iff hnd h.length_eq).mp hacc.key column hc
    refine ⟨text, hne, hval, fun old hmem => ?_⟩
    rw [(hsame hacc.key old hmem).mp (hold old hmem) column hc, hval]
  · intro hid
    have hall := hid.all h
    have hkey : ∀ nc ∈ keyCells rm t, nc.2.NonEmptyText :=
      (forall_keyCells_iff hnd h.length_eq).mpr fun column hc =>
        let ⟨text, hne, hval, _⟩ := hall column hc
        ⟨text, hne, hval⟩
    refine ⟨t, h.newTuple_eq, ⟨h.length_eq, h.supported, hid.1, hkey⟩, fun old hold => ?_, rfl⟩
    refine (hsame hkey old hold).mpr fun column hc => ?_
    obtain ⟨text, -, hval, hval'⟩ := hall column hc
    rw [hval, hval' old hold]

end Update

/-! ## Consuming the update -/

/-- A row message of a relation that agrees with its baseline joins the open transaction as
`change`, which fits, exactly when it decodes to it. -/
theorem Decoder.appends_iff {d : Decoder} {reads : Option Reads} {pending : List Change}
    {info : RelationInfo} {rm : RelationMessage} {msg : Message} {change : Change}
    (hp : d.pending = some pending) (hinfo : d.relations.lookup rm.relationID = some info)
    (hof : info.IsOf rm) (hrow : msg.row? = some rm.relationID)
    (hagrees : info.disagrees reads = false)
    (hcount : (pending.length : Int) < d.maxTransactionChanges)
    (hbytes : (estimatedChangeBytes change : Int) ≤ d.maxTransactionBytes - d.pendingBytes) :
    (∃ d', d.consume reads msg = (d', .ok none) ∧ d'.pending = some (pending ++ [change])) ↔
      msg.Decodes rm d.maxValueBytes change := by
  obtain ⟨d', info', hskip, hinfo', hof', hd'⟩ := skip_known reads hinfo hof
  rw [hagrees] at hskip
  have hmax : d'.maxValueBytes = d.maxValueBytes := by rw [hd']
  have hp' : d'.pending = some pending := by rw [hd']; exact hp
  rw [← hmax, ← decode_eq_ok_iff hof' hinfo' hrow]
  simp only [consume_row hrow, consumeRow, hskip]
  cases hdec : msg.decode d' with
  | error err => simp
  | ok c =>
    simp only [Except.ok.injEq]
    constructor
    · rintro ⟨e, he, hpe⟩
      rcases d'.append_cases c with ⟨err, ha⟩ | ⟨pending', hp'', ha⟩
      · simp [ha, Except.map] at he
      · cases hp'.symm.trans hp''
        simp only [ha, Prod.mk.injEq] at he
        rw [← he.1] at hpe
        simpa using hpe
    · rintro rfl
      have hfits : d'.append c = ({ d' with
          pending := some (pending ++ [c])
          pendingBytes := d'.pendingBytes + estimatedChangeBytes c }, .ok ()) := by
        have hcount' : ¬(pending.length : Int) ≥ d'.maxTransactionChanges := by
          rw [hd']
          exact Int.not_le.mpr hcount
        have hbytes' :
            ¬(estimatedChangeBytes c : Int) > d'.maxTransactionBytes - d'.pendingBytes := by
          rw [hd']
          exact Int.not_lt.mpr hbytes
        simp only [append, hp', if_neg hcount', if_neg hbytes']
      exact ⟨_, by rw [hfits]; rfl, rfl⟩

theorem RelationInfo.agrees_of_baseline {info : RelationInfo} {rm : RelationMessage}
    {baseline : RelationShape} {reads : Option Reads} (hof : info.IsOf rm)
    (hdiff : baseline.diff (shapeOfRelation rm) = "") (hcompatible : info.incompatible = none)
    (hbase : ∀ r ∈ reads, r.table.baselineByTable info.table = some baseline) :
    info.disagrees reads = false := by
  have hshape : info.shape = shapeOfRelation rm := by rw [hof]; rfl
  unfold disagrees
  split
  · cases reads with
    | none => rfl
    | some r => simp [hbase r rfl, hshape, hdiff]
  · simp [hcompatible]

/-- **An update that leaves the primary key alone is accepted** exactly when the relation flags
some column as replica identity and every flagged column outside the primary key is non-empty text
and does not change. -/
theorem update_accepted_iff {fails : ShapeQuery → Option GoError} {catalog : Catalog}
    {spec : ProjectionSpec} {baseline : RelationShape} {rm : RelationMessage}
    (hshape : projectionShape fails catalog spec = .ok baseline)
    (hdiff : baseline.diff (shapeOfRelation rm) = "") {d : Decoder} {reads : Option Reads}
    {pending : List Change} {info : RelationInfo} (hp : d.pending = some pending)
    (hinfo : d.relations.lookup rm.relationID = some info) (hof : info.IsOf rm)
    (hcompatible : info.incompatible = none)
    (hbase : ∀ r ∈ reads, r.table.baselineByTable info.table = some baseline)
    {m : UpdateMessage} {t : TupleData} (hid : m.relationID = rm.relationID)
    (hkey : LeavesKey rm spec.primaryKey d.maxValueBytes m t)
    (hcount : (pending.length : Int) < d.maxTransactionChanges)
    (hbytes : (estimatedChangeBytes (rowChange .update rm t) : Int) ≤
      d.maxTransactionBytes - d.pendingBytes) :
    (∃ d', d.consume reads (.update m) = (d', .ok none) ∧
      d'.pending = some (pending ++ [rowChange .update rm t])) ↔
      IdentityUnchanged rm spec.primaryKey m t := by
  have hrow : (Message.update m).row? = some rm.relationID := congrArg some hid
  rw [Decoder.appends_iff hp hinfo hof hrow
    (RelationInfo.agrees_of_baseline hof hdiff hcompatible hbase) hcount hbytes]
  exact hkey.decodes_iff (names_nodup_of_diff hshape hdiff)

/-- Under the default replica identity every such update is accepted: the flagged columns are the
primary key. -/
theorem identityUnchanged_of_default {fails : ShapeQuery → Option GoError} {catalog : Catalog}
    {spec : ProjectionSpec} {baseline : RelationShape} {rm : RelationMessage}
    (hspec : validateProjectionSpecConfig spec = .ok ())
    (hdefault : catalog.identityByte = some 'd'.toUInt8)
    (hshape : projectionShape fails catalog spec = .ok baseline)
    (hdiff : baseline.diff (shapeOfRelation rm) = "") (m : UpdateMessage) (t : TupleData) :
    IdentityUnchanged rm spec.primaryKey m t := by
  have hdf : 'd'.toUInt8 ≠ 'f'.toUInt8 := by decide
  have hdi : 'd'.toUInt8 ≠ 'i'.toUInt8 := by decide
  have hmem : ∀ {column}, column ∈ rm.keyColumns.map (·.name) ↔ column ∈ spec.primaryKey := by
    intro column
    rw [mem_keyColumns_iff hshape hdiff, Catalog.Identifies, hdefault]
    simp [hdf, hdi]
  refine ⟨?_, fun column hc hpk => absurd (hmem.mp hc) hpk⟩
  intro hnil
  have := hmem.mpr (scopeColumn_mem_primaryKey hspec)
  simp [hnil] at this

namespace Demo

/-- Accounts, scoped and keyed by their tenant, with a name. -/
def accounts : ProjectionSpec := ⟨"main", "public", "accounts", "tenant", ["tenant"]⟩

/-- A table whose replica identity varies. -/
def accountsCatalog (identity : String) : Catalog where
  oid := 9
  identity := identity
  attributes := [⟨"tenant", 25⟩, ⟨"name", 25⟩]
  attnames := ["tenant", "name"]
  replicaIndex := []
  names_nodup := by decide

/-- The table as the stream presents it; `nameFlag` tells whether the name is replica identity. -/
def accountsRelation (identity : Char) (nameFlag : UInt8) : RelationMessage :=
  ⟨9, "public", "accounts", identity.toUInt8, [⟨1, "tenant", 25⟩, ⟨nameFlag, "name", 25⟩]⟩

/-- A row of it. -/
def accountRow (tenant name : UInt8) : TupleData :=
  [⟨tupleDataTypeText, [tenant]⟩, ⟨tupleDataTypeText, [name]⟩]

/-- The name of an account changes. -/
def renamed : UpdateMessage := ⟨9, some (accountRow 0x41 0x61), some (accountRow 0x41 0x62)⟩

/-- A decoder that has received the relation and a BEGIN. -/
def receiving (rm : RelationMessage) : Decoder :=
  { newDecoderWithLimits 0 0 0 with
    relations := (∅ : Finmap fun _ : UInt32 => RelationInfo).insert rm.relationID
      (newRelationInfo rm)
    pending := some [] }

theorem renamed_leavesKey (identity : Char) (nameFlag : UInt8) :
    LeavesKey (accountsRelation identity nameFlag) accounts.primaryKey defaultMaxValueBytes renamed
      (accountRow 0x41 0x62) where
  newTuple_eq := rfl
  length_eq := rfl
  supported := by decide
  key := by
    intro column hc _
    cases List.mem_singleton.mp hc
    exact ⟨[0x41], by decide, rfl⟩
  old_shape := by
    rintro old ⟨⟩
    exact .inl rfl
  old_supported := by
    rintro old ⟨⟩
    decide
  old_key := by
    rintro old ⟨⟩ column hc -
    cases List.mem_singleton.mp hc
    rfl

end Demo

/-- Under the default replica identity the new name joins the transaction. -/
theorem update_accepted_default :
    ∃ d', (Demo.receiving (Demo.accountsRelation 'd' 0)).consume none (.update Demo.renamed) =
        (d', .ok none) ∧
      d'.pending = some [rowChange .update (Demo.accountsRelation 'd' 0)
        (Demo.accountRow 0x41 0x62)] := by
  have hshape : projectionShape (fun _ => none) (Demo.accountsCatalog "d") Demo.accounts =
      .ok (shapeOfRelation (Demo.accountsRelation 'd' 0)) := by decide
  have hdiff : (shapeOfRelation (Demo.accountsRelation 'd' 0)).diff
      (shapeOfRelation (Demo.accountsRelation 'd' 0)) = "" := by decide
  have hof : (newRelationInfo (Demo.accountsRelation 'd' 0)).IsOf
      (Demo.accountsRelation 'd' 0) := rfl
  have hp : (Demo.receiving (Demo.accountsRelation 'd' 0)).pending = some [] := rfl
  have hnone : ∀ r ∈ (none : Option Reads), r.table.baselineByTable "public.accounts" =
      some (shapeOfRelation (Demo.accountsRelation 'd' 0)) := by simp
  exact (update_accepted_iff hshape hdiff hp (Finmap.lookup_insert _) hof rfl hnone rfl
    (Demo.renamed_leavesKey 'd' 0) (by decide) (by decide)).mpr
    (identityUnchanged_of_default (by decide) (by decide) hshape hdiff _ _)

/-- Under `REPLICA IDENTITY FULL` the same update, which leaves the primary key alone, is refused
as a change of the primary key. -/
theorem update_refused_full :
    validateProjectionSpecConfig Demo.accounts = .ok () ∧
    projectionShape (fun _ => none) (Demo.accountsCatalog "f") Demo.accounts =
      .ok (shapeOfRelation (Demo.accountsRelation 'f' 1)) ∧
    LeavesKey (Demo.accountsRelation 'f' 1) Demo.accounts.primaryKey defaultMaxValueBytes
      Demo.renamed (Demo.accountRow 0x41 0x62) ∧
    ((Demo.receiving (Demo.accountsRelation 'f' 1)).consume none (.update Demo.renamed)).2 =
      .error (.sentinel .primaryKeyChangeUnsupported) :=
  ⟨by decide, by decide, Demo.renamed_leavesKey 'f' 1, by decide⟩

end Watchd.Cdc
