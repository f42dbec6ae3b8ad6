import Watchd.Cdc.RowKey

/-!
# Which tuples are decoded, and to what

Exact conditions for the checks of the decoder, and the values and the key of
an accepted tuple.  A row's text is packed into one string and its values and
keys are slices of it; what comes out is what decoding each column on its own
gives, and the key is one map whether it is read from a new row, a complete old
row or the key columns alone.

`decoding_columnwise` states both.
-/

namespace Watchd.Cdc

open Watchd.Lib

/-! ## Columns -/

namespace TupleDataColumn

/-- A column of a complete row: text within the limit, null, or an omitted TOAST value. -/
def Supported (maxValueBytes : Int) (c : TupleDataColumn) : Prop :=
  c.dataType = tupleDataTypeText ∧ (c.data.length : Int) ≤ maxValueBytes ∨
    c.dataType = tupleDataTypeNull ∨ c.dataType = tupleDataTypeToast

instance (maxValueBytes : Int) (c : TupleDataColumn) : Decidable (c.Supported maxValueBytes) :=
  inferInstanceAs (Decidable (_ ∨ _))

theorem Supported.length_le {c : TupleDataColumn} {maxValueBytes : Int}
    (h : c.Supported maxValueBytes) (htext : c.dataType = tupleDataTypeText) :
    (c.data.length : Int) ≤ maxValueBytes := by
  have htn : tupleDataTypeText ≠ tupleDataTypeNull := by decide
  have htt : tupleDataTypeText ≠ tupleDataTypeToast := by decide
  rcases h with ⟨-, h⟩ | h | h
  · exact h
  · exact absurd (htext.symm.trans h) htn
  · exact absurd (htext.symm.trans h) htt

/-- A column that can be part of a key. -/
def NonEmptyText (c : TupleDataColumn) : Prop := c.dataType = tupleDataTypeText ∧ c.data ≠ []

instance (c : TupleDataColumn) : Decidable c.NonEmptyText := inferInstanceAs (Decidable (_ ∧ _))

end TupleDataColumn

theorem checkColumn_eq_ok_iff {c : TupleDataColumn} {maxValueBytes : Int} :
    checkColumn c maxValueBytes = .ok () ↔ c.Supported maxValueBytes := by
  have htn : tupleDataTypeText ≠ tupleDataTypeNull := by decide
  have htt : tupleDataTypeText ≠ tupleDataTypeToast := by decide
  unfold checkColumn TupleDataColumn.Supported
  split
  · next h => simp [h]
  · next h =>
    split
    · next htext =>
      split
      · next hlarge => simp [htext, htn, htt, Int.not_le.mpr hlarge]
      · next hfits => simp [htext, Int.not_lt.mp hfits]
    · next htext => simp [htext, h]

theorem checkKeyColumn_eq_ok_iff {c : TupleDataColumn} {maxValueBytes : Int} :
    checkKeyColumn c maxValueBytes = .ok () ↔
      c.NonEmptyText ∧ (c.data.length : Int) ≤ maxValueBytes := by
  unfold checkKeyColumn TupleDataColumn.NonEmptyText
  split
  · next h => simp [h]
  · next htext =>
    have htext : c.dataType = tupleDataTypeText := not_not.mp htext
    split
    · next hempty => simp [List.length_eq_zero_iff.mp hempty]
    · next hne =>
      have hne : c.data ≠ [] := fun h => hne (by simp [h])
      split
      · next hlarge => simp [Int.not_le.mpr hlarge]
      · next hfits => simp [htext, hne, Int.not_lt.mp hfits]

theorem inContext_eq_ok_iff {α : Type} {context : String} {x : Except GoError α} {a : α} :
    inContext context x = .ok a ↔ x = .ok a := by
  cases x with
  | ok b => exact Iff.rfl
  | error err => simp [inContext]

/-! ## Rows -/

theorem checkRow_eq_ok_iff {info : RelationInfo} {tuple : TupleData} {maxValueBytes : Int} :
    (∃ n, checkRow info tuple maxValueBytes = .ok n) ↔
      tuple.length = info.columns.length ∧ ∀ c ∈ tuple, c.Supported maxValueBytes := by
  unfold checkRow
  split
  · next hlen => simp [hlen]
  · next hlen =>
    have hlen : tuple.length = info.columns.length := not_not.mp hlen
    have hzip : (info.columns.zip tuple).map Prod.snd = tuple :=
      List.map_snd_zip (Nat.le_of_eq hlen)
    simp only [foldlM_check, inContext_eq_ok_iff, checkColumn_eq_ok_iff, hlen, true_and]
    conv_rhs => rw [← hzip, List.forall_mem_map]
    exact ⟨fun ⟨_, hall, _⟩ => hall, fun hall => ⟨_, hall, rfl⟩⟩

/-- Decoding a row: it is accepted exactly when every column is, and each value is its column's. -/
theorem decodeRow_eq_ok_iff {info : RelationInfo} {tuple : Option TupleData} {maxValueBytes : Int}
    {values : List Value} :
    decodeRow info tuple maxValueBytes = .ok values ↔
      ∃ t, tuple = some t ∧ t.length = info.columns.length ∧
        (∀ c ∈ t, c.Supported maxValueBytes) ∧ values = t.map TupleDataColumn.value := by
  cases tuple with
  | none => simp [decodeRow]
  | some t =>
    have hvalues : sliceValues (rowText t) 0 t = t.map TupleDataColumn.value := sliceValues_eq t []
    simp only [decodeRow, bind_eq_ok, hvalues, Option.some.injEq, exists_eq_left']
    rw [← and_assoc, ← checkRow_eq_ok_iff]
    constructor
    · rintro ⟨n, hn, h⟩
      cases h
      exact ⟨⟨n, hn⟩, rfl⟩
    · rintro ⟨⟨n, hn⟩, rfl⟩
      exact ⟨n, hn, rfl⟩

/-! ## Keys -/

/-- The key of a complete row, column by column. -/
def keyOf (rm : RelationMessage) (tuple : TupleData) : TextMap :=
  fill ∅ ((keyCells rm tuple).map fun nc => (nc.1, nc.2.data))

/-- The key columns of an old tuple, which is a complete row or has them alone. -/
def oldCells (rm : RelationMessage) (t : TupleData) : TupleData :=
  if t.length = rm.columns.length then (keyCells rm t).map Prod.snd else t

/-- An old tuple that says which row it was: a complete row held to the rules of a new one, or the
key columns alone, all of them non-empty text within the limit. -/
def KeyTuple (rm : RelationMessage) (maxValueBytes : Int) (t : TupleData) : Prop :=
  t.length = rm.columns.length ∧ (∀ c ∈ t, c.Supported maxValueBytes) ∧
      (∀ nc ∈ keyCells rm t, nc.2.NonEmptyText) ∨
    t.length = rm.keyColumns.length ∧
      ∀ c ∈ t, c.NonEmptyText ∧ (c.data.length : Int) ≤ maxValueBytes

instance (rm : RelationMessage) (maxValueBytes : Int) (t : TupleData) :
    Decidable (KeyTuple rm maxValueBytes t) :=
  inferInstanceAs (Decidable (_ ∨ _))

theorem KeyTuple.length_cases {rm : RelationMessage} {maxValueBytes : Int} {t : TupleData}
    (h : KeyTuple rm maxValueBytes t) :
    t.length = rm.columns.length ∨ t.length = rm.keyColumns.length :=
  h.imp And.left And.left

/-- The key columns of a row, taken alone, are its key columns: also when they are all of it. -/
theorem oldCells_keyCells {rm : RelationMessage} {t : TupleData}
    (hlen : t.length = rm.columns.length) :
    oldCells rm ((keyCells rm t).map Prod.snd) = (keyCells rm t).map Prod.snd := by
  unfold oldCells
  split
  · next hall =>
    have hcells : (keyCells rm t).map Prod.snd = t := by
      have hzip : (rm.columns.zip t).filter (·.1.flags = 1) = rm.columns.zip t := by
        refine List.filter_eq_self.mpr (List.length_filter_eq_length_iff.mp ?_)
        simpa [keyCells, hlen] using hall
      rw [keyCells, hzip, List.map_map]
      exact List.map_snd_zip (Nat.le_of_eq hlen)
    rw [hcells, hcells]
  · rfl

theorem keyOf_eq_fill {rm : RelationMessage} {t : TupleData}
    (hlen : t.length = rm.columns.length) :
    keyOf rm t = fill ∅ ((rm.keyColumns.map (·.name)).zip (((keyCells rm t).map Prod.snd).map
      (·.data))) := by
  rw [← keyCells_fst hlen, List.map_map, List.zip_map']
  rfl

/-- The key has the text of each key column, and nothing else. -/
theorem lookup_keyOf {rm : RelationMessage} (hnd : (rm.columns.map (·.name)).Nodup) {t : TupleData}
    (hlen : t.length = rm.columns.length) (name : String) (text : Text) :
    (keyOf rm t).lookup name = some text ↔
      ∃ cell, (name, cell) ∈ keyCells rm t ∧ cell.data = text := by
  have hfst : ((keyCells rm t).map fun nc => (nc.1, nc.2.data)).map Prod.fst =
      rm.keyColumns.map (·.name) := by
    rw [← keyCells_fst hlen, List.map_map]
    rfl
  rw [keyOf, lookup_fill_empty (by rw [hfst]; exact hnd.sublist (List.filter_sublist.map _))]
  simp

theorem value_nonEmpty_iff (c : TupleDataColumn) :
    ¬(c.value.kind ≠ .text ∨ c.value.text = []) ↔ c.NonEmptyText := by
  unfold TupleDataColumn.value TupleDataColumn.NonEmptyText
  by_cases htext : c.dataType = tupleDataTypeText
  · simp [htext]
  · rw [if_neg htext]
    split <;> simp [htext]

section Relation

variable {info : RelationInfo} {rm : RelationMessage} (hof : info.IsOf rm)

include hof

/-- A condition on the flagged positions of a complete row is one on its key cells. -/
theorem RelationInfo.IsOf.forall_keyIndexes {t : TupleData} (hlen : t.length = rm.columns.length)
    (P : TupleDataColumn → Prop) :
    (∀ i ∈ info.keyIndexes, P (t.getD i .missing)) ↔ ∀ nc ∈ keyCells rm t, P nc.2 := by
  rw [← hof.map_keyIndexes (hlen.trans hof.length_columns.symm), List.forall_mem_map]

theorem RelationInfo.IsOf.length_keyIndexes : info.keyIndexes.length = rm.keyColumns.length := by
  have := congrArg List.length hof.map_column
  simpa using this

theorem keyFromValues_eq_ok_iff {t : TupleData} (hlen : t.length = rm.columns.length)
    {key : TextMap} :
    keyFromValues info (t.map TupleDataColumn.value) = .ok key ↔
      rm.keyColumns ≠ [] ∧ (∀ nc ∈ keyCells rm t, nc.2.NonEmptyText) ∧ key = keyOf rm t := by
  have hnil : info.keyIndexes.length = 0 ↔ rm.keyColumns = [] := by
    rw [hof.length_keyIndexes, List.length_eq_zero_iff]
  unfold keyFromValues
  by_cases hne : rm.keyColumns = []
  · simp [hnil, hne]
  · rw [if_neg (fun h => hne (hnil.mp h)), foldlM_guard]
    simp only [getD_map_value, value_nonEmpty_iff, hof.forall_keyIndexes hlen, ne_eq, hne,
      not_false_eq_true, true_and]
    refine and_congr_right fun hkeys => ?_
    have hkey : info.keyIndexes.foldl (fun key i =>
        key.insert (info.column i) (t.getD i .missing).value.text) ∅ = keyOf rm t := by
      have hcells := hof.map_keyIndexes (hlen.trans hof.length_columns.symm)
      rw [keyOf, fill, ← hcells, List.map_map, List.foldl_map]
      refine List.foldl_ext _ _ _ fun key i hi => ?_
      have htext := ((hof.forall_keyIndexes hlen TupleDataColumn.NonEmptyText).mpr hkeys i hi).1
      simp only [TupleDataColumn.value, if_pos htext, Function.comp_apply]
    rw [hkey]

/-- The flagged positions, each with the cell `keyColumn` finds for it. -/
theorem map_keyColumn {t : TupleData}
    (hlen : t.length = rm.columns.length ∨ t.length = rm.keyColumns.length) :
    info.keyIndexes.zipIdx.map (fun ik => keyColumn info t ik.2) = oldCells rm t := by
  by_cases hrow : t.length = rm.columns.length
  · have hrow' := hrow.trans hof.length_columns.symm
    rw [oldCells, if_pos hrow, ← hof.map_keyIndexes hrow', List.map_map]
    conv_rhs => rw [← List.zipIdx_map_fst 0 info.keyIndexes, List.map_map]
    refine List.map_congr_left fun ik hik => ?_
    simp only [keyColumn, if_pos hrow', getD_of_mem_zipIdx hik, Function.comp_apply]
  · have hkey : t.length = info.keyIndexes.length := by
      rw [hof.length_keyIndexes]
      exact hlen.resolve_left hrow
    have hrow' : t.length ≠ info.columns.length := fun h => hrow (h.trans hof.length_columns)
    rw [oldCells, if_neg hrow]
    refine List.ext_getElem (by simp [hkey]) fun k hk hk' => ?_
    simp [keyColumn, if_neg hrow', List.getElem?_eq_getElem hk']

/-- The key of an old tuple of either shape. -/
theorem keyFromTuple_eq_fill {t : TupleData}
    (hlen : t.length = rm.columns.length ∨ t.length = rm.keyColumns.length) :
    keyFromTuple info t =
      fill ∅ ((rm.keyColumns.map (·.name)).zip ((oldCells rm t).map (·.data))) := by
  rw [keyFromTuple_eq, ← map_keyColumn hof hlen, ← hof.map_column, List.map_map]
  conv_rhs => rw [← List.zipIdx_map_fst 0 info.keyIndexes, List.map_map, List.zipIdx_map_fst]
  rw [List.zip_map']
  rfl

/-- The loop of `checkKeyTuple` over the key columns of a complete row. -/
theorem checkKeyCells_eq_ok_iff {t : TupleData} (hlen : t.length = rm.columns.length) :
    info.keyIndexes.forM (fun index =>
      if (t.getD index .missing).dataType ≠ tupleDataTypeText ∨
          (t.getD index .missing).data.length = 0 then
        Except.error (emptyKey (info.column index))
      else .ok ()) = .ok () ↔ ∀ nc ∈ keyCells rm t, nc.2.NonEmptyText := by
  rw [forM_eq_ok, ← hof.forall_keyIndexes hlen]
  refine forall₂_congr fun i _ => ?_
  unfold TupleDataColumn.NonEmptyText
  split
  · next h => simpa [← List.length_eq_zero_iff, ← imp_iff_not_or] using h
  · next h => simpa [not_or, ← List.length_eq_zero_iff] using h

theorem keyed_of_checkKeyTuple {tuple : Option TupleData} {maxValueBytes : Int}
    (h : checkKeyTuple info tuple maxValueBytes = .ok ()) : rm.keyColumns ≠ [] := by
  intro hnil
  have hlen : info.keyIndexes.length = 0 := by simp [hof.length_keyIndexes, hnil]
  cases tuple with
  | none => cases h
  | some t => simp [checkKeyTuple, hlen] at h

/-- Checking an old tuple: a complete row is held to the rules of a row and of its key, the key
columns alone to those of a key. -/
theorem checkKeyTuple_eq_ok_iff (hkeys : rm.keyColumns ≠ []) {tuple : Option TupleData}
    {maxValueBytes : Int} :
    checkKeyTuple info tuple maxValueBytes = .ok () ↔
      ∃ t, tuple = some t ∧ KeyTuple rm maxValueBytes t := by
  have hnil : info.keyIndexes.length ≠ 0 := by
    rw [hof.length_keyIndexes]
    exact fun h => hkeys (List.length_eq_zero_iff.mp h)
  cases tuple with
  | none => simp [checkKeyTuple]
  | some t =>
    simp only [checkKeyTuple, if_neg hnil, Option.some.injEq, exists_eq_left', KeyTuple]
    by_cases hlen : t.length = rm.columns.length
    · have hlen' := hlen.trans hof.length_columns.symm
      have hrow : (∃ n, checkRow info t maxValueBytes = .ok n) ↔
          ∀ c ∈ t, c.Supported maxValueBytes := by simp [checkRow_eq_ok_iff, hlen']
      rw [if_pos hlen', bind_eq_ok]
      simp only [checkKeyCells_eq_ok_iff hof hlen, exists_and_right, hrow]
      constructor
      · exact fun h => .inl ⟨hlen, h⟩
      · rintro (⟨-, h⟩ | ⟨hkey, h⟩)
        · exact h
        · -- as many key columns as columns: the two rules are one
          refine ⟨fun c hc => .inl ⟨(h c hc).1.1, (h c hc).2⟩, fun nc hnc => ?_⟩
          obtain ⟨p, hp, rfl⟩ := List.mem_map.mp hnc
          exact (h p.2 (List.of_mem_zip (List.mem_filter.mp hp).1).2).1
    · have hlen' : t.length ≠ info.columns.length := fun h => hlen (h.trans hof.length_columns)
      rw [if_neg hlen']
      by_cases hkey : t.length = rm.keyColumns.length
      · have hkey' := hkey.trans hof.length_keyIndexes.symm
        have hzip : ∀ P : TupleDataColumn → Prop,
            (∀ ic ∈ info.keyIndexes.zip t, P ic.2) ↔ ∀ c ∈ t, P c := by
          intro P
          conv_rhs => rw [← List.map_snd_zip (Nat.le_of_eq hkey'), List.forall_mem_map]
        rw [if_pos hkey', forM_eq_ok]
        simp only [inContext_eq_ok_iff, checkKeyColumn_eq_ok_iff, hlen, false_and, false_or]
        rw [hzip fun c => c.NonEmptyText ∧ (c.data.length : Int) ≤ maxValueBytes]
        exact ⟨fun h => ⟨hkey, h⟩, fun h => h.2⟩
      · have hkey' : t.length ≠ info.keyIndexes.length := by rwa [hof.length_keyIndexes]
        simp [if_neg hkey', hlen, hkey]

/-- **Packed decoding is column-by-column decoding.**  A row and an old tuple are accepted exactly
when their columns are; the values are the columns' own, position by position; and a row has one
key, whether it is taken from the decoded values, from the complete row or from its key columns
alone. -/
theorem decoding_columnwise (hnd : (rm.columns.map (·.name)).Nodup) (maxValueBytes : Int) :
    (∀ tuple values, decodeRow info tuple maxValueBytes = .ok values ↔
      ∃ t, tuple = some t ∧ t.length = rm.columns.length ∧
        (∀ c ∈ t, c.Supported maxValueBytes) ∧ values = t.map TupleDataColumn.value) ∧
    (rm.keyColumns ≠ [] → ∀ tuple, checkKeyTuple info tuple maxValueBytes = .ok () ↔
      ∃ t, tuple = some t ∧
        (t.length = rm.columns.length ∧ (∀ c ∈ t, c.Supported maxValueBytes) ∧
            (∀ nc ∈ keyCells rm t, nc.2.NonEmptyText) ∨
          t.length = rm.keyColumns.length ∧
            ∀ c ∈ t, c.NonEmptyText ∧ (c.data.length : Int) ≤ maxValueBytes)) ∧
    ∀ t, t.length = rm.columns.length → rm.keyColumns ≠ [] →
      (∀ nc ∈ keyCells rm t, nc.2.NonEmptyText) →
      ∃ key, keyFromValues info (t.map TupleDataColumn.value) = .ok key ∧
        keyFromTuple info t = key ∧ keyFromTuple info ((keyCells rm t).map Prod.snd) = key ∧
        ∀ name text, key.lookup name = some text ↔
          ∃ cell, (name, cell) ∈ keyCells rm t ∧ cell.data = text := by
  refine ⟨fun tuple values => ?_, fun hkeys tuple => checkKeyTuple_eq_ok_iff hof hkeys,
    fun t hlen hkeys htext => ?_⟩
  · rw [decodeRow_eq_ok_iff]
    simp only [hof.length_columns]
  · have hcells : ((keyCells rm t).map Prod.snd).length = rm.keyColumns.length := by
      have := congrArg List.length (keyCells_fst hlen)
      simpa using this
    refine ⟨keyOf rm t, (keyFromValues_eq_ok_iff hof hlen).mpr ⟨hkeys, htext, rfl⟩, ?_, ?_,
      lookup_keyOf hnd hlen⟩
    · rw [keyFromTuple_eq_fill hof (.inl hlen), keyOf_eq_fill hlen, oldCells, if_pos hlen]
    · rw [keyFromTuple_eq_fill hof (.inr hcells), oldCells_keyCells hlen, keyOf_eq_fill hlen]

end Relation

/-- A row of a table keyed by its second column, with a null before the key. -/
theorem decoding_columnwise_sample :
    let rm : RelationMessage := ⟨7, "public", "members", 0x64, [⟨0, "name", 25⟩, ⟨1, "id", 25⟩]⟩
    let row : TupleData := [⟨tupleDataTypeNull, []⟩, ⟨tupleDataTypeText, [0x31, 0x32]⟩]
    decodeRow (newRelationInfo rm) (some row) 16 = .ok [⟨.null, []⟩, ⟨.text, [0x31, 0x32]⟩] ∧
      checkKeyTuple (newRelationInfo rm) (some [⟨tupleDataTypeText, [0x31, 0x32]⟩]) 16 =
        .ok () := by
  intro rm row
  have h := @decoding_columnwise (newRelationInfo rm) rm rfl (by decide) 16
  exact ⟨(h.1 _ _).mpr ⟨row, rfl, by decide, by decide, by decide⟩,
    (h.2.1 (by decide) _).mpr ⟨_, rfl, .inr (by decide)⟩⟩

end Watchd.Cdc
