import Watchd.Cdc.Decoder
import Watchd.Lib.Loops

/-!
# The key of a decoded row

Decoding packs a row's text into one string and slices it; a key is built from
the positions flagged as replica identity.  Read back by column name this is
the plain thing (`keyed_of_insert`, `keyed_of_update`, `keyed_of_delete`): the
key has exactly the flagged columns, each with the row's own text.
-/

namespace Watchd.Cdc

open Watchd.Lib

/-! ## What a row message says about a column -/

/-- The text of a text column. -/
def TupleDataColumn.text? (c : TupleDataColumn) : Option Text :=
  if c.dataType = tupleDataTypeText then some c.data else none

/-- The text a tuple holds for `column`, its columns being `names`. -/
def valueIn (names : List String) (tuple : TupleData) (column : String) : Option Text :=
  ((names.zip tuple).lookup column).bind (·.text?)

/-- The row's own text of `column` in a row message of relation `rm`: in the new row, or for a
delete in the old row, which may carry the key columns only. -/
def Message.rowValue (rm : RelationMessage) (column : String) : Message → Option Text
  | .insert m => m.tuple.bind (valueIn (rm.columns.map (·.name)) · column)
  | .update m => m.newTuple.bind (valueIn (rm.columns.map (·.name)) · column)
  | .delete m => m.oldTuple.bind fun tuple =>
    if tuple.length = rm.columns.length then valueIn (rm.columns.map (·.name)) tuple column
    else valueIn (rm.keyColumns.map (·.name)) tuple column
  | _ => none

/-- `key` has exactly the flagged columns of `rm`, each with its text in `msg`. -/
def Keyed (rm : RelationMessage) (msg : Message) (key : TextMap) : Prop :=
  ∃ pairs : List (String × Text), key = fill ∅ pairs ∧
    pairs.map Prod.fst = rm.keyColumns.map (·.name) ∧
    ∀ p ∈ pairs, msg.rowValue rm p.1 = some p.2

section Keyed

variable {rm : RelationMessage} {msg : Message} {key : TextMap}

theorem Keyed.lookup_of_mem (h : Keyed rm msg key) (hnd : (rm.columns.map (·.name)).Nodup)
    {column : String} (hmem : column ∈ rm.keyColumns.map (·.name)) :
    ∃ v, key.lookup column = some v ∧ msg.rowValue rm column = some v := by
  obtain ⟨pairs, rfl, hfst, hval⟩ := h
  rw [← hfst] at hmem
  obtain ⟨⟨c, v⟩, hp, rfl⟩ := List.mem_map.1 hmem
  have hnd' : (pairs.map Prod.fst).Nodup := by
    rw [hfst]
    exact hnd.sublist (List.filter_sublist.map _)
  exact ⟨v, (lookup_fill_empty hnd' c v).2 hp, hval _ hp⟩

theorem Keyed.mem_of_lookup (h : Keyed rm msg key) (hnd : (rm.columns.map (·.name)).Nodup)
    {column : String} {v : Text} (hl : key.lookup column = some v) :
    column ∈ rm.keyColumns.map (·.name) := by
  obtain ⟨pairs, rfl, hfst, -⟩ := h
  have hnd' : (pairs.map Prod.fst).Nodup := by
    rw [hfst]
    exact hnd.sublist (List.filter_sublist.map _)
  rw [← hfst]
  exact List.mem_map.2 ⟨_, (lookup_fill_empty hnd' column v).1 hl, rfl⟩

end Keyed

/-! ## Slicing -/

theorem slice_middle (before data after : Text) :
    slice (before ++ (data ++ after)) before.length (before.length + data.length) = data := by
  simp [slice]

/-- The value a tuple column stands for. -/
def TupleDataColumn.value (c : TupleDataColumn) : Value :=
  if c.dataType = tupleDataTypeText then ⟨.text, c.data⟩
  else if c.dataType = tupleDataTypeToast then ⟨.unchangedToast, []⟩
  else ⟨.null, []⟩

theorem sliceValues_eq (tuple : TupleData) (before : Text) :
    sliceValues (before ++ rowText tuple) before.length tuple =
      tuple.map TupleDataColumn.value := by
  induction tuple generalizing before with
  | nil => rfl
  | cons c cs ih =>
    by_cases htext : c.dataType = tupleDataTypeText
    · have hrow : before ++ rowText (c :: cs) = (before ++ c.data) ++ rowText cs := by
        simp [rowText, htext]
      have hlen : before.length + c.data.length = (before ++ c.data).length := by simp
      have hrest := ih (before ++ c.data)
      have hfirst : slice (before ++ c.data ++ rowText cs) before.length
          (before.length + c.data.length) = c.data := by
        rw [List.append_assoc]
        exact slice_middle before c.data (rowText cs)
      simp only [sliceValues, if_pos htext, hrow, List.map_cons, hfirst,
        TupleDataColumn.value]
      rw [hlen, hrest]
    · have hrow : rowText (c :: cs) = rowText cs := by simp [rowText, htext]
      simp only [sliceValues, if_neg htext, hrow, ih, List.map_cons, TupleDataColumn.value]
      split <;> rfl

/-- Slicing one string while filling a map puts each element's own text in. -/
theorem foldl_slice {ι : Type} (name : ι → String) (data : ι → Text) (l : List ι) (before : Text)
    (key : TextMap) :
    (l.foldl (fun (acc : TextMap × Nat) i =>
      (acc.1.insert (name i) (slice (before ++ l.flatMap data) acc.2 (acc.2 + (data i).length)),
        acc.2 + (data i).length)) (key, before.length)).1 =
      fill key (l.map fun i => (name i, data i)) := by
  induction l generalizing before key with
  | nil => rfl
  | cons i l ih =>
    have htext : before ++ (i :: l).flatMap data = (before ++ data i) ++ l.flatMap data := by
      simp
    have hlen : before.length + (data i).length = (before ++ data i).length := by simp
    have hfirst : slice (before ++ data i ++ l.flatMap data) before.length
        (before.length + (data i).length) = data i := by
      rw [List.append_assoc]
      exact slice_middle before (data i) (l.flatMap data)
    rw [List.foldl_cons, List.map_cons, fill_cons, htext]
    simp only [hfirst]
    rw [hlen]
    exact ih (before ++ data i) (key.insert (name i) (data i))

/-! ## Flagged positions -/

/-- The name and cell of each flagged column of a complete row. -/
def keyCells (rm : RelationMessage) (tuple : TupleData) : List (String × TupleDataColumn) :=
  ((rm.columns.zip tuple).filter (·.1.flags = 1)).map fun p => (p.1.name, p.2)

theorem keyIndexesFrom_map (cs : List RelationColumn) (tuple : TupleData)
    (names : List String) (before : TupleData) (hlen : tuple.length = cs.length)
    (hbefore : before.length = names.length) :
    (keyIndexesFrom names.length cs).map (fun i =>
      ((names ++ cs.map (·.name)).getD i "", (before ++ tuple).getD i .missing)) =
      ((cs.zip tuple).filter (·.1.flags = 1)).map fun p => (p.1.name, p.2) := by
  induction cs generalizing tuple names before with
  | nil => rfl
  | cons c cs ih =>
    cases tuple with
    | nil => simp at hlen
    | cons cell tuple =>
      have hnames : names ++ (c :: cs).map (·.name) = (names ++ [c.name]) ++ cs.map (·.name) := by
        simp
      have hcells : before ++ cell :: tuple = (before ++ [cell]) ++ tuple := by simp
      have hnext : names.length + 1 = (names ++ [c.name]).length := by simp
      have hrest := ih tuple (names ++ [c.name]) (before ++ [cell]) (by simpa using hlen)
        (by simp [hbefore])
      rw [keyIndexesFrom, hnames, hcells, hnext, List.zip_cons_cons, List.filter_cons]
      by_cases hflag : c.flags = 1
      · simp only [hflag, if_true, List.map_cons, hrest, decide_true]
        congr 2
        · simp
        · simp [← hbefore]
      · simp only [hflag, if_false, hrest, decide_false, Bool.false_eq_true]

theorem keyCells_fst {rm : RelationMessage} {tuple : TupleData}
    (hlen : tuple.length = rm.columns.length) :
    (keyCells rm tuple).map Prod.fst = rm.keyColumns.map (·.name) := by
  have hzip : (rm.columns.zip tuple).map Prod.fst = rm.columns :=
    List.map_fst_zip (Nat.le_of_eq hlen.symm)
  unfold keyCells RelationMessage.keyColumns
  conv_rhs => rw [← hzip, List.filter_map, List.map_map]
  rw [List.map_map]
  rfl

theorem valueIn_of_keyCells {rm : RelationMessage} {tuple : TupleData}
    (hnd : (rm.columns.map (·.name)).Nodup) (hlen : tuple.length = rm.columns.length)
    {nc : String × TupleDataColumn} (h : nc ∈ keyCells rm tuple)
    (htext : nc.2.dataType = tupleDataTypeText) :
    valueIn (rm.columns.map (·.name)) tuple nc.1 = some nc.2.data := by
  obtain ⟨p, hp, rfl⟩ := List.mem_map.1 h
  have hmem : (p.1.name, p.2) ∈ (rm.columns.map (·.name)).zip tuple := by
    rw [List.zip_map_left]
    exact List.mem_map.2 ⟨p, (List.mem_filter.1 hp).1, rfl⟩
  have hnd' : (((rm.columns.map (·.name)).zip tuple).map Prod.fst).Nodup := by
    rwa [List.map_fst_zip (by simp [hlen])]
  rw [valueIn, (lookup_eq_some_iff hnd').2 hmem]
  exact if_pos htext

/-! ## Relations the decoder holds -/

/-- `info` was made from `rm`; only what `check` decided may differ. -/
def RelationInfo.IsOf (info : RelationInfo) (rm : RelationMessage) : Prop :=
  info = { newRelationInfo rm with checked := info.checked, incompatible := info.incompatible }

namespace RelationInfo.IsOf

variable {info : RelationInfo} {rm : RelationMessage} (h : info.IsOf rm)

include h

theorem table_eq : info.table = qualifiedTable rm.nspace rm.relationName := by rw [h]; rfl

theorem columns_eq : info.columns = rm.columns.map (·.name) := by rw [h]; rfl

theorem keyIndexes_eq : info.keyIndexes = keyIndexesFrom 0 rm.columns := by rw [h]; rfl

theorem length_columns : info.columns.length = rm.columns.length := by
  rw [h.columns_eq, List.length_map]

/-- The flagged positions of a complete row, read out. -/
theorem map_keyIndexes {tuple : TupleData} (hlen : tuple.length = info.columns.length) :
    info.keyIndexes.map (fun i => (info.column i, tuple.getD i .missing)) = keyCells rm tuple := by
  have := keyIndexesFrom_map rm.columns tuple [] [] (hlen.trans h.length_columns) rfl
  simp only [List.length_nil, List.nil_append] at this
  simp only [RelationInfo.column, h.columns_eq, h.keyIndexes_eq]
  exact this

theorem map_column : info.keyIndexes.map info.column = rm.keyColumns.map (·.name) := by
  have hlen : (List.replicate rm.columns.length TupleDataColumn.missing).length =
      rm.columns.length := List.length_replicate
  rw [← keyCells_fst hlen, ← h.map_keyIndexes (hlen.trans h.length_columns.symm), List.map_map]
  rfl

theorem check (events : List IncompatibleRelationError) (reads : Option Reads) :
    (info.check events reads).1.IsOf rm := by
  cases reads with
  | none => exact h
  | some reads =>
    unfold RelationInfo.check
    simp only
    split
    · rw [h]; rfl
    · split
      · rw [h]; rfl
      · rw [h]; rfl

end RelationInfo.IsOf

/-! ## What the decoding functions return -/

theorem checkRow_length {info : RelationInfo} {tuple : TupleData} {maxValueBytes : Int} {n : Nat}
    (h : checkRow info tuple maxValueBytes = .ok n) : tuple.length = info.columns.length := by
  unfold checkRow at h
  split at h
  · cases h
  · next hlen => exact not_not.1 hlen

theorem decodeRow_eq {info : RelationInfo} {tuple : Option TupleData} {maxValueBytes : Int}
    {values : List Value} (h : decodeRow info tuple maxValueBytes = .ok values) :
    ∃ t, tuple = some t ∧ t.length = info.columns.length ∧
      values = t.map TupleDataColumn.value := by
  cases tuple with
  | none => cases h
  | some t =>
    obtain ⟨n, hcheck, hvalues⟩ := bind_eq_ok.1 h
    cases hvalues
    exact ⟨t, rfl, checkRow_length hcheck, sliceValues_eq t []⟩

theorem getD_map_value (t : TupleData) (i : Nat) :
    (t.map TupleDataColumn.value).getD i {} = (t.getD i .missing).value := by
  rw [List.getD_eq_getElem?_getD, List.getD_eq_getElem?_getD, List.getElem?_map]
  cases t[i]? <;> rfl

theorem dataType_of_value_kind {c : TupleDataColumn} (h : c.value.kind = .text) :
    c.dataType = tupleDataTypeText ∧ c.value.text = c.data := by
  unfold TupleDataColumn.value at h ⊢
  by_cases htext : c.dataType = tupleDataTypeText
  · rw [if_pos htext]
    exact ⟨htext, rfl⟩
  · rw [if_neg htext] at h
    split at h <;> cases h

theorem keyFromValues_eq {info : RelationInfo} {values : List Value} {key : TextMap}
    (h : keyFromValues info values = .ok key) :
    (∀ i ∈ info.keyIndexes, (values.getD i {}).kind = .text) ∧
      key = fill ∅ (info.keyIndexes.map fun i => (info.column i, (values.getD i {}).text)) := by
  unfold keyFromValues at h
  split at h
  · cases h
  · obtain ⟨hgood, hkey⟩ := foldlM_guard.1 h
    refine ⟨fun i hi => not_not.1 fun hk => hgood i hi (.inl hk), ?_⟩
    rw [hkey, fill, List.foldl_map]

theorem keyFromTuple_eq (info : RelationInfo) (columns : TupleData) :
    keyFromTuple info columns = fill ∅ (info.keyIndexes.zipIdx.map fun ik =>
      (info.column ik.1, (keyColumn info columns ik.2).data)) := by
  have htext : ((List.range info.keyIndexes.length).flatMap fun k =>
      (keyColumn info columns k).data) =
      info.keyIndexes.zipIdx.flatMap fun ik => (keyColumn info columns ik.2).data := by
    rw [List.range_eq_range', ← List.zipIdx_map_snd 0 info.keyIndexes, List.flatMap_map]
  have := foldl_slice (fun ik : Nat × Nat => info.column ik.1)
    (fun ik => (keyColumn info columns ik.2).data) info.keyIndexes.zipIdx [] ∅
  rw [← this, keyFromTuple, htext]
  rfl

theorem getD_of_mem_zipIdx {l : List Nat} {ik : Nat × Nat} (h : ik ∈ l.zipIdx) :
    l.getD ik.2 0 = ik.1 := by
  rw [List.mem_zipIdx_iff_getElem?] at h
  rw [List.getD_eq_getElem?_getD, h, Option.getD_some]

/-- The text of the `k`-th cell of a tuple, under the `k`-th name. -/
theorem valueIn_of_zipIdx {l : List Nat} {name : Nat → String} {tuple : TupleData}
    (hnd : (l.map name).Nodup) (hlen : tuple.length = l.length)
    (htext : ∀ c ∈ tuple, c.dataType = tupleDataTypeText) {ik : Nat × Nat} (h : ik ∈ l.zipIdx) :
    valueIn (l.map name) tuple (name ik.1) = some (tuple.getD ik.2 .missing).data := by
  rw [List.mem_zipIdx_iff_getElem?] at h
  have hlt : ik.2 < tuple.length := hlen ▸ (List.getElem?_eq_some_iff.1 h).1
  have hcell : tuple[ik.2]? = some tuple[ik.2] := List.getElem?_eq_getElem hlt
  have hmem : (name ik.1, tuple[ik.2]) ∈ (l.map name).zip tuple := by
    apply List.mem_of_getElem? (i := ik.2)
    rw [List.getElem?_zip_eq_some]
    exact ⟨by rw [List.getElem?_map, h, Option.map_some], hcell⟩
  have hnd' : (((l.map name).zip tuple).map Prod.fst).Nodup := by
    rwa [List.map_fst_zip (by simp [hlen])]
  rw [valueIn, (lookup_eq_some_iff hnd').2 hmem, List.getD_eq_getElem?_getD, hcell]
  exact if_pos (htext _ (List.getElem_mem hlt))

/-- A tuple `checkKeyTuple` accepts is a complete row or has the key columns only, and its key
columns are text. -/
theorem checkKeyTuple_cases {info : RelationInfo} {tuple : Option TupleData} {maxValueBytes : Int}
    (h : checkKeyTuple info tuple maxValueBytes = .ok ()) :
    ∃ t, tuple = some t ∧
      (t.length = info.columns.length ∧
          (∀ i ∈ info.keyIndexes, (t.getD i .missing).dataType = tupleDataTypeText) ∨
        t.length ≠ info.columns.length ∧ t.length = info.keyIndexes.length ∧
          ∀ c ∈ t, c.dataType = tupleDataTypeText) := by
  cases tuple with
  | none => cases h
  | some t =>
    refine ⟨t, rfl, ?_⟩
    unfold checkKeyTuple at h
    simp only at h
    split at h
    · cases h
    · split at h
      · next hlen =>
        obtain ⟨-, -, hkeys⟩ := bind_eq_ok.1 h
        refine .inl ⟨hlen, fun i hi => not_not.1 fun hne => ?_⟩
        have := forM_eq_ok.1 hkeys i hi
        rw [if_pos (.inl hne)] at this
        cases this
      · next hne =>
        split at h
        · next hlen =>
          refine .inr ⟨hne, hlen, fun c hc => not_not.1 fun htext => ?_⟩
          have hzip : (info.keyIndexes.zip t).map Prod.snd = t :=
            List.map_snd_zip (Nat.le_of_eq hlen)
          rw [← hzip] at hc
          obtain ⟨ic, hic, rfl⟩ := List.mem_map.1 hc
          have := forM_eq_ok.1 h ic hic
          simp [checkKeyColumn, htext, inContext] at this
        · cases h

/-! ## Keys -/

theorem Decoder.relation_eq {d : Decoder} {id : UInt32} {info : RelationInfo}
    (h : d.relations.lookup id = some info) : d.relation id = .ok info := by
  rw [Decoder.relation, h]

section Keys

variable {d : Decoder} {info : RelationInfo} {rm : RelationMessage} {change : Change}
  (hinfo : d.relations.lookup rm.relationID = some info) (hof : info.IsOf rm)
  (hnd : (rm.columns.map (·.name)).Nodup)

include hof hnd

/-- The key of a complete new row. -/
theorem keyed_of_values {tuple : TupleData} {key : TextMap} {msg : Message}
    (hlen : tuple.length = info.columns.length)
    (hkey : keyFromValues info (tuple.map TupleDataColumn.value) = .ok key)
    (hmsg : ∀ column, msg.rowValue rm column = valueIn (rm.columns.map (·.name)) tuple column) :
    Keyed rm msg key := by
  obtain ⟨htext, rfl⟩ := keyFromValues_eq hkey
  simp only [getD_map_value] at htext ⊢
  have hlen' := hlen.trans hof.length_columns
  have hcells := hof.map_keyIndexes hlen
  refine ⟨_, rfl, ?_, ?_⟩
  · rw [← keyCells_fst hlen', ← hcells, List.map_map, List.map_map]
    rfl
  · intro p hp
    obtain ⟨i, hi, rfl⟩ := List.mem_map.1 hp
    obtain ⟨htype, hdata⟩ := dataType_of_value_kind (htext i hi)
    rw [hmsg, hdata]
    exact valueIn_of_keyCells hnd hlen' (hcells ▸ List.mem_map.2 ⟨i, hi, rfl⟩) htype

/-- The key of an old tuple. -/
theorem keyed_of_tuple {tuple : TupleData} {maxValueBytes : Int} {id : UInt32}
    (hcheck : checkKeyTuple info (some tuple) maxValueBytes = .ok ()) :
    Keyed rm (.delete ⟨id, some tuple⟩) (keyFromTuple info tuple) := by
  obtain ⟨t, ht, hcases⟩ := checkKeyTuple_cases hcheck
  cases ht
  rw [keyFromTuple_eq]
  refine ⟨_, rfl, ?_, ?_⟩
  · rw [List.map_map, ← hof.map_column]
    conv_rhs => rw [← List.zipIdx_map_fst 0 info.keyIndexes, List.map_map]
    rfl
  · intro p hp
    obtain ⟨ik, hik, rfl⟩ := List.mem_map.1 hp
    rcases hcases with ⟨hlen, htext⟩ | ⟨hne, hlen, htext⟩
    · have hlen' := hlen.trans hof.length_columns
      have hi : ik.1 ∈ info.keyIndexes := List.fst_mem_of_mem_zipIdx hik
      simp only [Message.rowValue, Option.bind_some, if_pos hlen', keyColumn, if_pos hlen,
        getD_of_mem_zipIdx hik]
      exact valueIn_of_keyCells hnd hlen'
        (hof.map_keyIndexes hlen ▸ List.mem_map.2 ⟨ik.1, hi, rfl⟩) (htext _ hi)
    · have hne' : tuple.length ≠ rm.columns.length := fun h => hne (h.trans hof.length_columns.symm)
      simp only [Message.rowValue, Option.bind_some, if_neg hne', keyColumn, if_neg hne]
      rw [← hof.map_column]
      exact valueIn_of_zipIdx (hof.map_column ▸ hnd.sublist (List.filter_sublist.map _)) hlen
        htext hik

include hinfo

theorem keyed_of_insert {m : InsertMessage} (hid : m.relationID = rm.relationID)
    (h : d.insert m = .ok change) :
    Keyed rm (.insert m) change.key ∧ change.table = info.table := by
  obtain ⟨info', hrel, h⟩ := bind_eq_ok.1 h
  rw [hid, Decoder.relation_eq hinfo] at hrel
  cases hrel
  obtain ⟨values, hrow, h⟩ := bind_eq_ok.1 h
  obtain ⟨key, hkey, h⟩ := bind_eq_ok.1 h
  cases h
  obtain ⟨t, ht, hlen, rfl⟩ := decodeRow_eq hrow
  exact ⟨keyed_of_values hof hnd hlen hkey fun column => by rw [Message.rowValue, ht]; rfl, rfl⟩

theorem keyed_of_update {m : UpdateMessage} (hid : m.relationID = rm.relationID)
    (h : d.update m = .ok change) :
    Keyed rm (.update m) change.key ∧ change.table = info.table := by
  obtain ⟨info', hrel, h⟩ := bind_eq_ok.1 h
  rw [hid, Decoder.relation_eq hinfo] at hrel
  cases hrel
  obtain ⟨values, hrow, h⟩ := bind_eq_ok.1 h
  obtain ⟨key, hkey, h⟩ := bind_eq_ok.1 h
  obtain ⟨t, ht, hlen, rfl⟩ := decodeRow_eq hrow
  have hchange : change =
      ⟨.update, info.table, key, info.columns, t.map TupleDataColumn.value⟩ := by
    cases hold : m.oldTuple with
    | none =>
      rw [hold] at h
      cases h
      rfl
    | some old =>
      rw [hold] at h
      obtain ⟨_, _, h⟩ := bind_eq_ok.1 h
      obtain ⟨_, _, h⟩ := bind_eq_ok.1 h
      cases h
      rfl
  subst hchange
  exact ⟨keyed_of_values hof hnd hlen hkey fun column => by rw [Message.rowValue, ht]; rfl, rfl⟩

theorem keyed_of_delete {m : DeleteMessage} (hid : m.relationID = rm.relationID)
    (h : d.delete m = .ok change) :
    Keyed rm (.delete m) change.key ∧ change.table = info.table := by
  obtain ⟨info', hrel, h⟩ := bind_eq_ok.1 h
  rw [hid, Decoder.relation_eq hinfo] at hrel
  cases hrel
  obtain ⟨⟨⟩, hcheck, h⟩ := bind_eq_ok.1 h
  cases h
  obtain ⟨t, ht, -⟩ := checkKeyTuple_cases hcheck
  obtain ⟨id, old⟩ := m
  cases ht
  exact ⟨keyed_of_tuple hof hnd hcheck, rfl⟩

end Keys

end Watchd.Cdc
