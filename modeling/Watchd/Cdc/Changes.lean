import Watchd.Cdc.Consume
import Watchd.Cdc.Rows

/-!
# The change a row message stands for

`Message.Decodes` says, column by column, which change a row message is under
a given relation definition.  The decoder decodes a message exactly to that
change (`Decoder.decode_eq_ok_iff`).
-/

namespace Watchd.Cdc

open Watchd.Lib

/-- A new row that is accepted: every column is supported, and there are key columns, all of them
non-empty text. -/
structure RowAccepted (rm : RelationMessage) (maxValueBytes : Int) (t : TupleData) : Prop where
  length_eq : t.length = rm.columns.length
  supported : ∀ c ∈ t, c.Supported maxValueBytes
  keyed : rm.keyColumns ≠ []
  key : ∀ nc ∈ keyCells rm t, nc.2.NonEmptyText

/-- The change that puts the row `t` in place. -/
def rowChange (operation : Operation) (rm : RelationMessage) (t : TupleData) : Change :=
  ⟨operation, qualifiedTable rm.nspace rm.relationName, keyOf rm t, rm.columns.map (·.name),
    t.map TupleDataColumn.value⟩

/-- The old tuple and the new row have one key. -/
def SameKey (rm : RelationMessage) (old t : TupleData) : Prop :=
  (oldCells rm old).map (·.data) = (keyCells rm t).map (·.2.data)

instance (rm : RelationMessage) (old t : TupleData) : Decidable (SameKey rm old t) :=
  inferInstanceAs (Decidable (_ = _))

/-- The row message is `change` under the relation definition `rm`. -/
def Message.Decodes (rm : RelationMessage) (maxValueBytes : Int) (change : Change) :
    Message → Prop
  | .insert m => ∃ t, m.tuple = some t ∧ RowAccepted rm maxValueBytes t ∧
      change = rowChange .insert rm t
  | .update m => ∃ t, m.newTuple = some t ∧ RowAccepted rm maxValueBytes t ∧
      (∀ old ∈ m.oldTuple, KeyTuple rm maxValueBytes old ∧ SameKey rm old t) ∧
      change = rowChange .update rm t
  | .delete m => rm.keyColumns ≠ [] ∧ ∃ old, m.oldTuple = some old ∧
      KeyTuple rm maxValueBytes old ∧
      change = ⟨.delete, qualifiedTable rm.nspace rm.relationName,
        fill ∅ ((rm.keyColumns.map (·.name)).zip ((oldCells rm old).map (·.data))), [], []⟩
  | _ => False

/-- A row message is at most one change. -/
theorem Message.Decodes.unique {rm : RelationMessage} {maxValueBytes : Int} {c c' : Change}
    {msg : Message} (h : msg.Decodes rm maxValueBytes c) (h' : msg.Decodes rm maxValueBytes c') :
    c = c' := by
  cases msg with
  | insert m =>
    obtain ⟨t, ht, -, rfl⟩ := h
    obtain ⟨t', ht', -, rfl⟩ := h'
    cases ht.symm.trans ht'
    rfl
  | update m =>
    obtain ⟨t, ht, -, -, rfl⟩ := h
    obtain ⟨t', ht', -, -, rfl⟩ := h'
    cases ht.symm.trans ht'
    rfl
  | delete m =>
    obtain ⟨-, old, hold, -, rfl⟩ := h
    obtain ⟨-, old', hold', -, rfl⟩ := h'
    cases hold.symm.trans hold'
    rfl
  | _ => exact h.elim

section Relation

variable {d : Decoder} {info : RelationInfo} {rm : RelationMessage} {change : Change}
  (hof : info.IsOf rm)

include hof

/-- Decoding a new row and taking its key. -/
theorem decodeKeyed_eq_ok_iff {tuple : Option TupleData} {maxValueBytes : Int}
    {values : List Value} {key : TextMap} :
    (decodeRow info tuple maxValueBytes = .ok values ∧ keyFromValues info values = .ok key) ↔
      ∃ t, tuple = some t ∧ RowAccepted rm maxValueBytes t ∧ key = keyOf rm t ∧
        values = t.map TupleDataColumn.value := by
  rw [decodeRow_eq_ok_iff]
  constructor
  · rintro ⟨⟨t, rfl, hlen, hsup, rfl⟩, hkey⟩
    have hlen := hlen.trans hof.length_columns
    obtain ⟨hkeyed, htext, rfl⟩ := (keyFromValues_eq_ok_iff hof hlen).mp hkey
    exact ⟨t, rfl, ⟨hlen, hsup, hkeyed, htext⟩, rfl, rfl⟩
  · rintro ⟨t, rfl, h, rfl, rfl⟩
    exact ⟨⟨t, rfl, h.length_eq.trans hof.length_columns.symm, h.supported, rfl⟩,
      (keyFromValues_eq_ok_iff hof h.length_eq).mpr ⟨h.keyed, h.key, rfl⟩⟩

/-- The loop of `update` that compares the old key with the new one. -/
theorem compareKeys_eq_ok_iff {old t : TupleData}
    (hold : old.length = rm.columns.length ∨ old.length = rm.keyColumns.length)
    (hlen : t.length = rm.columns.length) (hkey : ∀ nc ∈ keyCells rm t, nc.2.NonEmptyText)
    (err : GoError) :
    info.keyIndexes.zipIdx.forM (fun ik =>
      if (keyColumn info old ik.2).data ≠ ((t.map TupleDataColumn.value).getD ik.1 {}).text then
        Except.error err
      else .ok ()) = .ok () ↔ SameKey rm old t := by
  have hnew : info.keyIndexes.zipIdx.map (fun ik =>
      ((t.map TupleDataColumn.value).getD ik.1 {}).text) = (keyCells rm t).map (·.2.data) := by
    rw [← hof.map_keyIndexes (hlen.trans hof.length_columns.symm), List.map_map]
    conv_rhs => rw [← List.zipIdx_map_fst 0 info.keyIndexes, List.map_map]
    refine List.map_congr_left fun ik hik => ?_
    have htext := ((hof.forall_keyIndexes hlen TupleDataColumn.NonEmptyText).mpr hkey ik.1
      (List.fst_mem_of_mem_zipIdx hik)).1
    simp only [getD_map_value, TupleDataColumn.value, if_pos htext, Function.comp_apply]
  rw [SameKey, ← hnew, ← map_keyColumn hof hold, List.map_map, List.map_inj_left, forM_eq_ok]
  refine forall₂_congr fun ik _ => ?_
  simp

variable (hinfo : d.relations.lookup rm.relationID = some info)

include hinfo

theorem Decoder.insert_eq_ok_iff {m : InsertMessage} (hid : m.relationID = rm.relationID) :
    d.insert m = .ok change ↔ (Message.insert m).Decodes rm d.maxValueBytes change := by
  simp only [Decoder.insert, hid, relation_eq hinfo, bind_eq_ok, Message.Decodes]
  constructor
  · rintro ⟨info', hinfo', values, hrow, key, hkey, h⟩
    cases hinfo'
    obtain ⟨t, ht, hacc, rfl, rfl⟩ := (decodeKeyed_eq_ok_iff hof).mp ⟨hrow, hkey⟩
    cases h
    exact ⟨t, ht, hacc, by rw [rowChange, hof.table_eq, hof.columns_eq]⟩
  · rintro ⟨t, ht, hacc, rfl⟩
    obtain ⟨hrow, hkey⟩ := (decodeKeyed_eq_ok_iff hof).mpr ⟨t, ht, hacc, rfl, rfl⟩
    refine ⟨info, rfl, _, hrow, _, hkey, ?_⟩
    rw [rowChange, hof.table_eq, hof.columns_eq]
    rfl

theorem Decoder.update_eq_ok_iff {m : UpdateMessage} (hid : m.relationID = rm.relationID) :
    d.update m = .ok change ↔ (Message.update m).Decodes rm d.maxValueBytes change := by
  simp only [Decoder.update, hid, relation_eq hinfo, bind_eq_ok, Message.Decodes]
  constructor
  · rintro ⟨info', hinfo', values, hrow, key, hkey, h⟩
    cases hinfo'
    obtain ⟨t, ht, hacc, rfl, rfl⟩ := (decodeKeyed_eq_ok_iff hof).mp ⟨hrow, hkey⟩
    refine ⟨t, ht, hacc, ?_⟩
    cases hold : m.oldTuple with
    | none =>
      rw [hold] at h
      cases h
      exact ⟨by simp, by rw [rowChange, hof.table_eq, hof.columns_eq]⟩
    | some old =>
      rw [hold] at h
      obtain ⟨_, hcheck, h⟩ := bind_eq_ok.mp h
      obtain ⟨_, hsame, h⟩ := bind_eq_ok.mp h
      cases h
      obtain ⟨_, hold', hkt⟩ := (checkKeyTuple_eq_ok_iff hof hacc.keyed).mp hcheck
      cases hold'
      refine ⟨?_, by rw [rowChange, hof.table_eq, hof.columns_eq]⟩
      intro old' hmem
      cases hmem
      exact ⟨hkt, (compareKeys_eq_ok_iff hof hkt.length_cases hacc.length_eq hacc.key _).mp hsame⟩
  · rintro ⟨t, ht, hacc, hall, rfl⟩
    obtain ⟨hrow, hkey⟩ := (decodeKeyed_eq_ok_iff hof).mpr ⟨t, ht, hacc, rfl, rfl⟩
    refine ⟨info, rfl, _, hrow, _, hkey, ?_⟩
    rw [rowChange, ← hof.table_eq, ← hof.columns_eq]
    cases hold : m.oldTuple with
    | none => rfl
    | some old =>
      obtain ⟨hkt, hsame⟩ := hall old hold
      refine bind_eq_ok.mpr ⟨(), (checkKeyTuple_eq_ok_iff hof hacc.keyed).mpr ⟨old, rfl, hkt⟩, ?_⟩
      exact bind_eq_ok.mpr ⟨(),
        (compareKeys_eq_ok_iff hof hkt.length_cases hacc.length_eq hacc.key _).mpr hsame, rfl⟩

theorem Decoder.delete_eq_ok_iff {m : DeleteMessage} (hid : m.relationID = rm.relationID) :
    d.delete m = .ok change ↔ (Message.delete m).Decodes rm d.maxValueBytes change := by
  simp only [Decoder.delete, hid, relation_eq hinfo, bind_eq_ok, Message.Decodes]
  constructor
  · rintro ⟨info', hinfo', _, hcheck, h⟩
    cases hinfo'
    cases h
    have hkeyed := keyed_of_checkKeyTuple hof hcheck
    obtain ⟨old, hold, hkt⟩ := (checkKeyTuple_eq_ok_iff hof hkeyed).mp hcheck
    refine ⟨hkeyed, old, hold, hkt, ?_⟩
    rw [hold, Option.getD_some, keyFromTuple_eq_fill hof hkt.length_cases, hof.table_eq]
  · rintro ⟨hkeyed, old, hold, hkt, rfl⟩
    refine ⟨info, rfl, (), (checkKeyTuple_eq_ok_iff hof hkeyed).mpr ⟨old, hold, hkt⟩, ?_⟩
    rw [hold, Option.getD_some, keyFromTuple_eq_fill hof hkt.length_cases, hof.table_eq]
    rfl

/-- **Decoding a row message** of a relation made from `rm`. -/
theorem Decoder.decode_eq_ok_iff {msg : Message} (hrow : msg.row? = some rm.relationID) :
    msg.decode d = .ok change ↔ msg.Decodes rm d.maxValueBytes change := by
  cases msg with
  | insert m => exact insert_eq_ok_iff hof hinfo (Option.some.inj hrow)
  | update m => exact update_eq_ok_iff hof hinfo (Option.some.inj hrow)
  | delete m => exact delete_eq_ok_iff hof hinfo (Option.some.inj hrow)
  | _ => cases hrow

end Relation

end Watchd.Cdc
