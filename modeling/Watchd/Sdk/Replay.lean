import Watchd.Lib.Replay
import Watchd.Sdk.Memory

/-!
# Batches applied again, and batches applied in part

What `Apply` does to the rows is a list of writes, one for each change up to the
first that it refuses.  A write removes a row or replaces it, keeping the current
values of unchanged columns, so each row and each of its columns is overwritten
or kept; replaying the end of what was applied is therefore harmless.  The writes
before a refused change stay.

* `MemoryStore.apply_suffix_again`: replaying a suffix of the batches changes
  nothing;
* `MemoryStore.apply_refused`: when a refused batch leaves no trace.
-/

namespace Watchd.Sdk

open Watchd.Cdc Watchd.Lib

/-! ## The writes of a batch -/

/-- The write a change is, unless `Apply` refuses it. -/
def changeWrite (primaryKey : List String) (c : Change) : Option (Write Text Row) :=
  match keyOf primaryKey c.key with
  | .error _ => none
  | .ok id =>
    match c.operation with
    | .delete => some ⟨id, fun _ => none⟩
    | .insert | .update => some ⟨id, fun current => some (mergeRow current c.values)⟩
    | .unknown => none

/-- The writes of the changes before the first that is refused. -/
def acceptedWrites (primaryKey : List String) : List Change → List (Write Text Row)
  | [] => []
  | c :: cs =>
    match changeWrite primaryKey c with
    | none => []
    | some w => w :: acceptedWrites primaryKey cs

namespace MemoryStore

variable {s : MemoryStore} {c : Change} {cs : List Change} {w : Write Text Row}

theorem applyChange_of_write (h : changeWrite s.primaryKey c = some w) :
    ∃ rows, s.applyChange c = .ok { s with rows := rows } ∧
      Table.ofMap rows = (Table.ofMap s.rows).write w := by
  unfold changeWrite at h
  unfold applyChange
  cases hkey : keyOf s.primaryKey c.key with
  | error err =>
    rw [hkey] at h
    cases h
  | ok id =>
    rw [hkey] at h
    cases hop : c.operation with
    | delete =>
      rw [hop] at h
      cases h
      exact ⟨_, rfl, Table.ofMap_erase s.rows id⟩
    | insert =>
      rw [hop] at h
      cases h
      exact ⟨_, rfl, Table.ofMap_insert s.rows id _⟩
    | update =>
      rw [hop] at h
      cases h
      exact ⟨_, rfl, Table.ofMap_insert s.rows id _⟩
    | unknown =>
      rw [hop] at h
      cases h

theorem applyChange_of_none (h : changeWrite s.primaryKey c = none) :
    ∃ err, s.applyChange c = .error err := by
  unfold changeWrite at h
  unfold applyChange
  cases hkey : keyOf s.primaryKey c.key with
  | error err => exact ⟨err, rfl⟩
  | ok id =>
    rw [hkey] at h
    cases hop : c.operation with
    | unknown => exact ⟨_, rfl⟩
    | _ =>
      rw [hop] at h
      cases h

/-- **What `Apply` does to the rows**, whether it gets to the end of the changes or not. -/
theorem applyChanges_eq (s : MemoryStore) (cs : List Change) :
    ∃ rows err, s.applyChanges cs = ({ s with rows := rows }, err) ∧
      Table.ofMap rows = (Table.ofMap s.rows).writeAll (acceptedWrites s.primaryKey cs) ∧
      (err = none ↔ ∀ c ∈ cs, (changeWrite s.primaryKey c).isSome) := by
  induction cs generalizing s with
  | nil => exact ⟨s.rows, none, rfl, rfl, by simp⟩
  | cons c cs ih =>
    cases hw : changeWrite s.primaryKey c with
    | none =>
      obtain ⟨err, herr⟩ := applyChange_of_none hw
      refine ⟨s.rows, some err, ?_, ?_, by simp [hw]⟩
      · simp only [applyChanges, herr]
      · simp only [acceptedWrites, hw, Table.writeAll_nil]
    | some w =>
      obtain ⟨rows, happly, hrows⟩ := applyChange_of_write hw
      obtain ⟨rows', err, hrest, hrows', herr⟩ := ih { s with rows := rows }
      refine ⟨rows', err, ?_, ?_, by simp [hw, herr]⟩
      · simp only [applyChanges, happly, hrest]
      · rw [hrows', hrows]
        simp only [acceptedWrites, hw, Table.writeAll_cons]

theorem apply_eq (s : MemoryStore) (b : Batch) :
    ∃ rows err, s.apply b =
        ({ s with rows := rows, cursor := if err = none then b.cursor else s.cursor }, err) ∧
      Table.ofMap rows = (Table.ofMap s.rows).writeAll (acceptedWrites s.primaryKey b.changes) ∧
      (err = none ↔ ∀ c ∈ b.changes, (changeWrite s.primaryKey c).isSome) := by
  obtain ⟨rows, err, happly, hrows, herr⟩ := s.applyChanges_eq b.changes
  refine ⟨rows, err, ?_, hrows, herr⟩
  simp only [apply, happly]
  cases err <;> rfl

/-- Batches that hold only changes `Apply` accepts are applied, one after another. -/
theorem applyAll_of_accepted {bs : List Batch}
    (h : ∀ b ∈ bs, ∀ c ∈ b.changes, (changeWrite s.primaryKey c).isSome) :
    ∃ rows, s.applyAll bs =
        (⟨s.primaryKey, rows, (bs.getLast?.map (·.cursor)).getD s.cursor⟩, none) ∧
      Table.ofMap rows =
        (Table.ofMap s.rows).writeAll
          (bs.flatMap fun b => acceptedWrites s.primaryKey b.changes) := by
  induction bs generalizing s with
  | nil => exact ⟨s.rows, rfl, rfl⟩
  | cons b bs ih =>
    rw [List.forall_mem_cons] at h
    obtain ⟨rows, err, happly, hrows, herr⟩ := s.apply_eq b
    obtain rfl := herr.2 h.1
    obtain ⟨rows', hall, hrows'⟩ := ih (s := ⟨s.primaryKey, rows, b.cursor⟩) h.2
    refine ⟨rows', ?_, ?_⟩
    · simp only [applyAll, happly, if_true, hall]
      rw [List.getLast?_cons]
      cases bs.getLast? <;> rfl
    · rw [hrows', hrows, List.flatMap_cons, Table.writeAll_append]

theorem accepted_of_applyAll {s' : MemoryStore} {bs : List Batch}
    (h : s.applyAll bs = (s', none)) :
    ∀ b ∈ bs, ∀ c ∈ b.changes, (changeWrite s.primaryKey c).isSome := by
  induction bs generalizing s with
  | nil => exact nofun
  | cons b bs ih =>
    obtain ⟨rows, err, happly, -, herr⟩ := s.apply_eq b
    simp only [applyAll, happly] at h
    cases err with
    | some err => cases h
    | none => exact List.forall_mem_cons.2 ⟨herr.1 rfl, ih (s := ⟨s.primaryKey, rows, b.cursor⟩) h⟩

end MemoryStore

/-! ## Applying again -/

/-- A write that removes the row or replaces it, keeping unchanged columns. -/
def Replaces (w : Write Text Row) : Prop :=
  (∀ current, w.effect current = none) ∨
    ∃ values, ∀ current, w.effect current = some (mergeRow current values)

theorem changeWrite_replaces {primaryKey : List String} {c : Change} {w : Write Text Row}
    (h : changeWrite primaryKey c = some w) : Replaces w := by
  unfold changeWrite at h
  split at h
  · cases h
  · split at h
    · cases h
      exact .inl fun _ => rfl
    · cases h
      exact .inr ⟨_, fun _ => rfl⟩
    · cases h
      exact .inr ⟨_, fun _ => rfl⟩
    · cases h

theorem acceptedWrites_replaces {primaryKey : List String} {cs : List Change} :
    ∀ w ∈ acceptedWrites primaryKey cs, Replaces w := by
  induction cs with
  | nil => exact nofun
  | cons c cs ih =>
    unfold acceptedWrites
    split
    · exact nofun
    · next w hw => exact List.forall_mem_cons.2 ⟨changeWrite_replaces hw, ih⟩

/-- Such a write decides whether there is a row, or is of another. -/
theorem Replaces.isSome {w : Write Text Row} (h : Replaces w) (id : Text) :
    SetsOrKeeps (fun t : Table Text Row => (t id).isSome) fun t => t.write w := by
  by_cases hid : id = w.key
  · subst hid
    rcases h with hnone | ⟨values, hsome⟩
    · exact .inl ⟨false, fun t => by simp [Table.write, hnone]⟩
    · exact .inl ⟨true, fun t => by simp [Table.write, hsome]⟩
  · exact .inr fun t => by simp [Table.write, Function.update_of_ne hid]

/-- It sets a column, or keeps it: also a column that it leaves unchanged and that is not there. -/
theorem Replaces.column {w : Write Text Row} (h : Replaces w) (id : Text) (column : String) :
    SetsOrKeeps (fun t : Table Text Row => (t id).bind (·.lookup column)) fun t => t.write w := by
  by_cases hid : id = w.key
  · subst hid
    rcases h with hnone | ⟨values, hsome⟩
    · exact .inl ⟨none, fun t => by simp [Table.write, hnone]⟩
    · have hmerge : ∀ t : Table Text Row, (t.write w w.key).bind (·.lookup column) =
          (values.lookup column).bind fun value =>
            if value.unchanged then (t w.key).bind (·.lookup column) else some value := by
        intro t
        simp [Table.write, hsome, mergeRow]
      cases hvalue : values.lookup column with
      | none => exact .inl ⟨none, fun t => by simp [hmerge, hvalue]⟩
      | some value =>
        cases hunchanged : value.unchanged with
        | true => exact .inr fun t => by simp [hmerge, hvalue, hunchanged]
        | false => exact .inl ⟨some value, fun t => by simp [hmerge, hvalue, hunchanged]⟩
  · exact .inr fun t => by simp [Table.write, Function.update_of_ne hid]

theorem row_ext {row row' : Option Row} (hsome : row.isSome = row'.isSome)
    (hcolumn : ∀ column, row.bind (·.lookup column) = row'.bind (·.lookup column)) :
    row = row' := by
  cases row with
  | none =>
    cases row' with
    | none => rfl
    | some r => cases hsome
  | some r =>
    cases row' with
    | none => cases hsome
    | some r' => rw [Finmap.ext_lookup fun column => hcolumn column]

theorem writeAll_again {ws : List (Write Text Row)} (h : ∀ w ∈ ws, Replaces w)
    (t : Table Text Row) : (t.writeAll ws).writeAll ws = t.writeAll ws := by
  funext id
  refine row_ext ?_ fun column => ?_
  · exact (SetsOrKeeps.foldl fun w hw => (h w hw).isSome id).again t
  · exact (SetsOrKeeps.foldl fun w hw => (h w hw).column id column).again t

/-- **Re-applying any suffix of what was applied is harmless**: it is accepted and leaves the store,
rows and cursor, as it is. -/
theorem MemoryStore.apply_suffix_again {s s' : MemoryStore} {earlier suffix : List Batch}
    (h : s.applyAll (earlier ++ suffix) = (s', none)) : s'.applyAll suffix = (s', none) := by
  have haccepted := accepted_of_applyAll h
  obtain ⟨rows, hall, hrows⟩ := applyAll_of_accepted haccepted
  rw [h] at hall
  cases hall
  have hsuffix : ∀ b ∈ suffix, ∀ c ∈ b.changes, (changeWrite s.primaryKey c).isSome :=
    fun b hb => haccepted b (List.mem_append_right _ hb)
  obtain ⟨rows', hagain, hrows'⟩ := applyAll_of_accepted
    (s := ⟨s.primaryKey, rows, ((earlier ++ suffix).getLast?.map (·.cursor)).getD s.cursor⟩) hsuffix
  rw [hagain]
  have hsame : rows' = rows := by
    refine Table.ofMap_inj (hrows'.trans ?_)
    rw [hrows, List.flatMap_append, Table.writeAll_append]
    refine writeAll_again (fun w hw => ?_) _
    obtain ⟨b, -, hw⟩ := List.mem_flatMap.1 hw
    exact acceptedWrites_replaces w hw
  have hcursor : ∀ c : String, (suffix.getLast?.map (·.cursor)).getD
      (((earlier ++ suffix).getLast?.map (·.cursor)).getD c) =
        ((earlier ++ suffix).getLast?.map (·.cursor)).getD c := by
    intro c
    rw [List.getLast?_append]
    cases suffix.getLast? <;> rfl
  rw [hsame, hcursor]

namespace Demo

/-- A change of the row with the key text `key`. -/
def changeAt (operation : Operation) (key : UInt8) (values : List (String × Value)) : Change :=
  ⟨operation, "public.notes", fill ∅ [("id", [key])], fill ∅ (("id", { text := [key] }) :: values)⟩

/-- An update that leaves one column unchanged, a delete, and an insert without that column. -/
def applied : List Batch :=
  [⟨"1", [changeAt .insert 1 [("body", { text := [7] }), ("size", { text := [1] })]]⟩,
    ⟨"2", [changeAt .update 1 [("body", { unchanged := true }), ("size", { null := true })],
      changeAt .delete 2 []]⟩,
    ⟨"3", [changeAt .update 1 [("body", { unchanged := true })], changeAt .insert 2 []]⟩]

end Demo

theorem MemoryStore.apply_suffix_again_run :
    ∃ s, (MemoryStore.mk ["id"] ∅ "").applyAll (Demo.applied.take 1 ++ Demo.applied.drop 1) =
        (s, none) ∧ s.cursor = "3" ∧ s.applyAll (Demo.applied.drop 1) = (s, none) := by
  have haccepted : ∀ b ∈ Demo.applied.take 1 ++ Demo.applied.drop 1, ∀ c ∈ b.changes,
      (changeWrite ["id"] c).isSome := by
    decide
  obtain ⟨rows, h, -⟩ := applyAll_of_accepted (s := ⟨["id"], ∅, ""⟩) haccepted
  exact ⟨_, h, rfl, apply_suffix_again h⟩

/-! ## Applying in part -/

/-- `Apply` refuses the change: it lacks a primary-key column, or its operation is unknown. -/
def Change.Refused (primaryKey : List String) (c : Change) : Prop :=
  (∃ column ∈ primaryKey, c.key.lookup column = none) ∨ c.operation = .unknown

instance (primaryKey : List String) (c : Change) : Decidable (c.Refused primaryKey) :=
  inferInstanceAs (Decidable (_ ∨ _))

/-- The store already is as the change asks for: a deleted row is not there, an inserted or updated
one has the columns of the change and no others, each with the change's value or left unchanged. -/
def MemoryStore.Settled (s : MemoryStore) (c : Change) : Prop :=
  ∀ id, keyOf s.primaryKey c.key = .ok id →
    if c.operation = .delete then s.rows.lookup id = none
    else ∃ row, s.rows.lookup id = some row ∧ ∀ column, row.lookup column =
      (c.values.lookup column).bind fun value =>
        if value.unchanged then row.lookup column else some value

theorem exists_keyOf_iff {primaryKey : List String} {key : TextMap} :
    (∃ id, keyOf primaryKey key = .ok id) ↔ ∀ column ∈ primaryKey, key.lookup column ≠ none := by
  constructor
  · rintro ⟨id, hid⟩
    obtain ⟨k, hk, -⟩ := keyOf_eq_ok.1 hid
    rw [tupleOf, mapM_eq_some] at hk
    clear hid
    induction hk with
    | nil => exact List.forall_mem_nil _
    | cons hcolumn _ ih => exact List.forall_mem_cons.2 ⟨by simp [hcolumn], ih⟩
  · intro h
    have htexts : ∀ column ∈ primaryKey,
        key.lookup column = some ((key.lookup column).getD []) := by
      intro column hc
      obtain ⟨text, htext⟩ := Option.ne_none_iff_exists'.1 (h column hc)
      rw [htext, Option.getD_some]
    exact ⟨_, keyOf_eq htexts⟩

theorem changeWrite_eq_none_iff {primaryKey : List String} {c : Change} :
    changeWrite primaryKey c = none ↔ c.Refused primaryKey := by
  have hkey : (∃ column ∈ primaryKey, c.key.lookup column = none) ↔
      ¬∃ id, keyOf primaryKey c.key = .ok id := by
    rw [exists_keyOf_iff]
    push Not
    rfl
  unfold changeWrite Change.Refused
  rw [hkey]
  cases keyOf primaryKey c.key with
  | error err => simp
  | ok id => cases c.operation <;> simp

/-- A change writes the row of its key. -/
theorem keyOf_of_write {primaryKey : List String} {c : Change} {w : Write Text Row}
    (h : changeWrite primaryKey c = some w) : keyOf primaryKey c.key = .ok w.key := by
  unfold changeWrite at h
  split at h
  · cases h
  · next id hkey => split at h <;> cases h <;> exact hkey

/-- The writes `Apply` gets to are those of the changes before the first refused one. -/
theorem acceptedWrites_eq (primaryKey : List String) (cs : List Change) :
    acceptedWrites primaryKey cs =
      (cs.takeWhile fun c => ¬c.Refused primaryKey).filterMap (changeWrite primaryKey) := by
  induction cs with
  | nil => rfl
  | cons c cs ih =>
    unfold acceptedWrites
    cases hw : changeWrite primaryKey c with
    | none =>
      have hrefused := changeWrite_eq_none_iff.1 hw
      simp [hrefused]
    | some w =>
      have haccepted : ¬c.Refused primaryKey := fun hrefused => by
        rw [changeWrite_eq_none_iff.2 hrefused] at hw
        cases hw
      simp [haccepted, hw, ih]

/-- A change is settled if its write leaves its row alone. -/
theorem MemoryStore.settled_iff {s : MemoryStore} {c : Change} {w : Write Text Row}
    (h : changeWrite s.primaryKey c = some w) :
    s.Settled c ↔ w.effect (s.rows.lookup w.key) = s.rows.lookup w.key := by
  have hmerge : ∀ (current : Option Row) (values : Row),
      some (mergeRow current values) = current ↔ ∃ row, current = some row ∧ ∀ column,
        row.lookup column = (values.lookup column).bind fun value =>
          if value.unchanged then row.lookup column else some value := by
    intro current values
    have hcolumn : ∀ column, (mergeRow current values).lookup column =
        (values.lookup column).bind fun value =>
          if value.unchanged then current.bind (·.lookup column) else some value := by
      simp [mergeRow]
    constructor
    · intro hsame
      cases current with
      | none => cases hsame
      | some row =>
        refine ⟨row, rfl, fun column => ?_⟩
        exact (congrArg (Finmap.lookup column) (Option.some.inj hsame)).symm.trans (hcolumn column)
    · rintro ⟨row, rfl, hrow⟩
      refine congrArg some (Finmap.ext_lookup fun column => ?_)
      rw [hcolumn, hrow]
      rfl
  unfold changeWrite at h
  unfold Settled
  cases hkey : keyOf s.primaryKey c.key with
  | error err =>
    rw [hkey] at h
    cases h
  | ok id =>
    rw [hkey] at h
    cases hop : c.operation with
    | delete =>
      rw [hop] at h
      cases h
      simp [eq_comm]
    | insert | update =>
      rw [hop] at h
      cases h
      simp [hmerge]
    | unknown =>
      rw [hop] at h
      cases h

/-- **When a refused batch leaves the store alone.**  The cursor always stays.  The rows stay if
every change before the first refused one is settled, so if the refused one is the first; and among
batches whose changes before that one are of different rows, only then. -/
theorem MemoryStore.apply_refused {s : MemoryStore} {b : Batch} {err : String}
    (h : (s.apply b).2 = some err) :
    let before := b.changes.takeWhile fun c => ¬c.Refused s.primaryKey
    (s.apply b).1.cursor = s.cursor ∧
      ((∀ c ∈ before, s.Settled c) → (s.apply b).1.rows = s.rows) ∧
      (before.Pairwise (fun c c' => keyOf s.primaryKey c.key ≠ keyOf s.primaryKey c'.key) →
        (s.apply b).1.rows = s.rows → ∀ c ∈ before, s.Settled c) := by
  obtain ⟨rows, err', happly, hrows, -⟩ := s.apply_eq b
  rw [happly] at h ⊢
  rw [acceptedWrites_eq] at hrows
  intro before
  -- every change before the refused one is a write
  have hwrite : ∀ c ∈ before, ∃ w, changeWrite s.primaryKey c = some w := by
    intro c hc
    have hnot : ¬c.Refused s.primaryKey := by
      simpa using List.all_eq_true.1 List.all_takeWhile c hc
    exact Option.ne_none_iff_exists'.1 (mt changeWrite_eq_none_iff.1 hnot)
  refine ⟨by simp_all, fun hsettled => ?_, fun hdistinct hsame c hc => ?_⟩
  · refine Table.ofMap_inj (hrows.trans (Table.writeAll_eq_self fun w hw => ?_))
    obtain ⟨c, hc, hcw⟩ := List.mem_filterMap.1 hw
    exact (settled_iff hcw).1 (hsettled c hc)
  · obtain ⟨w, hw⟩ := hwrite c hc
    have hkeys : (before.filterMap (changeWrite s.primaryKey)).Pairwise
        fun w w' => w.key ≠ w'.key := by
      refine hdistinct.filterMap _ fun c c' hne w hw w' hw' heq => hne ?_
      rw [keyOf_of_write hw, keyOf_of_write hw', heq]
    have hat := congrFun hrows w.key
    rw [Table.writeAll_apply_key hkeys (List.mem_filterMap.2 ⟨c, hc, hw⟩)] at hat
    rw [settled_iff hw]
    exact hat.symm.trans (congrArg (Finmap.lookup w.key) hsame)

namespace Demo

/-- A change without a key. -/
def keyless : Change := ⟨.update, "public.notes", ∅, ∅⟩

/-- A store with one row. -/
def oneNote : MemoryStore := ⟨["id"], fill ∅ [([1], fill ∅ [("id", { text := [1] })])], "5"⟩

end Demo

/-- A batch that deletes a row which is not there, before a change that is refused, leaves the rows
alone. -/
theorem MemoryStore.apply_refused_settled :
    (Demo.oneNote.apply ⟨"6", [Demo.changeAt .delete 2 [], Demo.keyless]⟩).2 =
        some (errMissingKey "id") ∧
      (Demo.oneNote.apply ⟨"6", [Demo.changeAt .delete 2 [], Demo.keyless]⟩).1.rows =
        Demo.oneNote.rows := by
  have h : (Demo.oneNote.apply ⟨"6", [Demo.changeAt .delete 2 [], Demo.keyless]⟩).2 =
      some (errMissingKey "id") := by decide
  have hbefore : [Demo.changeAt .delete 2 [], Demo.keyless].takeWhile
      (fun c => ¬c.Refused Demo.oneNote.primaryKey) = [Demo.changeAt .delete 2 []] := by
    decide
  refine ⟨h, (apply_refused h).2.1 fun c hc => ?_⟩
  rw [hbefore, List.mem_singleton] at hc
  subst hc
  intro id hid
  cases hid
  rw [if_pos (by decide)]
  decide

/-- A batch whose second change is refused has deleted the row. -/
theorem MemoryStore.apply_refused_late :
    (Demo.oneNote.apply ⟨"6", [Demo.changeAt .delete 1 [], Demo.keyless]⟩).2 =
        some (errMissingKey "id") ∧
      Demo.oneNote.rows.lookup [1] ≠ none ∧
      (Demo.oneNote.apply ⟨"6", [Demo.changeAt .delete 1 [], Demo.keyless]⟩).1.rows.lookup [1] =
        none := by
  decide

end Watchd.Sdk
