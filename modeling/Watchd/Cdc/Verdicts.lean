import Watchd.Cdc.Incompatible
import Watchd.Cdc.Segments
import Watchd.Cdc.Validation
import Watchd.Lib.History

/-!
# Cached verdicts

Whether a relation agrees with its baseline is decided when its definition
arrives, and again when a row of it finds that the registry's generation moved.
In between the decision is kept.  As every change of a baseline moves the
generation, a kept decision is the one a comparison on the spot would give; and
as every check reports what it finds, a table whose rows are dropped is named in
a transaction by the next COMMIT at the latest.

`drops_fresh_and_announced` states both over every run.
-/

namespace Watchd.Cdc

open Watchd.Lib

/-! ## Baselines that validation records -/

/-- No two columns share a name, and the key is sorted and names no column twice. -/
structure RelationShape.Proper (b : RelationShape) : Prop where
  names_nodup : (b.columns.map (·.name)).Nodup
  key_nodup : b.key.Nodup
  key_sorted : b.key.Pairwise (· ≤ ·)

instance (b : RelationShape) : Decidable b.Proper :=
  decidable_of_iff ((b.columns.map (·.name)).Nodup ∧ b.key.Nodup ∧ b.key.Pairwise (· ≤ ·))
    ⟨fun h => ⟨h.1, h.2.1, h.2.2⟩, fun h => ⟨h.1, h.2, h.3⟩⟩

/-- The relation differs from the baseline in its OID, its replica identity, the set of its key
columns or the list of its columns with their types. -/
def RelationShape.Differs (b : RelationShape) (rm : RelationMessage) : Prop :=
  b.oid ≠ rm.relationID ∨ b.replicaIdentity ≠ rm.replicaIdentity ∨
    (¬∀ column, column ∈ b.key ↔ column ∈ rm.keyColumns.map (·.name)) ∨
    b.columns ≠ rm.columns.map fun c => ⟨c.name, c.dataType⟩

theorem sortStrings_pairwise (names : List String) : (sortStrings names).Pairwise (· ≤ ·) :=
  List.pairwise_insertionSort _ names

theorem sortStrings_nodup {names : List String} : (sortStrings names).Nodup ↔ names.Nodup :=
  (List.perm_insertionSort _ names).nodup_iff

theorem identityKey_nodup {fails : ShapeQuery → Option GoError} {catalog : Catalog}
    {spec : ProjectionSpec} {columns : List ShapeColumn} {b : UInt8} {key : List String}
    (hspec : spec.primaryKey.Nodup) (hindex : catalog.replicaIndex.Nodup)
    (hcolumns : (columns.map (·.name)).Nodup)
    (h : identityKey fails catalog spec columns b = .ok key) : key.Nodup := by
  unfold identityKey at h
  split at h
  · cases h
    exact hspec
  · split at h
    · cases h
      exact hcolumns
    · split at h
      · rw [queried_eq_ok h]
        exact hindex
      · cases h
        exact List.nodup_nil

/-- The baseline of an accepted spec is proper, as an index covers no column twice. -/
theorem projectionShape_proper {fails : ShapeQuery → Option GoError} {catalog : Catalog}
    {spec : ProjectionSpec} {shape : RelationShape}
    (hspec : validateProjectionSpecConfig spec = .ok ()) (hindex : catalog.replicaIndex.Nodup)
    (h : projectionShape fails catalog spec = .ok shape) : shape.Proper := by
  have hnames : (shape.columns.map (·.name)).Nodup := by
    rw [(projectionShape_eq h).2.1]
    exact catalog.names_nodup.sublist List.filter_sublist
  obtain ⟨⟨oid, published⟩, hrel, h⟩ := bind_eq_ok.1 h
  cases hident : catalog.identityByte with
  | none =>
    simp only [hident] at h
    cases h
  | some b =>
    simp only [hident] at h
    obtain ⟨columns, -, h⟩ := bind_eq_ok.1 h
    obtain ⟨key, hkey, h⟩ := bind_eq_ok.1 h
    cases h
    exact ⟨hnames, sortStrings_nodup.mpr (identityKey_nodup (primaryKey_nodup hspec) hindex
      hnames hkey), sortStrings_pairwise key⟩

/-- Two sorted lists without repetitions are equal if they have the same members. -/
theorem eq_of_sorted {a b : List String} (ha : a.Nodup) (ha' : a.Pairwise (· ≤ ·))
    (hb : b.Nodup) (hb' : b.Pairwise (· ≤ ·)) (h : ∀ x, x ∈ a ↔ x ∈ b) : a = b :=
  List.Perm.eq_of_pairwise (fun _ _ _ _ => String.le_antisymm) ha' hb'
    ((List.perm_ext_iff_of_nodup ha hb).mpr h)

/-- Comparing key columns as sorted lists is comparing them as sets. -/
theorem RelationShape.Proper.differs_iff {b : RelationShape} (hb : b.Proper)
    {rm : RelationMessage} : b.Differs rm ↔ b.diff (shapeOfRelation rm) ≠ "" := by
  rw [Ne, RelationShape.diff_eq_empty_iff, ← not_iff_not, not_not]
  unfold Differs
  simp only [not_or, not_not]
  refine and_congr Iff.rfl (and_congr Iff.rfl ⟨fun ⟨hkey, hcolumns⟩ => ⟨?_, hcolumns⟩, ?_⟩)
  · -- equal columns have distinct names on both sides
    have hnames : (rm.columns.map (·.name)).Nodup := by
      have := hb.names_nodup
      rwa [hcolumns, List.map_map] at this
    have hnodup : (rm.keyColumns.map (·.name)).Nodup :=
      hnames.sublist (List.filter_sublist.map _)
    refine eq_of_sorted hb.key_nodup hb.key_sorted (sortStrings_nodup.mpr hnodup)
      (sortStrings_pairwise _) fun column => ?_
    rw [hkey column]
    exact mem_sortStrings.symm
  · rintro ⟨hkey, hcolumns⟩
    refine ⟨fun column => ?_, hcolumns⟩
    rw [hkey]
    exact mem_sortStrings

/-! ## Generations -/

namespace Shapes

/-- Every baseline of the registry is proper. -/
def Proper (s : Shapes) : Prop := ∀ table b, s.baselineByTable table = some b → b.Proper

/-- `s'` is what `s` became: the generation did not go back, and it moved if anything changed. -/
structure Before (s s' : Shapes) : Prop where
  gen_le : s.gen ≤ s'.gen
  eq_of_gen : s'.gen = s.gen → s' = s

theorem Before.refl (s : Shapes) : s.Before s := ⟨Nat.le_refl _, fun _ => rfl⟩

theorem Before.trans {s s' s'' : Shapes} (h : s.Before s') (h' : s'.Before s'') : s.Before s'' := by
  refine ⟨Nat.le_trans h.gen_le h'.gen_le, fun hgen => ?_⟩
  have hle := h.gen_le
  have hle' := h'.gen_le
  have heq : s' = s := h.eq_of_gen (by omega)
  exact (h'.eq_of_gen (by omega)).trans heq

theorem before_record (s : Shapes) (shape : RelationShape) : s.Before (s.record shape) := by
  unfold record
  split
  · exact ⟨Nat.le_succ _, fun h => absurd h (Nat.succ_ne_self _)⟩
  · split
    · exact .refl s
    · exact ⟨Nat.le_succ _, fun h => absurd h (Nat.succ_ne_self _)⟩

theorem before_recordAll (s : Shapes) (shapes : List RelationShape) :
    s.Before (s.recordAll shapes) := by
  induction shapes generalizing s with
  | nil => exact .refl s
  | cons shape shapes ih => exact (s.before_record shape).trans (ih (s.record shape))

theorem Proper.record {s : Shapes} (h : s.Proper) {shape : RelationShape} (hshape : shape.Proper) :
    (s.record shape).Proper := by
  have hinsert : ∀ table b, (s.byTable.insert shape.table shape).lookup table = some b →
      b.Proper := by
    intro table b hb
    by_cases ht : table = shape.table
    · subst ht
      cases (Finmap.lookup_insert _).symm.trans hb
      exact hshape
    · exact h table b ((Finmap.lookup_insert_of_ne _ ht).symm.trans hb)
  unfold Shapes.record
  split
  · exact hinsert
  · split
    · exact h
    · exact hinsert

theorem Proper.recordAll {s : Shapes} (h : s.Proper) {shapes : List RelationShape}
    (hshapes : ∀ shape ∈ shapes, shape.Proper) : (s.recordAll shapes).Proper := by
  induction shapes generalizing s with
  | nil => exact h
  | cons shape shapes ih =>
    rw [List.forall_mem_cons] at hshapes
    exact ih (h.record hshapes.1) hshapes.2

/-- The verdict that a comparison with the baseline of the relation's table gives. -/
def rejects (s : Shapes) (info : RelationInfo) : Bool :=
  (s.baselineByTable info.table).any fun b => b.diff info.shape ≠ ""

theorem Proper.rejects_iff {s : Shapes} (h : s.Proper) {info : RelationInfo} {rm : RelationMessage}
    (hof : info.IsOf rm) :
    s.rejects info = true ↔
      ∃ b ∈ s.baselineByTable (qualifiedTable rm.nspace rm.relationName), b.Differs rm := by
  have hshape : info.shape = shapeOfRelation rm := by rw [hof]; rfl
  rw [rejects, hof.table_eq, hshape, Option.any_eq_true]
  refine exists_congr fun b => and_congr_right fun hb => ?_
  rw [(h _ b hb).differs_iff, decide_eq_true_iff]

end Shapes

/-! ## The kept verdict -/

namespace RelationInfo

variable {info : RelationInfo} {s s' : Shapes}

/-- The verdict kept for the relation is the registry's, unless the generation has moved. -/
structure Fresh (info : RelationInfo) (s : Shapes) : Prop where
  checked_le : info.checked ≤ s.gen
  verdict : info.checked = s.gen → info.incompatible.isSome = s.rejects info

theorem Fresh.later (h : info.Fresh s) (hb : s.Before s') : info.Fresh s' := by
  refine ⟨Nat.le_trans h.checked_le hb.gen_le, fun hgen => ?_⟩
  have hle := h.checked_le
  have hle' := hb.gen_le
  obtain rfl : s' = s := hb.eq_of_gen (by omega)
  exact h.verdict hgen

/-- A check changes nothing but its own verdict. -/
theorem check_eq (info : RelationInfo) (events : List IncompatibleRelationError) (r : Reads) :
    (info.check events (some r)).1 = { info with
      checked := r.generation.gen
      incompatible := (info.check events (some r)).1.incompatible } := by
  simp only [check]
  split
  · rfl
  · split <;> rfl

/-- A baseline recorded while the check ran leaves the older generation with the newer verdict. -/
theorem fresh_check (info : RelationInfo) (events : List IncompatibleRelationError) {r : Reads}
    (h : r.generation.Before r.table) : (info.check events (some r)).1.Fresh r.table := by
  have hinc := info.check_incompatible events r
  rw [check_eq] at hinc ⊢
  exact ⟨h.gen_le, fun _ => hinc⟩

/-- The registry a row's verdict is of: the one `skip` finds if the verdict is kept, else the one
the check compares with. -/
def decidedOn (info : RelationInfo) (r : Reads) : Shapes :=
  if info.checked = r.skip.gen then r.skip else r.table

theorem Fresh.disagrees_eq {r : Reads} (h : info.Fresh r.skip) :
    info.disagrees (some r) = (info.decidedOn r).rejects info := by
  by_cases hgen : info.checked = r.skip.gen
  · simp [disagrees, outdated, decidedOn, hgen, h.verdict hgen]
  · simp [disagrees, outdated, decidedOn, hgen, Shapes.rejects]

end RelationInfo

/-! ## Reports -/

theorem mem_report_of_mem {events : List IncompatibleRelationError}
    {event e : IncompatibleRelationError} (h : e ∈ events) : e ∈ report events event := by
  unfold report
  split
  · exact h
  · exact List.mem_append_left _ h

theorem exists_mem_report (events : List IncompatibleRelationError)
    (event : IncompatibleRelationError) : ∃ e ∈ report events event, e.table = event.table := by
  unfold report
  split
  · next h => simpa using h
  · exact ⟨event, by simp, rfl⟩

namespace RelationInfo

theorem mem_reportRenamed_of_mem {info : RelationInfo} {events : List IncompatibleRelationError}
    {renamed? : Option RelationShape} {e : IncompatibleRelationError} (h : e ∈ events) :
    e ∈ info.reportRenamed events renamed? := by
  unfold reportRenamed
  split
  · exact h
  · split
    · exact mem_report_of_mem h
    · exact h

/-- A check forgets no event, -/
theorem mem_check_of_mem {info : RelationInfo} {events : List IncompatibleRelationError}
    {reads : Option Reads} {e : IncompatibleRelationError} (h : e ∈ events) :
    e ∈ (info.check events reads).2 := by
  cases reads with
  | none => exact h
  | some r =>
    simp only [check]
    split
    · exact mem_reportRenamed_of_mem h
    · split
      · exact mem_report_of_mem (mem_reportRenamed_of_mem h)
      · exact mem_reportRenamed_of_mem h

/-- and reports the relation's table if it finds it incompatible. -/
theorem exists_mem_check {info : RelationInfo} {events : List IncompatibleRelationError} {r : Reads}
    (h : (info.check events (some r)).1.incompatible.isSome = true) :
    ∃ e ∈ (info.check events (some r)).2, e.table = info.table := by
  simp only [check] at h ⊢
  split at h
  · cases h
  · split at h
    · next hdiff =>
      simp only [if_pos hdiff]
      exact exists_mem_report _ _
    · cases h

end RelationInfo

/-! ## One message -/

section OneMessage

variable {d d' : Decoder} {reads : Option Reads} {msg : Message}
  {r : Except GoError (Option Transaction)}

/-- Where a relation that the decoder holds after a message comes from. -/
theorem Consumed.lookup (hc : Consumed d reads msg d' r) {id : UInt32} {info : RelationInfo}
    (hl : d'.relations.lookup id = some info) :
    d.relations.lookup id = some info ∨ ∃ info₀ : RelationInfo,
      info = (info₀.check d.events reads).1 ∧ d'.events = (info₀.check d.events reads).2 := by
  have hcheck : ∀ {id'} {info₀ : RelationInfo},
      (d.check reads id' info₀).relations.lookup id = some info →
      d.relations.lookup id = some info ∨ info = (info₀.check d.events reads).1 := by
    intro id' info₀ hl
    by_cases hid : id = id'
    · subst hid
      exact .inr (Option.some.inj ((Finmap.lookup_insert _).symm.trans hl)).symm
    · exact .inl ((Finmap.lookup_insert_of_ne _ hid).symm.trans hl)
  have hre : ∀ {id'} {d₁ : Decoder} {info₁ : RelationInfo}, Rechecked d reads id' d₁ info₁ →
      d₁.relations.lookup id = some info →
      d.relations.lookup id = some info ∨ ∃ info₀ : RelationInfo,
        info = (info₀.check d.events reads).1 ∧ d₁.events = (info₀.check d.events reads).2 := by
    intro id' d₁ info₁ hre hl
    cases hre with
    | current _ => exact .inl hl
    | again _ => exact (hcheck hl).imp_right fun heq => ⟨_, heq, rfl⟩
  cases hc with
  | relation m => exact (hcheck hl).imp_right fun heq => ⟨_, heq, rfl⟩
  | dropped _ h _ => exact hre h hl
  | refused _ h _ _ => exact hre h hl
  | appended _ h _ _ _ =>
    have hfrom := hre h hl
    exact hfrom
  | begin _ _ _ => exact .inl hl
  | commit _ _ _ => exact .inl hl
  | ignored _ => exact .inl hl
  | failed _ _ => exact .inl hl

/-- An event is held back until a transaction carries it. -/
theorem Consumed.event_kept (hc : Consumed d reads msg d' r) {e : IncompatibleRelationError}
    (he : e ∈ d.events) : e ∈ d'.events ∨ ∃ t, r = .ok (some t) ∧ e ∈ t.incompatible := by
  have hre : ∀ {id} {d₁ : Decoder} {info : RelationInfo}, Rechecked d reads id d₁ info →
      e ∈ d₁.events := by
    intro id d₁ info hre
    cases hre with
    | current _ => exact he
    | again _ => exact RelationInfo.mem_check_of_mem he
  cases hc with
  | relation m => exact .inl (RelationInfo.mem_check_of_mem he)
  | dropped _ h _ => exact .inl (hre h)
  | refused _ h _ _ => exact .inl (hre h)
  | appended _ h _ _ _ =>
    have hkept := hre h
    exact .inl hkept
  | begin _ _ _ => exact .inl he
  | commit _ _ _ => exact .inr ⟨_, rfl, he⟩
  | ignored _ => exact .inl he
  | failed _ _ => exact .inl he

/-- A row message that is consumed without an error and adds nothing. -/
def Decoder.Drops (d : Decoder) (reads : Option Reads) (msg : Message) : Prop :=
  msg.row?.isSome = true ∧ (d.consume reads msg).2 = .ok none ∧
    (d.consume reads msg).1.pending = d.pending

instance (d : Decoder) (reads : Option Reads) (msg : Message) : Decidable (d.Drops reads msg) :=
  inferInstanceAs (Decidable (_ ∧ _ ∧ _))

theorem Decoder.consume_unknown (reads : Option Reads) {id : UInt32} (hrow : msg.row? = some id)
    (hl : d.relations.lookup id = none) : ∃ err, d.consume reads msg = (d, .error err) := by
  have hrel : d.relation id = .error (errorf .unknownRelation (" ID " ++ toString id.toNat)) := by
    simp [relation, hl]
  refine ⟨errorf .unknownRelation (" ID " ++ toString id.toNat), ?_⟩
  simp only [consume_row hrow, consumeRow, skip, hrel]

theorem Decoder.drops_iff_disagrees {id : UInt32} {info : RelationInfo}
    (hrow : msg.row? = some id) (hl : d.relations.lookup id = some info) :
    d.Drops reads msg ↔ info.disagrees reads = true := by
  have hskip : d.skip reads id = _ := skip_eq hl
  have hpending : (if info.outdated reads then d.check reads id info else d).pending =
      d.pending := by
    split <;> rfl
  generalize (if info.outdated reads then d.check reads id info else d) = d' at hskip hpending
  unfold Drops
  rw [consume_row hrow, consumeRow, hskip]
  cases hdis : info.disagrees reads with
  | true => simp [hrow, hpending]
  | false =>
    cases hdec : msg.decode d' with
    | error err => simp [hdec]
    | ok change =>
      rcases d'.append_cases change with ⟨err, ha⟩ | ⟨pending, hp, ha⟩
      · simp [hdec, ha, Except.map]
      · simp [hdec, ha, Except.map, ← hpending, hp]

/-- The relation of a dropped row is held as incompatible. -/
theorem Decoder.Drops.exists_lookup (h : d.Drops reads msg) {id : UInt32}
    (hrow : msg.row? = some id) :
    ∃ info, (d.consume reads msg).1.relations.lookup id = some info ∧
      info.incompatible.isSome = true := by
  obtain ⟨-, hret, hpending⟩ := h
  have hc := consume_consumed d reads msg
  rw [hret] at hc
  generalize (d.consume reads msg).1 = d' at hc hpending
  cases hc with
  | dropped hrow' hre hinc =>
    cases hrow.symm.trans hrow'
    exact ⟨_, hre.lookup, hinc⟩
  | appended _ _ _ _ hp => simp [hp] at hpending
  | relation m => cases hrow
  | begin _ _ _ => cases hrow
  | ignored hmsg => rcases hmsg with rfl | rfl <;> cases hrow

theorem Message.relation?_of_row {id : UInt32} (h : msg.row? = some id) : msg.relation? = none := by
  cases msg <;> first | rfl | cases h

/-- **A row is dropped exactly if its relation differs from its baseline** in the registry its
verdict is of. -/
theorem Decoder.HoldsLatest.drops_iff {past : List Message}
    (hlatest : d.HoldsLatest past) (reads : Reads) (hskip : reads.skip.Proper)
    (htable : reads.table.Proper)
    (hfresh : ∀ id info, d.relations.lookup id = some info → info.Fresh reads.skip)
    {id : UInt32} (hrow : msg.row? = some id) :
    ∃ moment ∈ [reads.skip, reads.table], (d.Drops (some reads) msg ↔
      ∃ rm ∈ latestRelation past id,
        ∃ b ∈ moment.baselineByTable (qualifiedTable rm.nspace rm.relationName),
          b.Differs rm) := by
  cases hl : d.relations.lookup id with
  | none =>
    have hlast := hlatest id
    rw [hl] at hlast
    obtain ⟨err, hcons⟩ := consume_unknown (some reads) hrow hl
    refine ⟨reads.skip, by simp, ?_⟩
    cases hlast' : latestRelation past id with
    | none => simp [Drops, hcons]
    | some rm =>
      rw [hlast'] at hlast
      cases hlast
  | some info =>
    obtain ⟨rm, -, hlast, hof⟩ := hlatest.exists_isOf hl
    have hmem : info.decidedOn reads ∈ [reads.skip, reads.table] := by
      unfold RelationInfo.decidedOn
      split <;> simp
    have hproper : (info.decidedOn reads).Proper := by
      unfold RelationInfo.decidedOn
      split
      · exact hskip
      · exact htable
    refine ⟨info.decidedOn reads, hmem, ?_⟩
    rw [drops_iff_disagrees hrow hl, (hfresh id info hl).disagrees_eq, hproper.rejects_iff hof,
      hlast]
    simp

end OneMessage

/-! ## Runs -/

namespace Decoding

/-- A decoder from its making, with the registry it was given. -/
def fromNew : Machine Decoding Label where
  init s := (∃ maxTransactionBytes maxTransactionChanges maxValueBytes,
      s.decoder = newDecoderWithLimits maxTransactionBytes maxTransactionChanges maxValueBytes) ∧
    s.returned = [] ∧ ∃ reg, s.shapes = some reg ∧ reg.Proper
  step := step

/-- The baselines recorded by the step are proper. -/
def recordsProper (_ : Decoding) : Label → Prop
  | .record shape => shape.Proper
  | .consume _ r₁ r₂ r₃ => ∀ shape ∈ r₁ ++ r₂ ++ r₃, shape.Proper

instance (s : Decoding) : (l : Label) → Decidable (recordsProper s l)
  | .record shape => inferInstanceAs (Decidable shape.Proper)
  | .consume _ r₁ r₂ r₃ => inferInstanceAs (Decidable (∀ shape ∈ r₁ ++ r₂ ++ r₃, shape.Proper))

/-- What a decoder has received, and the tables of the rows it dropped. -/
structure Past where
  messages : List Message := []
  dropped : List String := []

/-- The table of a row message under the definition last received. -/
def Past.tableOf (past : Past) (msg : Message) : Option String :=
  (msg.row?.bind (latestRelation past.messages)).map fun rm =>
    qualifiedTable rm.nspace rm.relationName

/-- What a step adds to the past: its message, and the table whose changes it starts to drop. -/
def Past.note (s : Decoding) (l : Label) (_ : Decoding) (past : Past) : Past :=
  match l with
  | .record _ => past
  | .consume msg r₁ r₂ r₃ =>
    { messages := past.messages ++ [msg]
      dropped := past.dropped ++
        if s.decoder.Drops (s.shapes.map (·.reads r₁ r₂ r₃)) msg then (past.tableOf msg).toList
        else [] }

/-- The decoder with its past. -/
def recalled : Machine (Decoding × Past) Label := fromNew.noting {} Past.note

/-- A returned transaction names the table. -/
def Announced (s : Decoding) (table : String) : Prop :=
  ∃ t ∈ s.returned, ∃ e ∈ t.incompatible, e.table = table

/-- The table has been reported: the next transaction will name it, or a returned one does. -/
def Reported (s : Decoding) (table : String) : Prop :=
  (∃ e ∈ s.decoder.events, e.table = table) ∨ s.Announced table

/-- The verdicts are current, and what was found incompatible or dropped is reported. -/
structure Upheld (p : Decoding × Past) : Prop where
  registry : ∃ reg, p.1.shapes = some reg ∧ reg.Proper ∧
    ∀ id info, p.1.decoder.relations.lookup id = some info → info.Fresh reg
  latest : p.1.decoder.HoldsLatest p.2.messages
  reported : ∀ id info, p.1.decoder.relations.lookup id = some info →
    info.incompatible.isSome = true → p.1.Reported info.table
  dropped : ∀ table ∈ p.2.dropped, p.1.Reported table

theorem step_consume {s s' : Decoding} {msg : Message} {r₁ r₂ r₃ : List RelationShape}
    {reg : Shapes}
    (hreg : s.shapes = some reg) (hs : s.step (.consume msg r₁ r₂ r₃) = some s') :
    s'.decoder = (s.decoder.consume (some (reg.reads r₁ r₂ r₃)) msg).1 ∧
    s'.shapes = some (reg.reads r₁ r₂ r₃).table ∧
    s'.returned = s.returned ++
      (returnedBy (s.decoder.consume (some (reg.reads r₁ r₂ r₃)) msg).2).toList := by
  simp only [step, hreg, Option.map_some, Option.some.injEq] at hs
  subst hs
  exact ⟨rfl, rfl, rfl⟩

section Consume

variable {s s' : Decoding} {msg : Message} {r₁ r₂ r₃ : List RelationShape} {reg : Shapes}
  (hreg : s.shapes = some reg) (hs : s.step (.consume msg r₁ r₂ r₃) = some s')

include hreg hs

theorem Reported.consume {table : String} (h : s.Reported table) : s'.Reported table := by
  obtain ⟨hd, -, hret⟩ := step_consume hreg hs
  have hc := s.decoder.consume_consumed (some (reg.reads r₁ r₂ r₃)) msg
  rcases h with ⟨e, he, rfl⟩ | ⟨t, ht, hnamed⟩
  · rcases hc.event_kept he with hkept | ⟨t, hr, hmem⟩
    · exact .inl ⟨e, hd ▸ hkept, rfl⟩
    · refine .inr ⟨t, ?_, e, hmem, rfl⟩
      simp [hret, hr, returnedBy]
  · exact .inr ⟨t, hret ▸ List.mem_append_left _ ht, hnamed⟩

/-- The verdicts stay current, -/
theorem fresh_consume
    (hfresh : ∀ id info, s.decoder.relations.lookup id = some info → info.Fresh reg)
    (id : UInt32) (info : RelationInfo) (hl : s'.decoder.relations.lookup id = some info) :
    info.Fresh (reg.reads r₁ r₂ r₃).table := by
  have hbefore : (reg.reads r₁ r₂ r₃).generation.Before (reg.reads r₁ r₂ r₃).table :=
    (Shapes.before_recordAll _ r₂).trans (Shapes.before_recordAll _ r₃)
  rw [(step_consume hreg hs).1] at hl
  rcases (s.decoder.consume_consumed _ msg).lookup hl with hold | ⟨info₀, rfl, -⟩
  · exact (hfresh id info hold).later ((Shapes.before_recordAll _ r₁).trans hbefore)
  · exact info₀.fresh_check _ hbefore

/-- and an incompatible relation is reported. -/
theorem reported_consume
    (hrep : ∀ id info, s.decoder.relations.lookup id = some info →
      info.incompatible.isSome = true → s.Reported info.table)
    (id : UInt32) (info : RelationInfo) (hl : s'.decoder.relations.lookup id = some info)
    (hinc : info.incompatible.isSome = true) : s'.Reported info.table := by
  obtain ⟨hd, -, -⟩ := step_consume hreg hs
  rw [hd] at hl
  rcases (s.decoder.consume_consumed _ msg).lookup hl with hold | ⟨info₀, rfl, hevents⟩
  · exact (hrep id info hold hinc).consume hreg hs
  · obtain ⟨e, he, htable⟩ := RelationInfo.exists_mem_check hinc
    rw [← hevents, ← hd] at he
    exact .inl ⟨e, he, htable.trans (info₀.check_table ..).symm⟩

end Consume

theorem Upheld.consume {p p' : Decoding × Past} (h : Upheld p) {msg : Message}
    {r₁ r₂ r₃ : List RelationShape} (hok : ∀ shape ∈ r₁ ++ r₂ ++ r₃, shape.Proper)
    (hs : recalled.step p (.consume msg r₁ r₂ r₃) = some p') : Upheld p' := by
  obtain ⟨s, past⟩ := p
  obtain ⟨s', past'⟩ := p'
  obtain ⟨hstep, hpast⟩ : s.step (.consume msg r₁ r₂ r₃) = some s' ∧
    past' = past.note s (.consume msg r₁ r₂ r₃) s' := Machine.noting_step hs
  obtain ⟨reg, hreg, hproper, hfresh⟩ := h.registry
  obtain ⟨hd, hshapes, -⟩ := step_consume hreg hstep
  have hlatest : s'.decoder.HoldsLatest (past.messages ++ [msg]) := by
    rw [hd]
    exact h.latest.consume _ msg
  have hreported := reported_consume hreg hstep h.reported
  simp only [List.forall_mem_append] at hok
  obtain ⟨⟨h₁, h₂⟩, h₃⟩ := hok
  refine ⟨⟨_, hshapes, ((hproper.recordAll h₁).recordAll h₂).recordAll h₃,
    fresh_consume hreg hstep hfresh⟩, by rw [hpast]; exact hlatest, hreported, ?_⟩
  intro table hmem
  rw [hpast] at hmem
  rcases List.mem_append.mp hmem with hold | hnew
  · exact (h.dropped table hold).consume hreg hstep
  · split at hnew
    · next hdrops =>
      -- the row was dropped for a relation held as incompatible, which is of the noted table
      simp only [Past.tableOf, Option.mem_toList, Option.map_eq_some_iff,
        Option.bind_eq_some_iff] at hnew
      obtain ⟨rm, ⟨id, hrow, hlast⟩, rfl⟩ := hnew
      obtain ⟨info, hl, hinc⟩ := hdrops.exists_lookup hrow
      rw [hreg, Option.map_some, ← hd] at hl
      obtain ⟨rm', -, hlast', hof⟩ := hlatest.exists_isOf hl
      rw [latestRelation_append, Message.relation?_of_row hrow] at hlast'
      cases hlast.symm.trans hlast'
      exact hof.table_eq ▸ hreported id info hl hinc
    · cases hnew

theorem Upheld.step {p p' : Decoding × Past} {l : Label} (h : Upheld p) (hok : recordsProper p.1 l)
    (hs : recalled.step p l = some p') : Upheld p' := by
  cases l with
  | consume msg r₁ r₂ r₃ => exact h.consume hok hs
  | record shape =>
    cases hs
    obtain ⟨reg, hreg, hproper, hfresh⟩ := h.registry
    refine ⟨⟨reg.record shape, by simp [hreg], hproper.record hok, fun id info hl => ?_⟩,
      h.latest, h.reported, h.dropped⟩
    exact (hfresh id info hl).later (reg.before_record shape)

theorem upheld_of_reaches {p : Decoding × Past}
    (h : Reaches recalled (fun p l => recordsProper p.1 l) p) : Upheld p := by
  refine h.invariant (I := Upheld) ?_ fun _ _ _ _ hI hok hs => hI.step hok hs
  rintro ⟨s, past⟩ ⟨⟨⟨maxTransactionBytes, maxTransactionChanges, maxValueBytes, hd⟩, -, reg, hreg,
    hproper⟩, hpast⟩
  cases hpast
  have hnone : ∀ id, s.decoder.relations.lookup id = none := by
    intro id
    rw [hd]
    simp [newDecoderWithLimits]
  refine ⟨⟨reg, hreg, hproper, fun id info hl => ?_⟩, ?_, fun id info hl => ?_, by simp⟩
  · cases (hnone id).symm.trans hl
  · change s.decoder.HoldsLatest []
    rw [hd]
    exact holdsLatest_nil maxTransactionBytes maxTransactionChanges maxValueBytes
  · cases (hnone id).symm.trans hl

/-- A COMMIT announces every table reported so far. -/
theorem Reported.commit {s s' : Decoding} {table : String} (h : s.Reported table)
    (hopen : s.decoder.pending.isSome = true) {commitLSN transactionEndLSN : Nat}
    {r₁ r₂ r₃ : List RelationShape}
    (hs : s.step (.consume (.commit commitLSN transactionEndLSN) r₁ r₂ r₃) = some s') :
    s'.Announced table := by
  obtain ⟨changes, hp⟩ := Option.isSome_iff_exists.mp hopen
  simp only [step, Decoder.consume, hp, returnedBy, Option.toList_some, Option.some.injEq] at hs
  subst hs
  rcases h with ⟨e, he, htable⟩ | ⟨t, ht, hnamed⟩
  · exact ⟨_, List.mem_append_right _ (List.mem_singleton_self _), e, he, htable⟩
  · exact ⟨t, List.mem_append_left _ ht, hnamed⟩

/-- **Keeping verdicts is invisible, and drops are announced.**  However messages and recorded
baselines come, a row is dropped exactly if, at a moment of the call, its relation as last received
differs from the baseline of its table; without baselines recorded during the call that moment is
the call itself.  When a COMMIT arrives, the tables of all rows dropped so far are named in
transactions returned by then. -/
theorem drops_fresh_and_announced {s : Decoding} {past : Past}
    (h : Reaches recalled (fun p l => recordsProper p.1 l) (s, past)) :
    (∀ reg, s.shapes = some reg → ∀ msg id, msg.row? = some id →
      ∀ r₁ r₂ r₃, recordsProper s (.consume msg r₁ r₂ r₃) →
        ∃ moment ∈ [reg, reg.recordAll (r₁ ++ r₂ ++ r₃)],
          (s.decoder.Drops (some (reg.reads r₁ r₂ r₃)) msg ↔
            ∃ rm ∈ latestRelation past.messages id,
              ∃ b ∈ moment.baselineByTable (qualifiedTable rm.nspace rm.relationName),
                b.Differs rm)) ∧
    (s.decoder.pending.isSome = true → ∀ commitLSN transactionEndLSN r₁ r₂ r₃ s',
      s.step (.consume (.commit commitLSN transactionEndLSN) r₁ r₂ r₃) = some s' →
        ∀ table ∈ past.dropped, ∃ t ∈ s'.returned, ∃ e ∈ t.incompatible, e.table = table) := by
  have hup := upheld_of_reaches h
  refine ⟨fun reg hreg msg id hrow r₁ r₂ r₃ hok => ?_, fun hopen _ _ r₁ r₂ r₃ s' hs table hmem =>
    (hup.dropped table hmem).commit hopen hs⟩
  obtain ⟨reg', hreg', hproper, hfresh⟩ := hup.registry
  cases hreg.symm.trans hreg'
  have hall : reg.recordAll (r₁ ++ r₂ ++ r₃) = (reg.reads r₁ r₂ r₃).table := by
    simp [Shapes.recordAll, Shapes.reads]
  rw [hall]
  refine hup.latest.drops_iff (reg.reads r₁ r₂ r₃) hproper ?_ hfresh hrow
  rw [← hall]
  exact hproper.recordAll hok

namespace Demo

/-- The validated table with one column dropped, and a transaction that inserts a row of it. -/
def droppedRow : List Label :=
  [.record (shapeOfRelation members), message (.relation narrowed), message (.begin 5 0),
    message (.insert row)]

end Demo

/-- The row is dropped, and its table is named at COMMIT. -/
theorem drops_announced_run : ∃ s past,
    Reaches recalled (fun p l => recordsProper p.1 l) (s, past) ∧
    past.dropped = ["public.members"] ∧
    ∃ s', s.step (Demo.message (.commit 90 100)) = some s' ∧
      ∃ t ∈ s'.returned, ∃ e ∈ t.incompatible, e.table = "public.members" := by
  have hrun : ∃ p ∈ runWhile recalled (fun p l => recordsProper p.1 l) (Demo.start, {})
      Demo.droppedRow, p.2.dropped = ["public.members"] ∧ p.1.decoder.pending.isSome = true := by
    decide
  obtain ⟨⟨s, past⟩, hp, hdropped, hopen⟩ := hrun
  have hreach : Reaches recalled (fun p l => recordsProper p.1 l) (s, past) :=
    .of_runWhile (.init ⟨⟨⟨0, 0, 0, rfl⟩, rfl, {}, rfl, by simp [Shapes.Proper,
      Shapes.baselineByTable]⟩, rfl⟩) hp
  refine ⟨s, past, hreach, hdropped, _, rfl, ?_⟩
  exact (drops_fresh_and_announced hreach).2 hopen 90 100 [] [] [] _ rfl "public.members"
    (by simp only at hdropped; simp [hdropped])

end Decoding

end Watchd.Cdc
