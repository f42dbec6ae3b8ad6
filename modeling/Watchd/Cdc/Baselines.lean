import Watchd.Cdc.Relation
import Watchd.Lib.History

/-!
# The registry of baselines over its calls

A baseline is found by the name of its table and by the OID it was recorded
with.  Recording replaces the table's previous baseline and deletes the
previous OID by number.  The entry under that number need not be the table's
own: after two tables swapped names it is the other table's, which is then no
longer found by its OID.

`baselineByOID_of_kept`: without such a deletion, and as long as no other table
takes its OID, a baseline stays findable; `baselineByOID_lost_by_swap` is the swap.
-/

namespace Watchd.Cdc

open Watchd.Lib

namespace Shapes

/-- The registry, one `record` call a step. -/
def machine : Machine Shapes RelationShape where
  init s := s = {}
  step s shape := some (s.record shape)

/-- Every baseline stands under its own name, and the OIDs name current baselines. -/
structure Current (s : Shapes) : Prop where
  table_eq : ∀ {table b}, s.baselineByTable table = some b → b.table = table
  oid_eq : ∀ {oid b}, s.baselineByOID oid = some b → b.oid = oid
  current : ∀ {oid b}, s.baselineByOID oid = some b → s.baselineByTable b.table = some b

/-! ## One call -/

/-- Two shapes of one table without a difference are one shape. -/
theorem eq_of_diff {b c : RelationShape} (htable : b.table = c.table) (h : b.diff c = "") :
    b = c := by
  obtain ⟨hoid, hident, hkey, hcolumns⟩ := RelationShape.diff_eq_empty_iff.mp h
  cases b
  cases c
  simp_all

theorem record_of_recorded {s : Shapes} {c : RelationShape}
    (h : s.baselineByTable c.table = some c) : s.record c = s := by
  have hdiff : c.diff c = "" := RelationShape.diff_eq_empty_iff.mpr ⟨rfl, rfl, rfl, rfl⟩
  simp [record, h, hdiff]

/-- What a call that stores `c` leaves behind. -/
theorem Current.record_of_new {s : Shapes} (hs : s.Current) {c : RelationShape}
    (h : s.baselineByTable c.table ≠ some c) :
    (∀ table, (s.record c).baselineByTable table =
      if table = c.table then some c else s.baselineByTable table) ∧
    ∀ oid, (s.record c).baselineByOID oid =
      if oid = c.oid then some c
      else if (s.baselineByTable c.table).any (·.oid = oid) then none
      else s.baselineByOID oid := by
  have hins : ∀ table, (s.byTable.insert c.table c).lookup table =
      if table = c.table then some c else s.byTable.lookup table := by
    intro table
    by_cases ht : table = c.table
    · subst ht
      simp
    · simp [ht]
  cases hprev : s.baselineByTable c.table with
  | none =>
    simp only [record, hprev]
    refine ⟨hins, fun oid => ?_⟩
    by_cases ho : oid = c.oid
    · subst ho
      simp [baselineByOID]
    · simp [baselineByOID, ho]
  | some previous =>
    have hdiff : previous.diff c ≠ "" := by
      intro hd
      exact h (hprev.trans (congrArg some (eq_of_diff (hs.table_eq hprev) hd)))
    simp only [record, hprev, if_neg hdiff]
    refine ⟨hins, fun oid => ?_⟩
    by_cases ho : oid = c.oid
    · subst ho
      simp [baselineByOID]
    · by_cases hp : previous.oid = oid
      · subst hp
        simp [baselineByOID, ho]
      · simp [baselineByOID, ho, hp, Ne.symm hp]

theorem Current.record {s : Shapes} (hs : s.Current) (c : RelationShape) :
    (s.record c).Current := by
  by_cases h : s.baselineByTable c.table = some c
  · rw [record_of_recorded h]
    exact hs
  · obtain ⟨htable, hoid⟩ := hs.record_of_new h
    refine ⟨fun {table b} hb => ?_, fun {oid b} hb => ?_, fun {oid b} hb => ?_⟩
    · rw [htable] at hb
      split at hb
      · next ht =>
        cases hb
        exact ht.symm
      · exact hs.table_eq hb
    · rw [hoid] at hb
      split at hb
      · next ho =>
        cases hb
        exact ho.symm
      · split at hb
        · cases hb
        · exact hs.oid_eq hb
    · rw [hoid] at hb
      rw [htable]
      split at hb
      · cases hb
        simp
      · split at hb
        · cases hb
        · next hnot =>
          have hcur := hs.current hb
          split
          · next ht =>
            -- `b` would be the baseline this call replaces, whose OID it deleted
            rw [ht] at hcur
            simp [hcur, hs.oid_eq hb] at hnot
          · exact hcur

theorem current_of_reaches {s : Shapes} (h : Reaches machine anyStep s) : s.Current := by
  refine Reaches.invariant ?_ ?_ h
  · rintro s rfl
    exact ⟨by simp [baselineByTable], by simp [baselineByOID], by simp [baselineByOID]⟩
  · intro s c s' _ hs _ hstep
    cases hstep
    exact hs.record c

/-! ## Finding a baseline by its OID -/

/-- Recording `c` does not delete another table's entry: the OID of the baseline it replaces is
its own, is reused by `c`, or has no entry. -/
def KeepsOthers (s : Shapes) (c : RelationShape) : Prop :=
  ∀ previous ∈ s.baselineByTable c.table, previous ≠ c → previous.oid ≠ c.oid →
    ∀ e ∈ s.baselineByOID previous.oid, e.table = c.table

instance (s : Shapes) (c : RelationShape) : Decidable (s.KeepsOthers c) :=
  inferInstanceAs (Decidable (∀ previous ∈ s.baselineByTable c.table, previous ≠ c →
    previous.oid ≠ c.oid → ∀ e ∈ s.baselineByOID previous.oid, e.table = c.table))

/-- No table but `b`'s takes `b`'s OID. -/
def LeavesOID (b c : RelationShape) : Prop := c.table ≠ b.table → c.oid ≠ b.oid

instance (b c : RelationShape) : Decidable (LeavesOID b c) :=
  inferInstanceAs (Decidable (c.table ≠ b.table → c.oid ≠ b.oid))

/-- While `b` is its table's baseline, its OID finds it. -/
def Findable (b : RelationShape) (s : Shapes) : Prop :=
  s.baselineByTable b.table = some b → s.baselineByOID b.oid = some b

theorem Findable.of_new {s : Shapes} (hs : s.Current) {c : RelationShape}
    (h : s.baselineByTable c.table ≠ some c) : Findable c (s.record c) := by
  intro _
  rw [(hs.record_of_new h).2, if_pos rfl]

theorem Findable.record {s : Shapes} (hs : s.Current) {b c : RelationShape} (hb : Findable b s)
    (hleaves : LeavesOID b c) (hkeeps : s.KeepsOthers c) : Findable b (s.record c) := by
  by_cases hnew : s.baselineByTable c.table = some c
  · rw [record_of_recorded hnew]
    exact hb
  · obtain ⟨htable, hoid⟩ := hs.record_of_new hnew
    intro hcur
    rw [htable] at hcur
    split at hcur
    · cases hcur
      rw [hoid, if_pos rfl]
    · next ht =>
      have hfound := hb hcur
      have hc : b.oid ≠ c.oid := Ne.symm (hleaves (Ne.symm ht))
      rw [hoid, if_neg hc]
      split
      · next hany =>
        -- the call would delete `b`'s entry, which is not its own table's
        obtain ⟨previous, hprev, ho⟩ : ∃ previous, s.baselineByTable c.table = some previous ∧
            previous.oid = b.oid := by simpa [Option.any_eq_true] using hany
        have hne : previous ≠ c := by
          rintro rfl
          exact hnew hprev
        have := hkeeps previous hprev hne (ho ▸ hc) b (by rw [ho]; exact hfound)
        exact absurd this ht
      · exact hfound

/-- The condition is exact: a call that breaks it leaves a baseline that its OID no longer finds. -/
theorem Current.lost_of_not_keepsOthers {s : Shapes} (hs : s.Current) {c : RelationShape}
    (h : ¬s.KeepsOthers c) :
    ∃ b, LeavesOID b c ∧ Findable b s ∧ s.baselineByTable b.table = some b ∧
      ¬Findable b (s.record c) := by
  simp only [KeepsOthers, not_forall] at h
  obtain ⟨previous, hprev, hne, ho, b, hb, ht⟩ := h
  have hnew : s.baselineByTable c.table ≠ some c := by
    intro hc
    rw [Option.mem_def, hc] at hprev
    exact hne (Option.some_inj.mp hprev).symm
  have hoid := hs.oid_eq hb
  refine ⟨b, fun _ heq => ho (hoid.symm.trans heq.symm), fun _ => hoid ▸ hb, hs.current hb, ?_⟩
  obtain ⟨htable, hoids⟩ := hs.record_of_new hnew
  intro hfind
  have hfound := hfind (by rw [htable, if_neg ht]; exact hs.current hb)
  rw [hoids, if_neg (hoid ▸ ho), hprev] at hfound
  simp [hoid] at hfound

/-- **A recorded baseline stays findable by its OID** in every run that, from the call that stored
it on, deletes no other table's entry and in which no other table takes the OID. -/
theorem baselineByOID_of_kept {s₀ s : Shapes} {b : RelationShape} {table : String}
    (h₀ : Reaches machine anyStep s₀) (hnew : s₀.baselineByTable b.table ≠ some b)
    (h : Reaches (machine.startedAt (s₀.record b))
      (fun s c => LeavesOID b c ∧ s.KeepsOthers c) s)
    (hb : s.baselineByTable table = some b) : s.baselineByOID b.oid = some b := by
  have hs₀ := current_of_reaches h₀
  have hinv : s.Current ∧ Findable b s := by
    refine Reaches.invariant (I := fun s => s.Current ∧ Findable b s) ?_ ?_ h
    · rintro s rfl
      exact ⟨hs₀.record b, .of_new hs₀ hnew⟩
    · rintro s c s' _ ⟨hs, hfind⟩ ⟨hleaves, hkeeps⟩ hstep
      cases hstep
      exact ⟨hs.record c, hfind.record hs hleaves hkeeps⟩
  refine hinv.2 ?_
  rw [hinv.1.table_eq hb]
  exact hb

/-- A baseline of a table with one text column, its key. -/
def sampleShape (table : String) (oid : UInt32) : RelationShape :=
  ⟨table, oid, 'd'.toUInt8, [⟨"id", 25⟩], ["id"]⟩

/-- A table recreated under a new OID is found by it, also after another table is recorded. -/
theorem baselineByOID_of_kept_sample :
    ((((({} : Shapes).record (sampleShape "app.a" 1)).record (sampleShape "app.a" 2)).record
      (sampleShape "app.b" 3)).baselineByOID 2) = some (sampleShape "app.a" 2) :=
  baselineByOID_of_kept (b := sampleShape "app.a" 2) (.step (l := sampleShape "app.a" 1) (.init rfl)
    trivial rfl) (by decide) (.step (l := sampleShape "app.b" 3) (.init rfl) (by decide) rfl)
    (by decide : Shapes.baselineByTable _ "app.a" = _)

/-- Two tables swap their names: `app.a`, recorded with OID 2, is not found by it, although no
other table was recorded with OID 2 since. -/
theorem baselineByOID_lost_by_swap :
    let s₀ := ((({} : Shapes).record (sampleShape "app.a" 1)).record (sampleShape "app.b" 2))
    let b := sampleShape "app.a" 2
    let s := (s₀.record b).record (sampleShape "app.b" 1)
    Reaches machine anyStep s₀ ∧ s₀.baselineByTable b.table ≠ some b ∧
      Reaches (machine.startedAt (s₀.record b)) (fun _ c => LeavesOID b c) s ∧
      s.baselineByTable "app.a" = some b ∧ s.baselineByOID 2 = none := by
  refine ⟨?_, by decide, ?_, by decide, by decide⟩
  · exact .step (l := sampleShape "app.b" 2)
      (.step (l := sampleShape "app.a" 1) (.init rfl) trivial rfl) trivial rfl
  · exact .step (l := sampleShape "app.b" 1) (.init rfl) (by decide) rfl

end Shapes

end Watchd.Cdc
