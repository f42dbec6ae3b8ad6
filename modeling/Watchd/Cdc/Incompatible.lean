import Watchd.Cdc.Consume
import Watchd.Lib.Transition

/-!
# Incompatible tables of a transaction

A transaction carries its row changes and the tables found incompatible since the
last COMMIT.  Rows are buffered as they arrive and a table is reported when a
check finds that its relation disagrees with the baseline; nothing takes the rows
of a reported table out again.  The two stay apart exactly as long as no check
reports a table that has rows pending and no row of a reported table is let
through.

`transaction_apart` proves it of every run that keeps to this; `transaction_mixed`
is one that does not.
-/

namespace Watchd.Cdc

open Watchd.Lib

/-! ## Checks and their reports -/

/-- Checking the relation reports `table`: the baseline with its ID has another name, which is
`table`, or its own baseline differs. -/
def RelationInfo.Reports (info : RelationInfo) (reads : Reads) (table : String) : Prop :=
  (∃ renamed ∈ reads.oid.baselineByOID info.oid,
    renamed.table ≠ info.table ∧ renamed.table = table) ∨
  (info.table = table ∧
    ∃ baseline ∈ reads.table.baselineByTable info.table, baseline.diff info.shape ≠ "")

instance (info : RelationInfo) (reads : Reads) (table : String) :
    Decidable (info.Reports reads table) :=
  inferInstanceAs (Decidable (_ ∨ _))

/-- Whether `skip` checks the relation again. -/
def RelationInfo.outdated (info : RelationInfo) (reads : Option Reads) : Bool :=
  reads.any fun r => info.checked ≠ r.skip.gen

/-- Whether the relation disagrees with its baseline when a row of it arrives. -/
def RelationInfo.disagrees (info : RelationInfo) (reads : Option Reads) : Bool :=
  if info.outdated reads then
    reads.any fun r => (r.table.baselineByTable info.table).any fun b => b.diff info.shape ≠ ""
  else info.incompatible.isSome

theorem mem_report {events : List IncompatibleRelationError} {event e : IncompatibleRelationError}
    (h : e ∈ report events event) : e ∈ events ∨ e.table = event.table := by
  unfold report at h
  split at h
  · exact .inl h
  · rcases List.mem_append.1 h with h | h
    · exact .inl h
    · exact .inr (by rw [List.mem_singleton.1 h])

theorem RelationInfo.mem_reportRenamed {info : RelationInfo}
    {events : List IncompatibleRelationError} {renamed? : Option RelationShape}
    {e : IncompatibleRelationError} (h : e ∈ info.reportRenamed events renamed?) :
    e ∈ events ∨ ∃ renamed ∈ renamed?, renamed.table ≠ info.table ∧ renamed.table = e.table := by
  cases renamed? with
  | none => exact .inl h
  | some renamed =>
    simp only [reportRenamed] at h
    split at h
    · next hne => exact (mem_report h).imp_right fun heq => ⟨renamed, rfl, hne, heq.symm⟩
    · exact .inl h

/-- An event that a check leaves was there before or is of a table it reports. -/
theorem RelationInfo.mem_check {info : RelationInfo} {events : List IncompatibleRelationError}
    {reads : Option Reads} {e : IncompatibleRelationError} (h : e ∈ (info.check events reads).2) :
    e ∈ events ∨ ∃ r ∈ reads, info.Reports r e.table := by
  cases reads with
  | none => exact .inl h
  | some r =>
    have hrename : ∀ {e}, e ∈ info.reportRenamed events (r.oid.baselineByOID info.oid) →
        e ∈ events ∨ ∃ r' ∈ some r, info.Reports r' e.table :=
      fun he => (mem_reportRenamed he).imp_right fun hr => ⟨r, rfl, .inl hr⟩
    simp only [check] at h
    split at h
    · exact hrename h
    · next baseline hbase =>
      split at h
      · next hdiff =>
        rcases mem_report h with h | heq
        · exact hrename h
        · exact .inr ⟨r, rfl, .inr ⟨heq.symm, baseline, hbase, hdiff⟩⟩
      · exact hrename h

/-- The verdict of a check. -/
theorem RelationInfo.check_incompatible (info : RelationInfo)
    (events : List IncompatibleRelationError) (r : Reads) :
    (info.check events (some r)).1.incompatible.isSome =
      (r.table.baselineByTable info.table).any fun b => b.diff info.shape ≠ "" := by
  simp only [check]
  cases r.table.baselineByTable info.table with
  | none => rfl
  | some baseline => by_cases hdiff : baseline.diff info.shape = "" <;> simp [hdiff]

theorem RelationInfo.check_table (info : RelationInfo) (events : List IncompatibleRelationError)
    (reads : Option Reads) : (info.check events reads).1.table = info.table := by
  cases reads with
  | none => rfl
  | some r =>
    simp only [check]
    split
    · rfl
    · split <;> rfl

/-- A relation that is checked again and reports its own table disagrees with its baseline. -/
theorem RelationInfo.disagrees_of_reports (info : RelationInfo) {reads : Option Reads} {r : Reads}
    (hout : info.outdated reads = true) (hr : r ∈ reads) (hrep : info.Reports r info.table) :
    info.disagrees reads = true := by
  rcases hrep with ⟨renamed, -, hne, heq⟩ | ⟨-, baseline, hbase, hdiff⟩
  · exact absurd heq hne
  · cases hr
    rw [disagrees, if_pos hout]
    simp only [Option.any_some]
    rw [Option.mem_def.1 hbase]
    simpa using hdiff

namespace Decoder

variable {d : Decoder} {reads : Option Reads} {id : UInt32} {info : RelationInfo}

theorem skip_eq (hl : d.relations.lookup id = some info) :
    d.skip reads id =
      (if info.outdated reads then d.check reads id info else d, .ok (info.disagrees reads)) := by
  have hlookup : (d.check reads id info).relations.lookup id = some (info.check d.events reads).1 :=
    Finmap.lookup_insert _
  cases reads with
  | none =>
    simp only [skip, relation_eq hl]
    rfl
  | some r =>
    simp only [skip, relation_eq hl]
    by_cases hgen : info.checked = r.skip.gen
    · simp [hgen, RelationInfo.outdated, RelationInfo.disagrees, relation_eq hl, Except.map]
    · have hout : info.outdated (some r) = true := by simp [RelationInfo.outdated, hgen]
      rw [if_pos hgen, if_pos hout, relation_eq hlookup]
      simp only [Except.map, RelationInfo.check_incompatible, RelationInfo.disagrees, hout, if_true,
        Option.any_some]

/-- `skip` may check a known relation again; its definition, the limits and the open transaction
stay. -/
theorem skip_known (reads : Option Reads) {rm : RelationMessage}
    (hl : d.relations.lookup id = some info) (hof : info.IsOf rm) :
    ∃ d' info', d.skip reads id = (d', .ok (info.disagrees reads)) ∧
      d'.relations.lookup id = some info' ∧ info'.IsOf rm ∧
      d' = { d with relations := d'.relations, events := d'.events } := by
  rw [skip_eq hl]
  by_cases hout : info.outdated reads = true
  · rw [if_pos hout]
    exact ⟨_, _, rfl, Finmap.lookup_insert _, hof.check _ _, rfl⟩
  · rw [if_neg hout]
    exact ⟨_, _, rfl, hl, hof, rfl⟩

/-- A decoded row change is of the relation's table. -/
theorem decode_table {msg : Message} {change : Change} (hrow : msg.row? = some id)
    (hl : d.relations.lookup id = some info) (h : msg.decode d = .ok change) :
    change.table = info.table := by
  have hrel := relation_eq hl
  cases msg with
  | insert m =>
    cases hrow
    obtain ⟨info', hinfo, h⟩ := bind_eq_ok.1 h
    obtain ⟨values, -, h⟩ := bind_eq_ok.1 h
    obtain ⟨key, -, h⟩ := bind_eq_ok.1 h
    cases hrel.symm.trans hinfo
    cases h
    rfl
  | update m =>
    cases hrow
    obtain ⟨info', hinfo, h⟩ := bind_eq_ok.1 h
    obtain ⟨values, -, h⟩ := bind_eq_ok.1 h
    obtain ⟨key, -, h⟩ := bind_eq_ok.1 h
    cases hrel.symm.trans hinfo
    cases hold : m.oldTuple with
    | none =>
      rw [hold] at h
      cases h
      rfl
    | some old =>
      rw [hold] at h
      obtain ⟨_, _, h⟩ := bind_eq_ok.1 h
      obtain ⟨_, _, h⟩ := bind_eq_ok.1 h
      cases h
      rfl
  | delete m =>
    cases hrow
    obtain ⟨info', hinfo, h⟩ := bind_eq_ok.1 h
    obtain ⟨-, -, h⟩ := bind_eq_ok.1 h
    cases hrel.symm.trans hinfo
    cases h
    rfl
  | _ => cases hrow

/-- What a row message of a known relation does: it is dropped, it fails, or its change joins the
open transaction. -/
theorem consumeRow_cases (reads : Option Reads) {msg : Message} (hrow : msg.row? = some id)
    (hl : d.relations.lookup id = some info) {decode : Decoder → Except GoError Change}
    (hdec : ∀ d, decode d = msg.decode d) :
    ∃ d', d' = (if info.outdated reads then d.check reads id info else d) ∧
      (((d.consumeRow reads id decode).1 = d' ∧
        ∀ t, (d.consumeRow reads id decode).2 ≠ .ok (some t)) ∨
      ∃ pending change, info.disagrees reads = false ∧ d.pending = some pending ∧
        change.table = info.table ∧
        (d.consumeRow reads id decode).1.pending = some (pending ++ [change]) ∧
        (d.consumeRow reads id decode).1.events = d'.events ∧
        ∀ t, (d.consumeRow reads id decode).2 ≠ .ok (some t)) := by
  set d' := if info.outdated reads then d.check reads id info else d with hd'
  refine ⟨d', rfl, ?_⟩
  have hpending : d'.pending = d.pending := by
    rw [hd']
    split <;> rfl
  have hl' : ∃ info', d'.relations.lookup id = some info' ∧ info'.table = info.table := by
    rw [hd']
    split
    · exact ⟨_, Finmap.lookup_insert _, info.check_table ..⟩
    · exact ⟨info, hl, rfl⟩
  have hskip : d.skip reads id = (d', .ok (info.disagrees reads)) := skip_eq hl
  cases hdis : info.disagrees reads with
  | true =>
    rw [hdis] at hskip
    simp [consumeRow, hskip]
  | false =>
    rw [hdis] at hskip
    cases hdecode : decode d' with
    | error err => simp [consumeRow, hskip, hdecode]
    | ok change =>
      rcases d'.append_cases change with ⟨err, ha⟩ | ⟨pending, hp, ha⟩
      · simp [consumeRow, hskip, hdecode, ha, Except.map]
      · obtain ⟨info', hinfo', htable⟩ := hl'
        have hct := decode_table hrow hinfo' ((hdec d').symm.trans hdecode)
        right
        refine ⟨pending, change, rfl, hpending.symm.trans hp, hct.trans htable, ?_⟩
        simp [consumeRow, hskip, hdecode, ha, Except.map]

end Decoder

/-! ## Runs of the decoder -/

/-- A decoder with the registry it was given, if any, and what it has returned. -/
structure Decoding where
  decoder : Decoder
  shapes : Option Shapes := none
  returned : List Transaction := []

/-- The steps of a decoder and its registry. -/
inductive Decoding.Label
  /-- a validation records a baseline -/
  | record (shape : RelationShape)
  /-- `Consume`, with the baselines recorded between its reads of the registry -/
  | consume (msg : Message) (r₁ r₂ r₃ : List RelationShape)

/-- Baselines recorded one after the other. -/
def Shapes.recordAll (s : Shapes) (shapes : List RelationShape) : Shapes := shapes.foldl record s

/-- The registry as `Consume` finds it when baselines are recorded between its reads. -/
def Shapes.reads (s : Shapes) (r₁ r₂ r₃ : List RelationShape) : Reads where
  skip := s
  generation := s.recordAll r₁
  oid := (s.recordAll r₁).recordAll r₂
  table := ((s.recordAll r₁).recordAll r₂).recordAll r₃

namespace Decoding

/-- The transaction that `Consume` returned, if any. -/
def returnedBy : Except GoError (Option Transaction) → Option Transaction
  | .ok t => t
  | .error _ => none

/-- One step; a message that fails is dropped, and its transaction with it. -/
def step (s : Decoding) : Label → Option Decoding
  | .record shape => some { s with shapes := s.shapes.map (·.record shape) }
  | .consume msg r₁ r₂ r₃ =>
    let reads := s.shapes.map (·.reads r₁ r₂ r₃)
    some {
      decoder := (s.decoder.consume reads msg).1
      shapes := reads.map (·.table)
      returned := s.returned ++ (returnedBy (s.decoder.consume reads msg).2).toList }

/-- The decoder from any state between two transactions. -/
def machine : Machine Decoding Label where
  init s := s.decoder.pending = none ∧ s.returned = []
  step := step

/-- The changes of the open transaction. -/
def pending (s : Decoding) : List Change := s.decoder.pending.getD []

/-- Checking `info` reports no table that has rows pending. -/
def ReportsNoPending (s : Decoding) (info : RelationInfo) (reads : Option Reads) : Prop :=
  ∀ r ∈ reads, ∀ c ∈ s.pending, ¬info.Reports r c.table

instance (s : Decoding) (info : RelationInfo) (reads : Option Reads) :
    Decidable (s.ReportsNoPending info reads) :=
  inferInstanceAs (Decidable (∀ r ∈ reads, ∀ c ∈ s.pending, ¬info.Reports r c.table))

/-- A row of `info` leaves the open transaction's rows apart from the reported tables: checking it
again reports no table that has rows pending, and if its own table was reported it still disagrees
with the baseline. -/
def RowApart (s : Decoding) (info : RelationInfo) (reads : Option Reads) : Prop :=
  (info.outdated reads = true → s.ReportsNoPending info reads) ∧
  ((∃ e ∈ s.decoder.events, e.table = info.table) → info.disagrees reads = true)

instance (s : Decoding) (info : RelationInfo) (reads : Option Reads) :
    Decidable (s.RowApart info reads) :=
  inferInstanceAs (Decidable (_ ∧ _))

/-- The step leaves the open transaction's rows apart from the reported tables. -/
def keepsApart (s : Decoding) : Label → Prop
  | .record _ => True
  | .consume msg r₁ r₂ r₃ =>
    (∀ m ∈ msg.relation?, s.ReportsNoPending (newRelationInfo m)
      (s.shapes.map (·.reads r₁ r₂ r₃))) ∧
    ∀ id ∈ msg.row?, ∀ info ∈ s.decoder.relations.lookup id,
      s.RowApart info (s.shapes.map (·.reads r₁ r₂ r₃))

instance (s : Decoding) : (l : Label) → Decidable (keepsApart s l)
  | .record _ => .isTrue trivial
  | .consume msg _ _ _ =>
    -- by the message: as relation IDs are finitely many, a search might try them all
    @instDecidableAnd _ _ (Option.decidableForallMem msg.relation?)
      (Option.decidableForallMem msg.row?)

/-- No change is of a table among the incompatible ones. -/
def Apart (changes : List Change) (incompatible : List IncompatibleRelationError) : Prop :=
  ∀ c ∈ changes, ∀ i ∈ incompatible, c.table ≠ i.table

/-- No change of a returned or an open transaction is of a table it announces as incompatible. -/
structure Inv (s : Decoding) : Prop where
  returned : ∀ t ∈ s.returned, Apart t.changes t.incompatible
  pending : Apart s.pending s.decoder.events

theorem Apart.check {changes : List Change} {info : RelationInfo}
    {events : List IncompatibleRelationError} {reads : Option Reads} (h : Apart changes events)
    (hreports : ∀ r ∈ reads, ∀ c ∈ changes, ¬info.Reports r c.table) :
    Apart changes (info.check events reads).2 := by
  intro c hc i hi heq
  rcases RelationInfo.mem_check hi with hold | ⟨r, hr, hrep⟩
  · exact h c hc i hold heq
  · exact hreports r hr c hc (heq ▸ hrep)

/-- A row message keeps the rows and the reported tables apart, and returns nothing. -/
theorem Inv.consumeRow {s : Decoding} (h : s.Inv) {reads : Option Reads} (msg : Message)
    {id : UInt32} (hrow : msg.row? = some id)
    (hok : ∀ info ∈ s.decoder.relations.lookup id, s.RowApart info reads)
    {decode : Decoder → Except GoError Change} (hdec : ∀ d, decode d = msg.decode d) :
    returnedBy (s.decoder.consumeRow reads id decode).2 = none ∧
      Apart ((s.decoder.consumeRow reads id decode).1.pending.getD [])
        (s.decoder.consumeRow reads id decode).1.events := by
  have hnone : ∀ r : Except GoError (Option Transaction), (∀ t, r ≠ .ok (some t)) →
      returnedBy r = none := by
    intro r hr
    match r with
    | .ok none => rfl
    | .ok (some t) => exact absurd rfl (hr t)
    | .error err => rfl
  cases hl : s.decoder.relations.lookup id with
  | none =>
    have hrel : s.decoder.relation id = .error (errorf .unknownRelation
        (" ID " ++ toString id.toNat)) := by simp [Decoder.relation, hl]
    simp only [Decoder.consumeRow, Decoder.skip, hrel, returnedBy]
    exact ⟨trivial, h.pending⟩
  | some info =>
    obtain ⟨hcheck, hreported⟩ := hok info hl
    obtain ⟨d', hd', hcases⟩ := Decoder.consumeRow_cases reads hrow hl hdec
    have hevents : Apart s.pending d'.events := by
      rw [hd']
      split
      · next hout => exact h.pending.check (hcheck hout)
      · exact h.pending
    have hpending : d'.pending = s.decoder.pending := by
      rw [hd']
      split <;> rfl
    rcases hcases with ⟨heq, hret⟩ | ⟨pending, change, hdis, hp, htable, hp', hev, hret⟩
    · rw [heq, hpending]
      exact ⟨hnone _ hret, hevents⟩
    · refine ⟨hnone _ hret, ?_⟩
      rw [hp', hev, Option.getD_some]
      intro c hc i hi heq
      rcases List.mem_append.1 hc with hold | hnew
      · exact hevents c (by simp [Decoding.pending, hp, hold]) i hi heq
      · -- the new change is of a table that was not reported and is not reported now
        rw [List.mem_singleton.1 hnew, htable] at heq
        have hold : i ∉ s.decoder.events := fun hmem => by
          rw [hreported ⟨i, hmem, heq.symm⟩] at hdis
          cases hdis
        rw [hd'] at hi
        split at hi
        · next hout =>
          rcases RelationInfo.mem_check hi with hmem | ⟨r, hr, hrep⟩
          · exact hold hmem
          · rw [info.disagrees_of_reports hout hr (heq ▸ hrep)] at hdis
            cases hdis
        · exact hold hi

theorem Inv.step {s s' : Decoding} {l : Label} (h : s.Inv) (hok : s.keepsApart l)
    (hs : s.step l = some s') : s'.Inv := by
  cases l with
  | record shape =>
    cases hs
    exact ⟨h.returned, h.pending⟩
  | consume msg r₁ r₂ r₃ =>
    obtain ⟨hrelation, hrow⟩ := hok
    simp only [Decoding.step, Option.some.injEq] at hs
    subst hs
    generalize s.shapes.map (·.reads r₁ r₂ r₃) = reads at hrelation hrow
    -- a message that returns nothing
    have hquiet : returnedBy (s.decoder.consume reads msg).2 = none →
        Apart ((s.decoder.consume reads msg).1.pending.getD [])
          (s.decoder.consume reads msg).1.events →
        Inv ⟨(s.decoder.consume reads msg).1, reads.map (·.table),
          s.returned ++ (returnedBy (s.decoder.consume reads msg).2).toList⟩ := by
      intro hnone hapart
      refine ⟨?_, hapart⟩
      simpa [hnone] using h.returned
    cases msg with
    | relation m => exact hquiet rfl (h.pending.check (hrelation m rfl))
    | insert m =>
      obtain ⟨hnone, hapart⟩ := h.consumeRow (.insert m) rfl (hrow _ rfl) fun _ => rfl
      exact hquiet hnone hapart
    | update m =>
      obtain ⟨hnone, hapart⟩ := h.consumeRow (.update m) rfl (hrow _ rfl) fun _ => rfl
      exact hquiet hnone hapart
    | delete m =>
      obtain ⟨hnone, hapart⟩ := h.consumeRow (.delete m) rfl (hrow _ rfl) fun _ => rfl
      exact hquiet hnone hapart
    | begin xid commitTime =>
      cases hp : s.decoder.pending with
      | some changes =>
        refine hquiet (by simp [Decoder.consume, hp, returnedBy]) ?_
        simpa [Decoder.consume, hp, Decoding.pending] using h.pending
      | none =>
        refine hquiet (by simp [Decoder.consume, hp, returnedBy]) ?_
        simp [Decoder.consume, hp, Apart]
    | commit commitLSN transactionEndLSN =>
      cases hp : s.decoder.pending with
      | none =>
        refine hquiet (by simp [Decoder.consume, hp, returnedBy]) ?_
        simp [Decoder.consume, hp, Apart]
      | some changes =>
        have hapart : Apart changes s.decoder.events := by
          simpa [Decoding.pending, hp] using h.pending
        refine ⟨?_, by simp [Decoding.pending, Decoder.consume, hp, Apart]⟩
        intro t ht
        rcases List.mem_append.1 ht with hold | hnew
        · exact h.returned t hold
        · simp only [Decoder.consume, hp, returnedBy, Option.toList_some,
            List.mem_singleton] at hnew
          rw [hnew]
          exact hapart
    | type => exact hquiet rfl h.pending
    | origin => exact hquiet rfl h.pending
    | other typeText => exact hquiet rfl h.pending

/-- **A transaction carries no part of an incompatible table**, in every run of the decoder in which
no check reports a table that has rows pending and a row of a reported table still disagrees with
its baseline. -/
theorem transaction_apart {s : Decoding} (h : Reaches machine keepsApart s) :
    ∀ t ∈ s.returned, ∀ c ∈ t.changes, ∀ i ∈ t.incompatible, c.table ≠ i.table := by
  have hinv : s.Inv := by
    refine h.invariant (I := Inv) ?_ fun _ _ _ _ hI hok hs => hI.step hok hs
    rintro s ⟨hp, hret⟩
    exact ⟨by simp [hret], by simp [Decoding.pending, hp, Apart]⟩
  exact hinv.returned

namespace Demo

/-- The published table with two columns, -/
def members : RelationMessage := ⟨7, "public", "members", 0x64, [⟨1, "id", 25⟩, ⟨0, "name", 25⟩]⟩

/-- and with one of them dropped. -/
def narrowed : RelationMessage := ⟨7, "public", "members", 0x64, [⟨1, "id", 25⟩]⟩

/-- A row of the relation. -/
def row : InsertMessage := ⟨7, some [⟨tupleDataTypeText, [0x31]⟩, ⟨tupleDataTypeText, [0x61]⟩]⟩

/-- A new decoder and an empty registry. -/
def start : Decoding := { decoder := newDecoderWithLimits 0 0 0, shapes := some {} }

/-- A message, with no baseline recorded while it is consumed. -/
def message (msg : Message) : Label := .consume msg [] [] []

/-- The table is validated and its relation announced. -/
def validated : List Label := [.record (shapeOfRelation members), message (.relation members)]

/-- One transaction inserts a row and then drops a column. -/
def insertThenDrop : List Label :=
  [message (.begin 5 0), message (.insert row), message (.relation narrowed),
    message (.commit 90 100)]

/-- One transaction drops the column first; the row that follows is skipped. -/
def dropThenInsert : List Label :=
  [message (.begin 5 0), message (.relation narrowed), message (.insert row),
    message (.commit 90 100)]

end Demo

/-- The row that was buffered before the column was dropped is returned with the report. -/
theorem transaction_mixed : ∃ s, Reaches machine anyStep s ∧
    ∃ t ∈ s.returned, ∃ c ∈ t.changes, ∃ i ∈ t.incompatible, c.table = i.table := by
  have hrun : ∃ s ∈ runWhile machine anyStep Demo.start (Demo.validated ++ Demo.insertThenDrop),
      ∃ t ∈ s.returned, ∃ c ∈ t.changes, ∃ i ∈ t.incompatible, c.table = i.table := by
    decide
  obtain ⟨s, hs, hmixed⟩ := hrun
  exact ⟨s, .of_runWhile (.init ⟨rfl, rfl⟩) hs, hmixed⟩

/-- With the column dropped first, the transaction has the report and not the row. -/
theorem transaction_apart_run : ∃ s, Reaches machine keepsApart s ∧
    s.returned.map (fun t => (t.changes.length, t.incompatible.length)) = [(0, 1)] ∧
    ∀ t ∈ s.returned, ∀ c ∈ t.changes, ∀ i ∈ t.incompatible, c.table ≠ i.table := by
  have hrun : ∃ s ∈ runWhile machine keepsApart Demo.start (Demo.validated ++ Demo.dropThenInsert),
      s.returned.map (fun t => (t.changes.length, t.incompatible.length)) = [(0, 1)] := by
    decide
  obtain ⟨s, hs, hlen⟩ := hrun
  have hreach : Reaches machine keepsApart s := .of_runWhile (.init ⟨rfl, rfl⟩) hs
  exact ⟨s, hreach, hlen, transaction_apart hreach⟩

end Decoding

end Watchd.Cdc
