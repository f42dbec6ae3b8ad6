import Watchd.Cdc.Changes
import Watchd.Cdc.Incompatible

/-!
# Which decoding errors stop the reader

`isRetryable` names the errors that end the replication loop; every other error
makes the reader reconnect and receive the same bytes again.  Several errors of
the row decoder are not named.  `Message.StopsReader` says, from the message and
the relation alone, when the first thing wrong with a row message is one that
stops the reader.

`decoding_error_stops_iff`: the reader stops exactly then.
-/

namespace Watchd.Cdc

open Watchd.Lib

/-! ## Classification -/

/-- `errors.AsType[*classifiedError](err)`: the first classified error of the tree, and whether it
is retryable. -/
def GoError.asClassified : GoError → Option Bool
  | .sentinel _ => none
  | .new _ => none
  | .wrap _ inner _ => inner.asClassified
  | .wrapBoth first second => first.asClassified <|> second.asClassified
  | .classified _ retryable _ => some retryable

/-- Whether `Run` may reconnect after the error: a classified error tells itself. -/
def isRetryable (err : GoError) : Bool :=
  match err.asClassified with
  | some retryable => retryable
  | none =>
    !err.is .invalidReaderConfig && !err.is .invalidDatabaseURL &&
      !err.is .malformedReplicationData && !err.is .unexpectedReplicationMessage &&
      !err.is .slotInvalidated && !err.is .postgresServer && !err.is .transactionTooLarge &&
      !err.is .transactionTooManyChanges && !err.is .unsupportedPGOutputMessage &&
      !err.is .unsupportedColumnEncoding && !err.is .valueTooLarge && !err.is .sinkRejected

/-- The error ends the replication loop. -/
def Stops (err : GoError) : Prop := isRetryable err = false

theorem stops_wrap {before after : String} {err : GoError} :
    Stops (.wrap before err after) ↔ Stops err := Iff.rfl

theorem stops_inContext {α : Type} {context : String} {x : Except GoError α} :
    ErrorsIn Stops (inContext context x) ↔ ErrorsIn Stops x := by
  cases x with
  | ok a => simp [inContext]
  | error err => simp [inContext, stops_wrap]

theorem stops_errorf_valueTooLarge (after : String) : Stops (errorf .valueTooLarge after) := rfl

theorem stops_errorf_unsupported (after : String) :
    Stops (errorf .unsupportedColumnEncoding after) := rfl

/-- A plain `errors.New` is retried. -/
theorem not_stops_new (text : String) : ¬Stops (.new text) := by
  intro h
  cases h

/-! ## The errors of each check -/

theorem stops_checkColumn (c : TupleDataColumn) (maxValueBytes : Int) :
    ErrorsIn Stops (checkColumn c maxValueBytes) := by
  unfold checkColumn
  split
  · exact errorsIn_ok
  · split
    · split
      · exact errorsIn_error.mpr (stops_errorf_valueTooLarge _)
      · exact errorsIn_ok
    · exact errorsIn_error.mpr (stops_errorf_unsupported _)

/-- Of the errors of a key column only the empty one is not named. -/
theorem stops_checkKeyColumn (c : TupleDataColumn) (maxValueBytes : Int) :
    ErrorsIn Stops (checkKeyColumn c maxValueBytes) ↔
      (c.dataType = tupleDataTypeText → c.data ≠ []) := by
  unfold checkKeyColumn
  split
  · next h => simp [h, stops_errorf_unsupported]
  · next h =>
    have htext : c.dataType = tupleDataTypeText := not_not.mp h
    split
    · next hempty => simp [htext, List.length_eq_zero_iff.mp hempty, not_stops_new]
    · next hne =>
      have hne : c.data ≠ [] := fun h => hne (by simp [h])
      split
      · simp [hne, stops_errorf_valueTooLarge]
      · simp [hne]

theorem stops_checkRow {info : RelationInfo} {tuple : TupleData} {maxValueBytes : Int} :
    ErrorsIn Stops (checkRow info tuple maxValueBytes) ↔ tuple.length = info.columns.length := by
  unfold checkRow
  split
  · next hlen => simp [hlen, not_stops_new]
  · next hlen =>
    simp only [not_not.mp hlen, iff_true]
    refine ErrorsIn.foldlM (fun n nc _ => errorsIn_bind.mpr ⟨?_, fun _ _ => errorsIn_ok⟩) 0
    exact stops_inContext.mpr (stops_checkColumn nc.2 maxValueBytes)

theorem stops_decodeRow {info : RelationInfo} {tuple : Option TupleData} {maxValueBytes : Int} :
    ErrorsIn Stops (decodeRow info tuple maxValueBytes) ↔
      ∃ t, tuple = some t ∧ t.length = info.columns.length := by
  cases tuple with
  | none => simp [decodeRow, not_stops_new]
  | some t =>
    simp only [decodeRow, errorsIn_bind, stops_checkRow, Option.some.injEq, exists_eq_left']
    exact and_iff_left fun _ _ => errorsIn_ok

/-- No error of `keyFromValues` is named. -/
theorem stops_keyFromValues {info : RelationInfo} {values : List Value} :
    ErrorsIn Stops (keyFromValues info values) ↔ ∃ key, keyFromValues info values = .ok key := by
  refine ErrorsIn.iff_ok ?_
  unfold keyFromValues
  split
  · exact errorsIn_error.mpr (not_stops_new _)
  · refine ErrorsIn.foldlM (fun key i _ => ?_) ∅
    dsimp only
    split
    · exact errorsIn_error.mpr (not_stops_new _)
    · exact errorsIn_ok

/-! ## Messages whose first error stops the reader -/

/-- The new row: it is there with all its columns, and if these are supported, it has a key. -/
def NewRowStops (rm : RelationMessage) (maxValueBytes : Int) (tuple : Option TupleData) : Prop :=
  ∃ t, tuple = some t ∧ t.length = rm.columns.length ∧
    ((∀ c ∈ t, c.Supported maxValueBytes) →
      rm.keyColumns ≠ [] ∧ ∀ nc ∈ keyCells rm t, nc.2.NonEmptyText)

/-- The old tuple: a complete row that has a key if its columns are supported, or key columns of
which the first that is refused is not the empty text. -/
def OldTupleStops (rm : RelationMessage) (maxValueBytes : Int) (t : TupleData) : Prop :=
  if t.length = rm.columns.length then
    (∀ c ∈ t, c.Supported maxValueBytes) → ∀ nc ∈ keyCells rm t, nc.2.NonEmptyText
  else t.length = rm.keyColumns.length ∧
    ∀ c ∈ t.find? (fun c => !decide (c.NonEmptyText ∧ (c.data.length : Int) ≤ maxValueBytes)),
      c.dataType = tupleDataTypeText → c.data ≠ []

/-- Nothing is wrong with the row message under `rm`, or the first thing that is wrong stops the
reader. -/
def Message.StopsReader (rm : RelationMessage) (maxValueBytes : Int) : Message → Prop
  | .insert m => NewRowStops rm maxValueBytes m.tuple
  | .update m => NewRowStops rm maxValueBytes m.newTuple ∧
      ∀ t ∈ m.newTuple, (∀ c ∈ t, c.Supported maxValueBytes) → ∀ old ∈ m.oldTuple,
        OldTupleStops rm maxValueBytes old ∧ (KeyTuple rm maxValueBytes old → SameKey rm old t)
  | .delete m => rm.keyColumns ≠ [] ∧ ∃ old, m.oldTuple = some old ∧
      OldTupleStops rm maxValueBytes old
  | _ => True

section Relation

variable {d : Decoder} {info : RelationInfo} {rm : RelationMessage} (hof : info.IsOf rm)

include hof

theorem stops_keyOfRow {t : TupleData} (hlen : t.length = rm.columns.length) :
    ErrorsIn Stops (keyFromValues info (t.map TupleDataColumn.value)) ↔
      rm.keyColumns ≠ [] ∧ ∀ nc ∈ keyCells rm t, nc.2.NonEmptyText := by
  rw [stops_keyFromValues]
  simp only [keyFromValues_eq_ok_iff hof hlen, exists_and_left, exists_eq, and_true]

/-- A new row and its key, in the order the decoder takes them. -/
theorem stops_newRow {tuple : Option TupleData} {maxValueBytes : Int} :
    (ErrorsIn Stops (decodeRow info tuple maxValueBytes) ∧
      ∀ values, decodeRow info tuple maxValueBytes = .ok values →
        ErrorsIn Stops (keyFromValues info values)) ↔ NewRowStops rm maxValueBytes tuple := by
  rw [stops_decodeRow]
  constructor
  · rintro ⟨⟨t, rfl, hlen⟩, hkey⟩
    have hlen' := hlen.trans hof.length_columns
    refine ⟨t, rfl, hlen', fun hsup => (stops_keyOfRow hof hlen').mp (hkey _ ?_)⟩
    exact decodeRow_eq_ok_iff.mpr ⟨t, rfl, hlen, hsup, rfl⟩
  · rintro ⟨t, rfl, hlen, hkey⟩
    refine ⟨⟨t, rfl, hlen.trans hof.length_columns.symm⟩, fun values hvalues => ?_⟩
    obtain ⟨t', ht', -, hsup, rfl⟩ := decodeRow_eq_ok_iff.mp hvalues
    cases ht'
    exact (stops_keyOfRow hof hlen).mpr (hkey hsup)

/-- The key columns of a complete old row fail with an error that is not named. -/
theorem stops_checkKeyCells {t : TupleData} (hlen : t.length = rm.columns.length) :
    ErrorsIn Stops (info.keyIndexes.forM fun index =>
      if (t.getD index .missing).dataType ≠ tupleDataTypeText ∨
          (t.getD index .missing).data.length = 0 then
        Except.error (emptyKey (info.column index))
      else .ok ()) ↔ ∀ nc ∈ keyCells rm t, nc.2.NonEmptyText := by
  rw [← checkKeyCells_eq_ok_iff hof hlen]
  refine (ErrorsIn.iff_ok (ErrorsIn.forM fun i => ?_)).trans ⟨fun ⟨_, h⟩ => h, fun h => ⟨(), h⟩⟩
  split
  · exact errorsIn_error.mpr (not_stops_new _)
  · exact errorsIn_ok

theorem stops_checkKeyTuple (hkeys : rm.keyColumns ≠ []) {t : TupleData} {maxValueBytes : Int} :
    ErrorsIn Stops (checkKeyTuple info (some t) maxValueBytes) ↔
      OldTupleStops rm maxValueBytes t := by
  have hnil : info.keyIndexes.length ≠ 0 := by
    rw [hof.length_keyIndexes]
    exact fun h => hkeys (List.length_eq_zero_iff.mp h)
  simp only [checkKeyTuple, if_neg hnil, OldTupleStops]
  by_cases hlen : t.length = rm.columns.length
  · have hlen' := hlen.trans hof.length_columns.symm
    have hrow : (∃ n, checkRow info t maxValueBytes = .ok n) ↔
        ∀ c ∈ t, c.Supported maxValueBytes := by simp [checkRow_eq_ok_iff, hlen']
    rw [if_pos hlen, if_pos hlen', errorsIn_bind, stops_checkRow]
    simp only [stops_checkKeyCells hof hlen, hlen', true_and, ← hrow, forall_exists_index]
  · have hlen' : t.length ≠ info.columns.length := fun h => hlen (h.trans hof.length_columns)
    rw [if_neg hlen, if_neg hlen']
    by_cases hkey : t.length = rm.keyColumns.length
    · have hkey' := hkey.trans hof.length_keyIndexes.symm
      rw [if_pos hkey', errorsIn_forM (p := fun ic => decide (ic.2.NonEmptyText ∧
        (ic.2.data.length : Int) ≤ maxValueBytes)) (by simp [inContext_eq_ok_iff,
          checkKeyColumn_eq_ok_iff])]
      simp only [stops_inContext, stops_checkKeyColumn, hkey, true_and]
      conv_rhs => rw [← List.map_snd_zip (Nat.le_of_eq hkey'), List.find?_map]
      simp only [Option.mem_def, Option.map_eq_some_iff, forall_exists_index, and_imp,
        forall_apply_eq_imp_iff₂, Function.comp_def]
    · have hkey' : t.length ≠ info.keyIndexes.length := by rwa [hof.length_keyIndexes]
      simp [hkey', hkey, not_stops_new]

/-- An unequal key is not named either. -/
theorem stops_compareKeys {old t : TupleData}
    (hold : old.length = rm.columns.length ∨ old.length = rm.keyColumns.length)
    (hlen : t.length = rm.columns.length) (hkey : ∀ nc ∈ keyCells rm t, nc.2.NonEmptyText) :
    ErrorsIn Stops (info.keyIndexes.zipIdx.forM fun ik =>
      if (keyColumn info old ik.2).data ≠ ((t.map TupleDataColumn.value).getD ik.1 {}).text then
        Except.error (.sentinel .primaryKeyChangeUnsupported)
      else .ok ()) ↔ SameKey rm old t := by
  rw [← compareKeys_eq_ok_iff hof hold hlen hkey (.sentinel .primaryKeyChangeUnsupported)]
  refine (ErrorsIn.iff_ok (ErrorsIn.forM fun ik => ?_)).trans ⟨fun ⟨_, h⟩ => h, fun h => ⟨(), h⟩⟩
  split
  · exact errorsIn_error.mpr (by simp [Stops, isRetryable, GoError.asClassified, GoError.is])
  · exact errorsIn_ok

/-- What `update` does after the new row and its key. -/
theorem stops_oldTuple {oldTuple : Option TupleData} {t : TupleData} {maxValueBytes : Int}
    (h : RowAccepted rm maxValueBytes t) (change : Change) :
    ErrorsIn Stops (do
      match oldTuple with
      | none => pure ()
      | some old =>
        checkKeyTuple info (some old) maxValueBytes
        info.keyIndexes.zipIdx.forM fun ik =>
          if (keyColumn info old ik.2).data ≠ ((t.map TupleDataColumn.value).getD ik.1 {}).text then
            .error (.sentinel .primaryKeyChangeUnsupported)
          else .ok ()
      return change) ↔
      ∀ old ∈ oldTuple, OldTupleStops rm maxValueBytes old ∧
        (KeyTuple rm maxValueBytes old → SameKey rm old t) := by
  cases oldTuple with
  | none => simp
  | some old =>
    simp only [errorsIn_bind, errorsIn_pure, implies_true, and_true,
      stops_checkKeyTuple hof h.keyed, checkKeyTuple_eq_ok_iff hof h.keyed, Option.some.injEq,
      exists_eq_left', Option.mem_def, forall_eq']
    refine and_congr_right fun _ => ?_
    constructor
    · intro hsame hkt
      exact (stops_compareKeys hof hkt.length_cases h.length_eq h.key).mp (hsame () hkt)
    · intro hsame _ hkt
      exact (stops_compareKeys hof hkt.length_cases h.length_eq h.key).mpr (hsame hkt)

variable (hinfo : d.relations.lookup rm.relationID = some info)

include hinfo

theorem stops_insert {m : InsertMessage} (hid : m.relationID = rm.relationID) :
    ErrorsIn Stops (d.insert m) ↔ (Message.insert m).StopsReader rm d.maxValueBytes := by
  rw [Message.StopsReader, ← stops_newRow hof]
  simp only [Decoder.insert, hid, Decoder.relation_eq hinfo, errorsIn_bind, errorsIn_ok, true_and,
    Except.ok.injEq, forall_eq', errorsIn_pure, implies_true, and_true]

theorem stops_delete {m : DeleteMessage} (hid : m.relationID = rm.relationID) :
    ErrorsIn Stops (d.delete m) ↔ (Message.delete m).StopsReader rm d.maxValueBytes := by
  simp only [Decoder.delete, hid, Decoder.relation_eq hinfo, errorsIn_bind, errorsIn_ok, true_and,
    Except.ok.injEq, forall_eq', Message.StopsReader, errorsIn_pure, implies_true, and_true]
  by_cases hkeys : rm.keyColumns = []
  · have hlen : info.keyIndexes.length = 0 := by simp [hof.length_keyIndexes, hkeys]
    cases hold : m.oldTuple with
    | none => simp [checkKeyTuple, not_stops_new]
    | some old => simp [checkKeyTuple, hlen, hkeys, noKeyColumns, not_stops_new]
  · cases hold : m.oldTuple with
    | none => simp [checkKeyTuple, not_stops_new]
    | some old =>
      rw [stops_checkKeyTuple hof hkeys]
      simp [hkeys]

theorem stops_update {m : UpdateMessage} (hid : m.relationID = rm.relationID) :
    ErrorsIn Stops (d.update m) ↔ (Message.update m).StopsReader rm d.maxValueBytes := by
  rw [Message.StopsReader, ← stops_newRow hof]
  simp only [Decoder.update, hid, Decoder.relation_eq hinfo]
  rw [errorsIn_bind, and_iff_right errorsIn_ok]
  simp only [Except.ok.injEq, forall_eq']
  rw [errorsIn_bind]
  simp only [errorsIn_bind (x := keyFromValues info _)]
  constructor
  · rintro ⟨hrow, hrest⟩
    have hnew := (stops_newRow hof).mp ⟨hrow, fun values hv => (hrest values hv).1⟩
    refine ⟨⟨hrow, fun values hv => (hrest values hv).1⟩, fun t ht hsup => ?_⟩
    obtain ⟨t', ht', hlen, hkey⟩ := hnew
    cases ht'.symm.trans ht
    have hacc : RowAccepted rm d.maxValueBytes t := ⟨hlen, hsup, (hkey hsup).1, (hkey hsup).2⟩
    obtain ⟨hdec, hkeyOf⟩ := (decodeKeyed_eq_ok_iff hof).mpr ⟨t, ht, hacc, rfl, rfl⟩
    exact (stops_oldTuple hof hacc _).mp ((hrest _ hdec).2 _ hkeyOf)
  · rintro ⟨⟨hrow, hkeys⟩, hold⟩
    refine ⟨hrow, fun values hv => ⟨hkeys values hv, fun key hk => ?_⟩⟩
    obtain ⟨t, ht, hacc, rfl, rfl⟩ := (decodeKeyed_eq_ok_iff hof).mp ⟨hv, hk⟩
    exact (stops_oldTuple hof hacc _).mpr (hold t ht hacc.supported)

theorem stops_decode {msg : Message} (hrow : msg.row? = some rm.relationID) :
    ErrorsIn Stops (msg.decode d) ↔ msg.StopsReader rm d.maxValueBytes := by
  cases msg with
  | insert m => exact stops_insert hof hinfo (Option.some.inj hrow)
  | update m => exact stops_update hof hinfo (Option.some.inj hrow)
  | delete m => exact stops_delete hof hinfo (Option.some.inj hrow)
  | _ => cases hrow

end Relation

/-! ## Consuming a row message -/

/-- The limits of a transaction stop the reader. -/
theorem stops_append {d : Decoder} {pending : List Change} (hp : d.pending = some pending)
    (change : Change) : ErrorsIn Stops (d.append change).2 := by
  simp only [Decoder.append, hp]
  split
  · exact errorsIn_error.mpr rfl
  · split
    · exact errorsIn_error.mpr rfl
    · exact errorsIn_ok

/-- **A row change that cannot be decoded stops the reader** exactly when the row is dropped or the
first thing wrong with it, if anything is, is an unsupported or oversized column or a limit of the
transaction: a missing tuple, a wrong number of columns, a missing or empty key and a changed key
are retried. -/
theorem decoding_error_stops_iff {d : Decoder} {reads : Option Reads} {pending : List Change}
    {info : RelationInfo} {rm : RelationMessage} {msg : Message} (hp : d.pending = some pending)
    (hinfo : d.relations.lookup rm.relationID = some info) (hof : info.IsOf rm)
    (hrow : msg.row? = some rm.relationID) :
    (∀ err, (d.consume reads msg).2 = .error err → isRetryable err = false) ↔
      info.disagrees reads = true ∨ msg.StopsReader rm d.maxValueBytes := by
  obtain ⟨d', info', hskip, hinfo', hof', hd'⟩ := Decoder.skip_known reads hinfo hof
  have hmax : d'.maxValueBytes = d.maxValueBytes := by rw [hd']
  have hp' : d'.pending = some pending := by rw [hd']; exact hp
  show ErrorsIn Stops (d.consume reads msg).2 ↔ _
  simp only [Decoder.consume_row hrow, Decoder.consumeRow, hskip]
  cases hdis : info.disagrees reads with
  | true => simp
  | false =>
    rw [← hmax, ← stops_decode hof' hinfo' hrow]
    simp only [Bool.false_eq_true, false_or]
    cases hd : msg.decode d' with
    | error err => simp
    | ok change => simp [errorsIn_map, stops_append hp' change]

namespace Demo

/-- A table with a key and another column, and a decoder in the middle of a transaction. -/
def keyed : RelationMessage := ⟨7, "public", "members", 0x64, [⟨1, "id", 25⟩, ⟨0, "name", 25⟩]⟩

/-- A decoder in a transaction that knows the relation. -/
def begun : Decoder :=
  { newDecoderWithLimits 0 0 0 with
    relations := (∅ : Finmap fun _ : UInt32 => RelationInfo).insert 7 (newRelationInfo keyed)
    pending := some [] }

/-- A row with a binary column. -/
def unsupported : InsertMessage := ⟨7, some [⟨tupleDataTypeText, [0x31]⟩, ⟨0x62, [0x61]⟩]⟩

/-- A row with an empty key. -/
def emptyKeyed : InsertMessage :=
  ⟨7, some [⟨tupleDataTypeText, []⟩, ⟨tupleDataTypeText, [0x61]⟩]⟩

end Demo

/-- A binary column cannot be decoded, and stops the reader. -/
theorem decoding_error_stops_sample : ∃ err,
    (Demo.begun.consume none (.insert Demo.unsupported)).2 = .error err ∧
      isRetryable err = false := by
  have hof : (newRelationInfo Demo.keyed).IsOf Demo.keyed := rfl
  have hstops : (Message.insert Demo.unsupported).StopsReader Demo.keyed
      Demo.begun.maxValueBytes :=
    ⟨_, rfl, rfl, fun h => absurd (h ⟨0x62, [0x61]⟩ (by decide)) (by decide)⟩
  have hall : ∀ err, (Demo.begun.consume none (.insert Demo.unsupported)).2 = .error err →
      isRetryable err = false :=
    (decoding_error_stops_iff rfl (Finmap.lookup_insert _) hof rfl).mpr (.inr hstops)
  cases h : (Demo.begun.consume none (.insert Demo.unsupported)).2 with
  | error err => exact ⟨err, rfl, hall err h⟩
  | ok out =>
    have hfails : (Demo.begun.consume none (.insert Demo.unsupported)).2.toOption = none := by
      decide
    rw [h] at hfails
    cases hfails

/-- An empty key cannot be decoded, and is retried. -/
theorem decoding_error_retried : ∃ err,
    (Demo.begun.consume none (.insert Demo.emptyKeyed)).2 = .error err ∧
      isRetryable err = true :=
  ⟨.new "cdc: key id is not a non-empty text value", by decide, by decide⟩

end Watchd.Cdc
