import Watchd.Cdc.Segments
import Watchd.Lib.Transition

/-!
# The in-flight transaction

Between BEGIN and COMMIT the decoder holds the changes of one transaction, with a
running total of their estimated sizes beside them.  `append` is the only way in:
it refuses a change exactly when a bound would be broken, and whatever else a
message comes to leaves the open transaction alone.

`in_flight_bounded`: the bounds hold after every run of messages, and `append`
refuses nothing for a bound that it keeps.
-/

namespace Watchd.Cdc

open Watchd.Lib

/-! ## What a change holds -/

/-- No column value and no key value of the change is longer than `max`. -/
structure Change.Within (max : Int) (c : Change) : Prop where
  values : ∀ value ∈ c.values, (value.text.length : Int) ≤ max
  key : ∀ column text, c.key.lookup column = some text → (text.length : Int) ≤ max

section Within

variable {rm : RelationMessage} {max : Int} {t : TupleData}

theorem TupleDataColumn.Supported.value {c : TupleDataColumn} (h : c.Supported max)
    (hmax : 0 ≤ max) : (c.value.text.length : Int) ≤ max := by
  unfold TupleDataColumn.value
  split
  · next htext => exact h.length_le htext
  · split <;> exact hmax

theorem mem_of_mem_keyCells {nc : String × TupleDataColumn} (h : nc ∈ keyCells rm t) :
    nc.2 ∈ t := by
  obtain ⟨p, hp, rfl⟩ := List.mem_map.mp h
  exact (List.of_mem_zip (List.mem_filter.mp hp).1).2

/-- The key columns of an old tuple are within the limit. -/
theorem KeyTuple.oldCells_le (h : KeyTuple rm max t) :
    ∀ c ∈ oldCells rm t, (c.data.length : Int) ≤ max := by
  intro c hc
  unfold oldCells at hc
  rcases h with ⟨hlen, hsup, htext⟩ | ⟨-, hall⟩
  · rw [if_pos hlen] at hc
    obtain ⟨nc, hnc, rfl⟩ := List.mem_map.mp hc
    exact (hsup nc.2 (mem_of_mem_keyCells hnc)).length_le (htext nc hnc).1
  · split at hc
    · obtain ⟨nc, hnc, rfl⟩ := List.mem_map.mp hc
      exact (hall nc.2 (mem_of_mem_keyCells hnc)).2
    · exact (hall c hc).2

theorem RowAccepted.within (h : RowAccepted rm max t) (hmax : 0 ≤ max) (operation : Operation) :
    (rowChange operation rm t).Within max := by
  refine ⟨fun value hvalue => ?_, fun column text hlookup => ?_⟩
  · obtain ⟨c, hc, rfl⟩ := List.mem_map.mp hvalue
    exact (h.supported c hc).value hmax
  · rcases mem_of_lookup_fill hlookup with hmem | hnone
    · obtain ⟨nc, hnc, heq⟩ := List.mem_map.mp hmem
      cases heq
      exact (h.supported nc.2 (mem_of_mem_keyCells hnc)).length_le (h.key nc hnc).1
    · cases hnone

/-- What a row message decodes to is within the limit on values. -/
theorem Message.Decodes.within {msg : Message} {change : Change} (h : msg.Decodes rm max change)
    (hmax : 0 ≤ max) : change.Within max := by
  cases msg with
  | insert m =>
    obtain ⟨t, -, hacc, rfl⟩ := h
    exact hacc.within hmax .insert
  | update m =>
    obtain ⟨t, -, hacc, -, rfl⟩ := h
    exact hacc.within hmax .update
  | delete m =>
    obtain ⟨-, old, -, hkt, rfl⟩ := h
    refine ⟨nofun, fun column text hlookup => ?_⟩
    rcases mem_of_lookup_fill hlookup with hmem | hnone
    · obtain ⟨c, hc, rfl⟩ := List.mem_map.mp (List.of_mem_zip hmem).2
      exact hkt.oldCells_le c hc
    · cases hnone
  | _ => exact h.elim

end Within

/-! ## Errors that are not about the bounds -/

/-- The error is neither of the two that `append` has for a full transaction. -/
def NotOfBounds (err : GoError) : Prop :=
  err.is .transactionTooLarge = false ∧ err.is .transactionTooManyChanges = false

section Errors

variable {max : Int}

theorem notOfBounds_new (text : String) : NotOfBounds (.new text) := ⟨rfl, rfl⟩

theorem notOfBounds_inContext {α : Type} {context : String} {x : Except GoError α}
    (h : ErrorsIn NotOfBounds x) : ErrorsIn NotOfBounds (inContext context x) := by
  cases x with
  | ok a => exact errorsIn_ok
  | error err =>
    have herr : NotOfBounds err := errorsIn_error.mp h
    exact errorsIn_error.mpr herr

theorem notOfBounds_checkColumn (c : TupleDataColumn) :
    ErrorsIn NotOfBounds (checkColumn c max) := by
  unfold checkColumn
  split
  · exact errorsIn_ok
  · split
    · split
      · exact errorsIn_error.mpr ⟨rfl, rfl⟩
      · exact errorsIn_ok
    · exact errorsIn_error.mpr ⟨rfl, rfl⟩

theorem notOfBounds_checkKeyColumn (c : TupleDataColumn) :
    ErrorsIn NotOfBounds (checkKeyColumn c max) := by
  unfold checkKeyColumn
  split
  · exact errorsIn_error.mpr ⟨rfl, rfl⟩
  · split
    · exact errorsIn_error.mpr (notOfBounds_new _)
    · split
      · exact errorsIn_error.mpr ⟨rfl, rfl⟩
      · exact errorsIn_ok

theorem notOfBounds_checkRow (info : RelationInfo) (tuple : TupleData) :
    ErrorsIn NotOfBounds (checkRow info tuple max) := by
  unfold checkRow
  split
  · exact errorsIn_error.mpr (notOfBounds_new _)
  · refine ErrorsIn.foldlM (fun n nc _ => errorsIn_bind.mpr ⟨?_, fun _ _ => errorsIn_ok⟩) 0
    exact notOfBounds_inContext (notOfBounds_checkColumn nc.2)

theorem notOfBounds_decodeRow (info : RelationInfo) (tuple : Option TupleData) :
    ErrorsIn NotOfBounds (decodeRow info tuple max) := by
  cases tuple with
  | none => exact errorsIn_error.mpr (notOfBounds_new _)
  | some t => exact errorsIn_bind.mpr ⟨notOfBounds_checkRow info t, fun _ _ => errorsIn_ok⟩

theorem notOfBounds_keyFromValues (info : RelationInfo) (values : List Value) :
    ErrorsIn NotOfBounds (keyFromValues info values) := by
  unfold keyFromValues
  split
  · exact errorsIn_error.mpr (notOfBounds_new _)
  · refine ErrorsIn.foldlM (fun key i _ => ?_) ∅
    dsimp only
    split
    · exact errorsIn_error.mpr (notOfBounds_new _)
    · exact errorsIn_ok

theorem notOfBounds_checkKeyTuple (info : RelationInfo) (tuple : Option TupleData) :
    ErrorsIn NotOfBounds (checkKeyTuple info tuple max) := by
  cases tuple with
  | none => exact errorsIn_error.mpr (notOfBounds_new _)
  | some t =>
    simp only [checkKeyTuple]
    split
    · exact errorsIn_error.mpr (notOfBounds_new _)
    · split
      · refine errorsIn_bind.mpr ⟨notOfBounds_checkRow info t, fun _ _ => .forM fun index => ?_⟩
        split
        · exact errorsIn_error.mpr (notOfBounds_new _)
        · exact errorsIn_ok
      · split
        · exact .forM fun ic => notOfBounds_inContext (notOfBounds_checkKeyColumn ic.2)
        · exact errorsIn_error.mpr (notOfBounds_new _)

theorem notOfBounds_relation (d : Decoder) (id : UInt32) :
    ErrorsIn NotOfBounds (d.relation id) := by
  unfold Decoder.relation
  split
  · exact errorsIn_error.mpr ⟨rfl, rfl⟩
  · exact errorsIn_ok

theorem notOfBounds_skip (d : Decoder) (reads : Option Reads) (id : UInt32) :
    ErrorsIn NotOfBounds (d.skip reads id).2 := by
  have herr := notOfBounds_relation d id
  unfold Decoder.skip
  cases hrel : d.relation id with
  | error err => exact errorsIn_error.mpr (herr err hrel)
  | ok info => exact errorsIn_map.mpr (notOfBounds_relation _ id)

/-- Decoding a row says nothing about the bounds. -/
theorem notOfBounds_decode (d : Decoder) {msg : Message} {id : UInt32} (hrow : msg.row? = some id) :
    ErrorsIn NotOfBounds (msg.decode d) := by
  cases msg with
  | insert m =>
    refine errorsIn_bind.mpr ⟨notOfBounds_relation d _, fun info _ => ?_⟩
    refine errorsIn_bind.mpr ⟨notOfBounds_decodeRow info _, fun values _ => ?_⟩
    exact errorsIn_bind.mpr ⟨notOfBounds_keyFromValues info values, fun _ _ => errorsIn_ok⟩
  | update m =>
    refine errorsIn_bind.mpr ⟨notOfBounds_relation d _, fun info _ => ?_⟩
    refine errorsIn_bind.mpr ⟨notOfBounds_decodeRow info _, fun values _ => ?_⟩
    refine errorsIn_bind.mpr ⟨notOfBounds_keyFromValues info values, fun key _ => ?_⟩
    cases m.oldTuple with
    | none => exact errorsIn_ok
    | some old =>
      refine errorsIn_bind.mpr ⟨notOfBounds_checkKeyTuple info _, fun _ _ => ?_⟩
      refine errorsIn_bind.mpr ⟨.forM fun ik => ?_, fun _ _ => errorsIn_ok⟩
      split
      · exact errorsIn_error.mpr ⟨rfl, rfl⟩
      · exact errorsIn_ok
  | delete m =>
    refine errorsIn_bind.mpr ⟨notOfBounds_relation d _, fun info _ => ?_⟩
    exact errorsIn_bind.mpr ⟨notOfBounds_checkKeyTuple info _, fun _ _ => errorsIn_ok⟩
  | _ => cases hrow

end Errors

/-! ## What a message does to the open transaction -/

namespace Decoder

/-- Two decoders with the same limits. -/
structure SameLimits (d' d : Decoder) : Prop where
  maxTransactionBytes : d'.maxTransactionBytes = d.maxTransactionBytes
  maxTransactionChanges : d'.maxTransactionChanges = d.maxTransactionChanges
  maxValueBytes : d'.maxValueBytes = d.maxValueBytes

theorem SameLimits.trans {a b c : Decoder} (hab : a.SameLimits b) (hbc : b.SameLimits c) :
    a.SameLimits c :=
  ⟨hab.1.trans hbc.1, hab.2.trans hbc.2, hab.3.trans hbc.3⟩

/-- The open transaction and its size are the same. -/
structure SameOpen (d' d : Decoder) : Prop extends SameLimits d' d where
  pending : d'.pending = d.pending
  pendingBytes : d'.pendingBytes = d.pendingBytes
  pendingXid : d'.pendingXid = d.pendingXid
  pendingCommitTime : d'.pendingCommitTime = d.pendingCommitTime

variable {d d' : Decoder} {reads : Option Reads} {msg : Message} {id : UInt32} {info : RelationInfo}
  {change : Change} {err : GoError}

theorem SameOpen.refl (d : Decoder) : d.SameOpen d := ⟨⟨rfl, rfl, rfl⟩, rfl, rfl, rfl, rfl⟩

theorem SameOpen.of_rechecked (h : Rechecked d reads id d' info) : d'.SameOpen d := by
  cases h <;> exact ⟨⟨rfl, rfl, rfl⟩, rfl, rfl, rfl, rfl⟩

/-- `append` takes a change that fits. -/
theorem append_eq_ok (h : (d.append change).2 = .ok ()) :
    ∃ pending, d.pending = some pending ∧ (pending.length : Int) < d.maxTransactionChanges ∧
      d.pendingBytes + estimatedChangeBytes change ≤ d.maxTransactionBytes ∧
      (d.append change).1 = { d with
        pending := some (pending ++ [change])
        pendingBytes := d.pendingBytes + estimatedChangeBytes change } := by
  unfold append at h ⊢
  cases hp : d.pending with
  | none =>
    rw [hp] at h
    cases h
  | some pending =>
    simp only [hp] at h ⊢
    split at h
    · cases h
    · next hcount =>
      split at h
      · cases h
      · next hbytes =>
        refine ⟨pending, rfl, by omega, by omega, ?_⟩
        rw [if_neg hcount, if_neg hbytes]

/-- `append` refuses a change that breaks the bound its error names, and then does nothing. -/
theorem append_eq_error (h : (d.append change).2 = .error err) :
    (d.append change).1 = d ∧
      (err.is .transactionTooLarge = true →
        d.maxTransactionBytes < d.pendingBytes + estimatedChangeBytes change) ∧
      (err.is .transactionTooManyChanges = true → ∃ pending, d.pending = some pending ∧
        d.maxTransactionChanges < pending.length + 1) := by
  unfold append at h ⊢
  cases hp : d.pending with
  | none =>
    rw [hp] at h
    cases h
    exact ⟨rfl, nofun, nofun⟩
  | some pending =>
    simp only [hp] at h ⊢
    split at h
    · next hcount =>
      cases h
      rw [if_pos hcount]
      exact ⟨rfl, nofun, fun _ => ⟨pending, rfl, by omega⟩⟩
    · next hcount =>
      split at h
      · next hbytes =>
        cases h
        rw [if_neg hcount, if_pos hbytes]
        exact ⟨rfl, fun _ => by omega, nofun⟩
      · cases h

/-- What a message does to the open transaction. -/
inductive Books (d : Decoder) (reads : Option Reads) (msg : Message) : Prop
  /-- nothing, and then it is not refused for a bound -/
  | aside (same : (d.consume reads msg).1.SameOpen d)
      (errors : ErrorsIn NotOfBounds (d.consume reads msg).2)
  /-- it begins or ends one -/
  | boundary (limits : (d.consume reads msg).1.SameLimits d)
      (pending : (d.consume reads msg).1.pending.getD [] = [])
      (pendingBytes : (d.consume reads msg).1.pendingBytes = 0)
      (ok : ∃ t, (d.consume reads msg).2 = .ok t)
  /-- it is a row message whose change is given to `append` -/
  | row {id : UInt32} {d' : Decoder} {info : RelationInfo} {change : Change}
      (row : msg.row? = some id) (found : Rechecked d reads id d' info)
      (decoded : msg.decode d' = .ok change)
      (eq : d.consume reads msg = ((d'.append change).1, (d'.append change).2.map fun _ => none))

theorem books_of_row (hrow : msg.row? = some id) : d.Books reads msg := by
  have heq : d.consume reads msg = d.consumeRow reads id fun d => msg.decode d := consume_row hrow
  cases hskip : d.skip reads id with
  | mk d' r =>
    rcases skip_cases hskip with ⟨err, rfl, rfl⟩ | ⟨info, hre, rfl⟩
    · have herr : ErrorsIn NotOfBounds (d'.skip reads id).2 := notOfBounds_skip d' reads id
      rw [hskip] at herr
      simp only [consumeRow, hskip] at heq
      refine .aside ?_ ?_ <;> rw [heq]
      · exact .refl _
      · exact errorsIn_error.mpr (errorsIn_error.mp herr)
    · cases hinc : info.incompatible.isSome with
      | true =>
        rw [hinc] at hskip
        simp only [consumeRow, hskip] at heq
        refine .aside ?_ ?_ <;> rw [heq]
        · exact .of_rechecked hre
        · exact errorsIn_ok
      | false =>
        rw [hinc] at hskip
        simp only [consumeRow, hskip] at heq
        cases hdec : msg.decode d' with
        | error err =>
          simp only [hdec] at heq
          refine .aside ?_ ?_ <;> rw [heq]
          · exact .of_rechecked hre
          · exact errorsIn_error.mpr (notOfBounds_decode d' hrow err hdec)
        | ok change =>
          simp only [hdec] at heq
          exact .row hrow hre hdec heq

theorem books (d : Decoder) (reads : Option Reads) (msg : Message) : d.Books reads msg := by
  cases msg with
  | insert m => exact books_of_row rfl
  | update m => exact books_of_row rfl
  | delete m => exact books_of_row rfl
  | relation m => exact .aside ⟨⟨rfl, rfl, rfl⟩, rfl, rfl, rfl, rfl⟩ errorsIn_ok
  | begin xid commitTime =>
    cases hp : d.pending with
    | none =>
      refine .boundary ?_ ?_ ?_ ⟨none, ?_⟩ <;> simp only [consume, hp]
      · exact ⟨rfl, rfl, rfl⟩
      · rfl
    | some pending =>
      refine .aside ?_ ?_ <;> simp only [consume, hp]
      · exact .refl d
      · exact errorsIn_error.mpr ⟨rfl, rfl⟩
  | commit commitLSN transactionEndLSN =>
    cases hp : d.pending with
    | none =>
      refine .aside ?_ ?_ <;> simp only [consume, hp]
      · exact .refl d
      · exact errorsIn_error.mpr ⟨rfl, rfl⟩
    | some pending =>
      refine .boundary ?_ ?_ ?_ ?_ <;> simp only [consume, hp]
      · exact ⟨rfl, rfl, rfl⟩
      · rfl
      · exact ⟨_, rfl⟩
  | type => exact .aside (.refl d) errorsIn_ok
  | origin => exact .aside (.refl d) errorsIn_ok
  | other typeText => exact .aside (.refl d) (errorsIn_error.mpr ⟨rfl, rfl⟩)

/-! ## Every sequence of messages -/

/-- One decoder, given any messages; what the registry holds at each is up to the reader. -/
def machine (maxTransactionBytes maxTransactionChanges maxValueBytes : Int) :
    Machine Decoder (Option Reads × Message) where
  init d := d = newDecoderWithLimits maxTransactionBytes maxTransactionChanges maxValueBytes
  step d l := some (d.consume l.1 l.2).1

/-- The running total is right and the open transaction is within the limits. -/
structure Bounded (d : Decoder) : Prop where
  latest : ∃ past, d.HoldsLatest past
  maxValueBytes : 0 ≤ d.maxValueBytes
  bytes_eq : d.pendingBytes = (((d.pending.getD []).map estimatedChangeBytes).sum : Nat)
  bytes_le : d.pendingBytes ≤ d.maxTransactionBytes
  changes_le : ((d.pending.getD []).length : Int) ≤ d.maxTransactionChanges
  within : ∀ change ∈ d.pending.getD [], change.Within d.maxValueBytes

theorem newDecoderWithLimits_pos (maxTransactionBytes maxTransactionChanges maxValueBytes : Int) :
    let d := newDecoderWithLimits maxTransactionBytes maxTransactionChanges maxValueBytes
    0 < d.maxTransactionBytes ∧ 0 < d.maxTransactionChanges ∧ 0 < d.maxValueBytes := by
  simp only [newDecoderWithLimits, defaultMaxTransactionBytes, defaultMaxTransactionChanges,
    defaultMaxValueBytes]
  refine ⟨?_, ?_, ?_⟩ <;> split <;> omega

theorem Bounded.start (maxTransactionBytes maxTransactionChanges maxValueBytes : Int) :
    (newDecoderWithLimits maxTransactionBytes maxTransactionChanges maxValueBytes).Bounded := by
  obtain ⟨hbytes, hchanges, hvalue⟩ :=
    newDecoderWithLimits_pos maxTransactionBytes maxTransactionChanges maxValueBytes
  exact ⟨⟨[], holdsLatest_nil _ _ _⟩, hvalue.le, rfl, hbytes.le, hchanges.le, nofun⟩

theorem Bounded.of_sameOpen (h : d.Bounded) (hlatest : ∃ past, d'.HoldsLatest past)
    (hsame : d'.SameOpen d) : d'.Bounded := by
  obtain ⟨⟨hbytes, hchanges, hvalue⟩, hpending, hpendingBytes, -, -⟩ := hsame
  refine ⟨hlatest, ?_, ?_, ?_, ?_, ?_⟩ <;> simp only [hbytes, hchanges, hvalue, hpending,
    hpendingBytes]
  · exact h.maxValueBytes
  · exact h.bytes_eq
  · exact h.bytes_le
  · exact h.changes_le
  · exact h.within

/-- A row message that was decoded, under the definition the decoder knows. -/
theorem Bounded.decoded (h : d.Bounded) (hrow : msg.row? = some id)
    (hre : Rechecked d reads id d' info) (hdec : msg.decode d' = .ok change) :
    ∃ rm, msg.row? = some rm.relationID ∧ d.Knows rm ∧ msg.Decodes rm d.maxValueBytes change := by
  obtain ⟨past, hpast⟩ := h.latest
  obtain ⟨rm, rfl, hrm, hof⟩ := (hpast.rechecked hre).exists_isOf hre.lookup
  refine ⟨rm, hrow, ?_, ?_⟩
  · -- the definition is the one from before the check
    have hrel := hpast rm.relationID
    rw [hrm] at hrel
    cases hl : d.relations.lookup rm.relationID with
    | none =>
      rw [hl] at hrel
      cases hrel
    | some info₀ =>
      rw [hl] at hrel
      cases hrel with
      | some hof₀ => exact ⟨info₀, hl, hof₀⟩
  · have hmax := (SameOpen.of_rechecked hre).maxValueBytes
    rw [← hmax]
    exact (decode_eq_ok_iff hof hre.lookup hrow).mp hdec

/-- `append` keeps the books. -/
theorem Bounded.append (h : d.Bounded) (hchange : change.Within d.maxValueBytes) :
    (d.append change).1.Bounded ∧ (d.append change).1.SameLimits d := by
  cases hr : (d.append change).2 with
  | error err =>
    rw [(append_eq_error hr).1]
    exact ⟨h, (SameOpen.refl d).toSameLimits⟩
  | ok _ =>
    obtain ⟨pending, hp, hcount, hbytes, heq⟩ := append_eq_ok hr
    have hsum := h.bytes_eq
    have hwithin := h.within
    rw [hp, Option.getD_some] at hsum hwithin
    rw [heq]
    refine ⟨⟨h.latest, h.maxValueBytes, ?_, hbytes, ?_, ?_⟩, ⟨rfl, rfl, rfl⟩⟩
    · simp only [Option.getD_some, List.map_append, List.sum_append, List.map_singleton,
        List.sum_singleton]
      omega
    · simp only [Option.getD_some, List.length_append, List.length_singleton]
      omega
    · intro c hc
      rcases List.mem_append.mp hc with hc | hc
      · exact hwithin c hc
      · rw [List.mem_singleton.mp hc]
        exact hchange

/-- One message keeps the books, accepted or not. -/
theorem Bounded.consume (h : d.Bounded) (reads : Option Reads) (msg : Message) :
    (d.consume reads msg).1.Bounded ∧ (d.consume reads msg).1.SameLimits d := by
  obtain ⟨past, hpast⟩ := h.latest
  have hlatest : ∃ past, (d.consume reads msg).1.HoldsLatest past := ⟨_, hpast.consume reads msg⟩
  cases d.books reads msg with
  | aside same errors => exact ⟨h.of_sameOpen hlatest same, same.toSameLimits⟩
  | boundary limits pending pendingBytes ok =>
    have hsum := h.bytes_eq
    have hbytes := h.bytes_le
    have hchanges := h.changes_le
    refine ⟨⟨hlatest, ?_, ?_, ?_, ?_, ?_⟩, limits⟩
    · exact limits.maxValueBytes ▸ h.maxValueBytes
    · rw [pending, pendingBytes]
      rfl
    · rw [pendingBytes, limits.maxTransactionBytes]
      omega
    · rw [pending, limits.maxTransactionChanges]
      exact (Int.natCast_nonneg _).trans hchanges
    · rw [pending]
      exact nofun
  | row hrow hre hdec heq =>
    obtain ⟨rm, -, -, hdecodes⟩ := h.decoded hrow hre hdec
    have hsame := SameOpen.of_rechecked hre
    obtain ⟨hb, hl⟩ := (h.of_sameOpen ⟨past, hpast.rechecked hre⟩ hsame).append
      (hsame.maxValueBytes ▸ hdecodes.within h.maxValueBytes)
    rw [heq]
    exact ⟨hb, hl.trans hsame.toSameLimits⟩

/-- A refused message leaves the open transaction as it was, and is refused for a bound only if its
change would break it. -/
theorem Bounded.refused (h : d.Bounded) (herr : (d.consume reads msg).2 = .error err) :
    (d.consume reads msg).1.SameOpen d ∧
      (err.is .transactionTooLarge = true →
        ∃ rm change, msg.row? = some rm.relationID ∧ d.Knows rm ∧
          msg.Decodes rm d.maxValueBytes change ∧
          d.maxTransactionBytes < d.pendingBytes + estimatedChangeBytes change) ∧
      (err.is .transactionTooManyChanges = true →
        ∃ rm change, msg.row? = some rm.relationID ∧ d.Knows rm ∧
          msg.Decodes rm d.maxValueBytes change ∧
          d.maxTransactionChanges < (d.pending.getD []).length + 1) := by
  cases d.books reads msg with
  | aside same errors =>
    obtain ⟨hlarge, hmany⟩ := errors err herr
    refine ⟨same, fun htoo => ?_, fun htoo => ?_⟩
    · rw [hlarge] at htoo
      cases htoo
    · rw [hmany] at htoo
      cases htoo
  | boundary limits pending pendingBytes ok =>
    obtain ⟨t, ht⟩ := ok
    rw [ht] at herr
    cases herr
  | @row id d' info change hrow hre hdec heq =>
    obtain ⟨rm, hrm, hknows, hdecodes⟩ := h.decoded hrow hre hdec
    have hsame := SameOpen.of_rechecked hre
    rw [heq] at herr
    obtain ⟨hd', hlarge, hmany⟩ := append_eq_error (map_eq_error.mp herr)
    rw [heq, hd']
    refine ⟨hsame, fun htoo => ⟨rm, change, hrm, hknows, hdecodes, ?_⟩,
      fun htoo => ⟨rm, change, hrm, hknows, hdecodes, ?_⟩⟩
    · rw [← hsame.maxTransactionBytes, ← hsame.pendingBytes]
      exact hlarge htoo
    · obtain ⟨pending, hp, hcount⟩ := hmany htoo
      rw [← hsame.maxTransactionChanges, ← hsame.pending, hp]
      exact hcount

end Decoder

open Decoder

/-- **The in-flight transaction is bounded at all times.**  After any messages, accepted or not, the
total is that of the changes held, no bound is broken, a row is refused for a bound only if it
would break it, and a refused message leaves the open transaction as it was. -/
theorem in_flight_bounded {maxTransactionBytes maxTransactionChanges maxValueBytes : Int}
    {d : Decoder}
    (h : Reaches (machine maxTransactionBytes maxTransactionChanges maxValueBytes) anyStep d) :
    let limits := newDecoderWithLimits maxTransactionBytes maxTransactionChanges maxValueBytes
    d.pendingBytes = (((d.pending.getD []).map estimatedChangeBytes).sum : Nat) ∧
    d.pendingBytes ≤ limits.maxTransactionBytes ∧
    ((d.pending.getD []).length : Int) ≤ limits.maxTransactionChanges ∧
    (∀ change ∈ d.pending.getD [], change.Within limits.maxValueBytes) ∧
    ∀ reads msg err, (d.consume reads msg).2 = .error err →
      (err.is .transactionTooLarge = true →
        ∃ rm change, msg.row? = some rm.relationID ∧ d.Knows rm ∧
          msg.Decodes rm limits.maxValueBytes change ∧
          limits.maxTransactionBytes < d.pendingBytes + estimatedChangeBytes change) ∧
      (err.is .transactionTooManyChanges = true →
        ∃ rm change, msg.row? = some rm.relationID ∧ d.Knows rm ∧
          msg.Decodes rm limits.maxValueBytes change ∧
          limits.maxTransactionChanges < (d.pending.getD []).length + 1) ∧
      (d.consume reads msg).1.pending = d.pending ∧
      (d.consume reads msg).1.pendingBytes = d.pendingBytes ∧
      (d.consume reads msg).1.pendingXid = d.pendingXid ∧
      (d.consume reads msg).1.pendingCommitTime = d.pendingCommitTime := by
  have hinv : d.Bounded ∧ d.SameLimits
      (newDecoderWithLimits maxTransactionBytes maxTransactionChanges maxValueBytes) := by
    refine h.invariant (I := fun d => d.Bounded ∧ d.SameLimits
      (newDecoderWithLimits maxTransactionBytes maxTransactionChanges maxValueBytes)) ?_ ?_
    · rintro d rfl
      exact ⟨.start _ _ _, ⟨rfl, rfl, rfl⟩⟩
    · rintro d ⟨reads, msg⟩ d' - ⟨hb, hl⟩ - hstep
      cases hstep
      obtain ⟨hb', hl'⟩ := hb.consume reads msg
      exact ⟨hb', hl'.trans hl⟩
  obtain ⟨hb, hbytes, hchanges, hvalue⟩ := hinv
  simp only [← hbytes, ← hchanges, ← hvalue]
  refine ⟨hb.bytes_eq, hb.bytes_le, hb.changes_le, hb.within, fun reads msg err herr => ?_⟩
  obtain ⟨hsame, hlarge, hmany⟩ := hb.refused herr
  exact ⟨hlarge, hmany, hsame.pending, hsame.pendingBytes, hsame.pendingXid,
    hsame.pendingCommitTime⟩

namespace Demo

/-- A table with one column, its key; a BEGIN, and one row where one is allowed. -/
def oneRow : List (Option Reads × Message) :=
  [(none, .relation ⟨3, "public", "notes", 0x64, [⟨1, "id", 25⟩]⟩), (none, .begin 7 0),
    (none, .insert ⟨3, some [⟨tupleDataTypeText, [0x31]⟩]⟩)]

/-- A second row, one more than is allowed. -/
def refusedRow : Message := .insert ⟨3, some [⟨tupleDataTypeText, [0x32]⟩]⟩

end Demo

/-- With room for one change, the second row is refused for the number of changes. -/
theorem in_flight_bounded_one :
    ∃ d err, Reaches (machine 0 1 0) anyStep d ∧ d.pendingBytes = 280 ∧
      (d.consume none Demo.refusedRow).2 = .error err ∧
      (d.consume none Demo.refusedRow).1.pendingBytes = d.pendingBytes ∧
      err.is .transactionTooManyChanges = true := by
  have hrun : ∃ d ∈ runWhile (machine 0 1 0) anyStep (newDecoderWithLimits 0 1 0) Demo.oneRow,
      d.pendingBytes = 280 ∧
        (d.consume none Demo.refusedRow).2 = .error (.sentinel .transactionTooManyChanges) := by
    decide
  obtain ⟨d, hd, hbytes, herr⟩ := hrun
  have hreach : Reaches (machine 0 1 0) anyStep d := .of_runWhile (.init rfl) hd
  have hrefused := (in_flight_bounded hreach).2.2.2.2 none Demo.refusedRow _ herr
  exact ⟨d, _, hreach, hbytes, herr, hrefused.2.2.2.1, rfl⟩

end Watchd.Cdc
