import Mathlib.Algebra.GroupWithZero.Nat
import Watchd.Cdc.Relation

/-!
# The pgoutput decoder

`Decoder.consume` takes one pgoutput message at a time and returns a transaction
at each COMMIT.  Relations are checked against the registry of baselines; the
registry belongs to the reader and may move between any two of the decoder's
reads of it, so each read is given the registry it finds (`Reads`).
-/

namespace Watchd.Cdc

/-! ## Row messages -/

/-- One column of a tuple: how it is encoded, and its bytes if it is text. -/
structure TupleDataColumn where
  dataType : UInt8
  data : Text
  deriving DecidableEq, Repr

/-- The columns of a row, or of an old key. -/
abbrev TupleData := List TupleDataColumn

/-- NULL. -/
def tupleDataTypeNull : UInt8 := 'n'.toUInt8

/-- A TOAST value that did not change and is not sent. -/
def tupleDataTypeToast : UInt8 := 'u'.toUInt8

/-- Text. -/
def tupleDataTypeText : UInt8 := 't'.toUInt8

/-- A pgoutput Insert. -/
structure InsertMessage where
  relationID : UInt32
  tuple : Option TupleData
  deriving DecidableEq, Repr

/-- A pgoutput Update; the old tuple is sent if the key changed, or with a full replica identity. -/
structure UpdateMessage where
  relationID : UInt32
  oldTuple : Option TupleData
  newTuple : Option TupleData
  deriving DecidableEq, Repr

/-- A pgoutput Delete, with the old key or the old row. -/
structure DeleteMessage where
  relationID : UInt32
  oldTuple : Option TupleData
  deriving DecidableEq, Repr

/-- A pgoutput message. -/
inductive Message
  | relation (m : RelationMessage)
  | begin (xid : UInt32) (commitTime : Time)
  | insert (m : InsertMessage)
  | update (m : UpdateMessage)
  | delete (m : DeleteMessage)
  | commit (commitLSN transactionEndLSN : Nat)
  | type
  | origin
  /-- any other message, with the text of its type -/
  | other (typeText : String)
  deriving DecidableEq, Repr

/-! ## Relations -/

/-- What row decoding needs from a Relation message. -/
structure RelationInfo where
  table : String
  columns : List String
  /-- the positions of the replica-identity columns -/
  keyIndexes : List Nat
  shape : RelationShape
  oid : UInt32
  /-- the registry generation `incompatible` was decided at -/
  checked : Nat := 0
  incompatible : Option IncompatibleRelationError := none
  deriving DecidableEq

/-- `info.columns[index]`; the positions in `keyIndexes` are always within range. -/
def RelationInfo.column (info : RelationInfo) (index : Nat) : String := info.columns.getD index ""

/-- The positions from `index` on of the columns flagged as replica identity. -/
def keyIndexesFrom (index : Nat) : List RelationColumn → List Nat
  | [] => []
  | c :: cs =>
    if c.flags = 1 then index :: keyIndexesFrom (index + 1) cs else keyIndexesFrom (index + 1) cs

/-- What the decoder keeps of a relation message. -/
def newRelationInfo (m : RelationMessage) : RelationInfo where
  table := qualifiedTable m.nspace m.relationName
  columns := m.columns.map (·.name)
  keyIndexes := keyIndexesFrom 0 m.columns
  shape := shapeOfRelation m
  oid := m.relationID

/-! ## Column checks -/

/-- A column of a complete row is null, an unchanged TOAST value or text within the limit. -/
def checkColumn (column : TupleDataColumn) (maxValueBytes : Int) : Except GoError Unit :=
  if column.dataType = tupleDataTypeNull ∨ column.dataType = tupleDataTypeToast then .ok ()
  else if column.dataType = tupleDataTypeText then
    if column.data.length > maxValueBytes then
      .error (errorf .valueTooLarge (": " ++ toString column.data.length ++ " bytes exceeds " ++
        toString maxValueBytes ++ "-byte limit"))
    else .ok ()
  else
    .error (errorf .unsupportedColumnEncoding (": discriminator " ++ quoteByte column.dataType))

/-- A column of a key is text, not empty and within the limit. -/
def checkKeyColumn (column : TupleDataColumn) (maxValueBytes : Int) : Except GoError Unit :=
  if column.dataType ≠ tupleDataTypeText then
    .error (errorf .unsupportedColumnEncoding
      (": key is not text (type " ++ quoteByte column.dataType ++ ")"))
  else if column.data.length = 0 then .error (.new "key is empty")
  else if column.data.length > maxValueBytes then
    .error (errorf .valueTooLarge (": " ++ toString column.data.length ++ " bytes exceeds " ++
      toString maxValueBytes ++ "-byte limit"))
  else .ok ()

/-- Adds context to an error: `fmt.Errorf(context + "%w", err)`. -/
def inContext {α : Type} (context : String) : Except GoError α → Except GoError α
  | .ok a => .ok a
  | .error err => .error (.wrap context err "")

/-- Validates every column of a complete row and returns the total length of its values. -/
def checkRow (info : RelationInfo) (tuple : TupleData) (maxValueBytes : Int) :
    Except GoError Nat :=
  if tuple.length ≠ info.columns.length then
    .error (.new ("cdc: relation " ++ info.table ++ " has " ++ toString info.columns.length ++
      " columns but row tuple has " ++ toString tuple.length))
  else
    (info.columns.zip tuple).foldlM (fun textBytes nc => do
      inContext ("cdc: decode column " ++ nc.1 ++ ": ") (checkColumn nc.2 maxValueBytes)
      return textBytes + nc.2.data.length) 0

/-! ## Decoding rows and keys -/

/-- `text[offset:stop]`. -/
def slice (text : Text) (offset stop : Nat) : Text := (text.drop offset).take (stop - offset)

/-- The second loop of `decodeRow`: each text value is a slice of the row's `text`. -/
def sliceValues (text : Text) : Nat → TupleData → List Value
  | _, [] => []
  | offset, c :: cs =>
    if c.dataType = tupleDataTypeText then
      ⟨.text, slice text offset (offset + c.data.length)⟩ ::
        sliceValues text (offset + c.data.length) cs
    else if c.dataType = tupleDataTypeToast then
      ⟨.unchangedToast, []⟩ :: sliceValues text offset cs
    else ⟨.null, []⟩ :: sliceValues text offset cs

/-- All of a row's text in one string. -/
def rowText (tuple : TupleData) : Text :=
  tuple.flatMap fun c => if c.dataType = tupleDataTypeText then c.data else []

/-- The values of a complete row: checked first, then cut out of one text. -/
def decodeRow (info : RelationInfo) (tuple : Option TupleData) (maxValueBytes : Int) :
    Except GoError (List Value) :=
  match tuple with
  | none => .error (.new "cdc: row mutation is missing a tuple")
  | some tuple => do
    let _textBytes ← checkRow info tuple maxValueBytes
    return sliceValues (rowText tuple) 0 tuple

/-- The error for a relation without key columns. -/
def noKeyColumns (info : RelationInfo) : GoError :=
  .new ("cdc: relation " ++ info.table ++ " has no replica-identity key columns")

/-- The error for a key column that is empty or not text. -/
def emptyKey (column : String) : GoError :=
  .new ("cdc: key " ++ column ++ " is not a non-empty text value")

/-- The key of a row, by column name. -/
def keyFromValues (info : RelationInfo) (values : List Value) : Except GoError TextMap :=
  if info.keyIndexes.length = 0 then .error (noKeyColumns info)
  else
    info.keyIndexes.foldlM (fun key index =>
      let value := values.getD index {}
      if value.kind ≠ .text ∨ value.text = [] then .error (emptyKey (info.column index))
      else .ok (key.insert (info.column index) value.text)) ∅

/-- A column that no tuple has: a read of it is out of range. -/
def TupleDataColumn.missing : TupleDataColumn := ⟨0, []⟩

/-- The old tuple of a delete is a complete row or the key columns alone, and its key is usable. -/
def checkKeyTuple (info : RelationInfo) (tuple : Option TupleData) (maxValueBytes : Int) :
    Except GoError Unit :=
  match tuple with
  | none => .error (.new "cdc: delete mutation is missing its replica-identity tuple")
  | some tuple =>
    if info.keyIndexes.length = 0 then .error (noKeyColumns info)
    else if tuple.length = info.columns.length then do
      let _textBytes ← checkRow info tuple maxValueBytes
      info.keyIndexes.forM fun index =>
        let column := tuple.getD index .missing
        if column.dataType ≠ tupleDataTypeText ∨ column.data.length = 0 then
          .error (emptyKey (info.column index))
        else .ok ()
    else if tuple.length = info.keyIndexes.length then
      (info.keyIndexes.zip tuple).forM fun ic =>
        inContext ("cdc: decode key " ++ info.column ic.1 ++ ": ")
          (checkKeyColumn ic.2 maxValueBytes)
    else
      .error (.new ("cdc: relation " ++ info.table ++ " key tuple has " ++
        toString tuple.length ++ " columns, want " ++ toString info.keyIndexes.length ++
        " or " ++ toString info.columns.length))

/-- The `k`-th replica-identity column of a tuple that `checkKeyTuple` accepted, whether it is a
complete row or key columns only. -/
def keyColumn (info : RelationInfo) (columns : TupleData) (k : Nat) : TupleDataColumn :=
  if columns.length = info.columns.length then
    columns.getD (info.keyIndexes.getD k 0) .missing
  else columns.getD k .missing

/-- The key of a tuple that `checkKeyTuple` accepted, sliced out of one string. -/
def keyFromTuple (info : RelationInfo) (columns : TupleData) : TextMap :=
  let text := (List.range info.keyIndexes.length).flatMap fun k => (keyColumn info columns k).data
  (info.keyIndexes.zipIdx.foldl (fun (key, offset) (index, k) =>
    let stop := offset + (keyColumn info columns k).data.length
    (key.insert (info.column index) (slice text offset stop), stop))
    ((∅ : TextMap), 0)).1

/-! ## Size estimates -/

/-- What a value is taken to weigh. -/
def estimatedValueBytes (value : Value) : Nat :=
  if value.kind = .text then value.text.length else 1

/-- What a change is taken to weigh beyond its texts. -/
def changeOverhead : Nat := 256

/-- What a change counts towards the limit of a transaction. -/
def estimatedChangeBytes (change : Change) : Nat :=
  changeOverhead + change.operation.text.utf8ByteSize + change.table.utf8ByteSize +
    (change.key.entries.map fun e => e.1.utf8ByteSize + e.2.length).sum +
    ((change.columns.zip change.values).map fun cv =>
      cv.1.utf8ByteSize + estimatedValueBytes cv.2).sum

/-! ## The decoder -/

/-- The state of a decoder. -/
structure Decoder where
  relations : Finmap fun _ : UInt32 => RelationInfo := ∅
  /-- the changes of the open transaction; `none` between transactions -/
  pending : Option (List Change) := none
  pendingXid : UInt32 := 0
  pendingCommitTime : Time := 0
  pendingBytes : Int := 0
  maxTransactionBytes : Int
  maxTransactionChanges : Int
  maxValueBytes : Int
  /-- the incompatible relations found since the last COMMIT -/
  events : List IncompatibleRelationError := []

/-- 16 MiB. -/
def defaultMaxTransactionBytes : Int := 16777216

/-- The most changes of one transaction. -/
def defaultMaxTransactionChanges : Int := 100000

/-- 1 MiB. -/
def defaultMaxValueBytes : Int := 1048576

/-- A new decoder; a limit that is not positive takes its default. -/
def newDecoderWithLimits (maxTransactionBytes maxTransactionChanges maxValueBytes : Int) :
    Decoder where
  maxTransactionBytes :=
    if maxTransactionBytes ≤ 0 then defaultMaxTransactionBytes else maxTransactionBytes
  maxTransactionChanges :=
    if maxTransactionChanges ≤ 0 then defaultMaxTransactionChanges else maxTransactionChanges
  maxValueBytes := if maxValueBytes ≤ 0 then defaultMaxValueBytes else maxValueBytes

/-- The registry of baselines as each read of one `consume` finds it. -/
structure Reads where
  /-- `skip` compares generations -/
  skip : Shapes
  /-- `check` reads the generation, -/
  generation : Shapes
  /-- then the baseline by relation ID, -/
  oid : Shapes
  /-- then the baseline by table -/
  table : Shapes

/-- All reads find the same registry. -/
def Reads.still (s : Shapes) : Reads := ⟨s, s, s, s⟩

/-- Adds an event unless its table has one already. -/
def report (events : List IncompatibleRelationError) (event : IncompatibleRelationError) :
    List IncompatibleRelationError :=
  if events.any fun e => e.table = event.table then events else events ++ [event]

/-- A baseline under another name with this relation ID is a rename. -/
def RelationInfo.reportRenamed (info : RelationInfo) (events : List IncompatibleRelationError) :
    Option RelationShape → List IncompatibleRelationError
  | none => events
  | some renamed =>
    if renamed.table ≠ info.table then
      report events ⟨renamed.table, "table was renamed to " ++ info.table⟩
    else events

/-- Compares `info` with the baselines of the validated projection tables and adds an event for
each incompatibility. -/
def RelationInfo.check (info : RelationInfo) (events : List IncompatibleRelationError) :
    Option Reads → RelationInfo × List IncompatibleRelationError
  | none => (info, events)
  | some reads =>
    let info := { info with checked := reads.generation.gen, incompatible := none }
    let events := info.reportRenamed events (reads.oid.baselineByOID info.oid)
    match reads.table.baselineByTable info.table with
    | none => (info, events)
    | some baseline =>
      let difference := baseline.diff info.shape
      if difference ≠ "" then
        let incompatible : IncompatibleRelationError := ⟨info.table, difference⟩
        ({ info with incompatible := some incompatible }, report events incompatible)
      else (info, events)

namespace Decoder

/-- A transaction is open. -/
def inTransaction (d : Decoder) : Bool := d.pending.isSome

/-- Checks the relation held under `id`, which is `info`. -/
def check (d : Decoder) (reads : Option Reads) (id : UInt32) (info : RelationInfo) : Decoder :=
  { d with
    relations := d.relations.insert id (info.check d.events reads).1
    events := (info.check d.events reads).2 }

/-- What is known of the relation a row message names. -/
def relation (d : Decoder) (id : UInt32) : Except GoError RelationInfo :=
  match d.relations.lookup id with
  | none => .error (errorf .unknownRelation (" ID " ++ toString id.toNat))
  | some info => .ok info

/-- Whether a row change of relation `id` must be dropped because the relation is incompatible
with its baseline; a baseline moved since the last check is taken into account first. -/
def skip (d : Decoder) (reads : Option Reads) (id : UInt32) : Decoder × Except GoError Bool :=
  match d.relation id with
  | .error err => (d, .error err)
  | .ok info =>
    let d :=
      match reads with
      | none => d
      | some r => if info.checked ≠ r.skip.gen then d.check reads id info else d
    (d, (d.relation id).map (·.incompatible.isSome))

/-- Adds a change to the open transaction, within its limits. -/
def append (d : Decoder) (change : Change) : Decoder × Except GoError Unit :=
  match d.pending with
  | none => (d, .error (.sentinel .noTransaction))
  | some pending =>
    if pending.length ≥ d.maxTransactionChanges then
      (d, .error (.sentinel .transactionTooManyChanges))
    else
      let changeBytes := estimatedChangeBytes change
      if changeBytes > d.maxTransactionBytes - d.pendingBytes then
        (d, .error (.sentinel .transactionTooLarge))
      else
        ({ d with
          pending := some (pending ++ [change])
          pendingBytes := d.pendingBytes + changeBytes }, .ok ())

/-- The change of an Insert. -/
def insert (d : Decoder) (m : InsertMessage) : Except GoError Change := do
  let info ← d.relation m.relationID
  let values ← decodeRow info m.tuple d.maxValueBytes
  let key ← keyFromValues info values
  return ⟨.insert, info.table, key, info.columns, values⟩

/-- The change of an Update: the new row, under the same key as the old tuple if one is sent. -/
def update (d : Decoder) (m : UpdateMessage) : Except GoError Change := do
  let info ← d.relation m.relationID
  let values ← decodeRow info m.newTuple d.maxValueBytes
  let key ← keyFromValues info values
  match m.oldTuple with
  | none => pure ()
  | some old =>
    checkKeyTuple info (some old) d.maxValueBytes
    info.keyIndexes.zipIdx.forM fun ik =>
      if (keyColumn info old ik.2).data ≠ (values.getD ik.1 {}).text then
        .error (.sentinel .primaryKeyChangeUnsupported)
      else .ok ()
  return ⟨.update, info.table, key, info.columns, values⟩

/-- The change of a Delete: only the key. -/
def delete (d : Decoder) (m : DeleteMessage) : Except GoError Change := do
  let info ← d.relation m.relationID
  checkKeyTuple info m.oldTuple d.maxValueBytes
  return ⟨.delete, info.table, keyFromTuple info (m.oldTuple.getD []), [], []⟩

/-- What `consume` does with a row message of relation `id`. -/
def consumeRow (d : Decoder) (reads : Option Reads) (id : UInt32)
    (decode : Decoder → Except GoError Change) : Decoder × Except GoError (Option Transaction) :=
  match d.skip reads id with
  | (d, .error err) => (d, .error err)
  | (d, .ok true) => (d, .ok none)
  | (d, .ok false) =>
    match decode d with
    | .error err => (d, .error err)
    | .ok change => ((d.append change).1, (d.append change).2.map fun _ => none)

/-- Records one pgoutput message; returns a transaction only at a COMMIT. -/
def consume (d : Decoder) (reads : Option Reads) :
    Message → Decoder × Except GoError (Option Transaction)
  | .relation m => (d.check reads m.relationID (newRelationInfo m), .ok none)
  | .begin xid commitTime =>
    match d.pending with
    | some _ => (d, .error (.sentinel .transactionInProgress))
    | none =>
      ({ d with
        pending := some []
        pendingXid := xid
        pendingCommitTime := commitTime
        pendingBytes := 0 }, .ok none)
  | .insert m => d.consumeRow reads m.relationID (·.insert m)
  | .update m => d.consumeRow reads m.relationID (·.update m)
  | .delete m => d.consumeRow reads m.relationID (·.delete m)
  | .commit commitLSN transactionEndLSN =>
    match d.pending with
    | none => (d, .error (.sentinel .noTransaction))
    | some changes =>
      ({ d with events := [], pending := none, pendingBytes := 0 },
        .ok (some {
          cursor := ⟨"", transactionEndLSN⟩
          changes := changes
          commitTime := d.pendingCommitTime
          incompatible := d.events
          commitLSN := commitLSN
          xid := d.pendingXid }))
  | .type | .origin => (d, .ok none)
  | .other typeText =>
    (d, .error (errorf .unsupportedPGOutputMessage (": " ++ typeText)))

end Decoder

end Watchd.Cdc
