import Watchd.Cdc.Reader
import Watchd.Cdc.Scan
import Watchd.Cdc.Visibility
import Watchd.Lib.Dialogue

/-!
# The reader's sessions with PostgreSQL

`Bootstrap`, `Snapshot`, `requireSlot`, `slotExists` and the terminal action of the
retention policy are sequences of queries and commands on connections they open
and close.  Here they are programs that make these calls, in the order of the
source and with its error paths; what the server answers is the environment's.
-/

namespace Watchd.Cdc

open Watchd.Lib

/-! ## Errors of a session -/

/-- `errors.Is(err, target)` for any target. -/
def GoError.isErr (err target : GoError) : Bool :=
  err = target ||
    match err with
    | .wrap _ inner _ => inner.isErr target
    | .wrapBoth first second => first.isErr target || second.isErr target
    | .classified kind _ _ => kind.isErr target
    | .sentinel _ | .new _ => false

/-- `ErrDatabaseURLRequired`. -/
def errDatabaseURLRequired : GoError := .new "cdc: database URL is required"

/-- `ErrSourceUnavailable`. -/
def errSourceUnavailable : GoError := .new "cdc: PostgreSQL source is unavailable"

/-- `ErrSnapshotSinkRequired`. -/
def errSnapshotSinkRequired : GoError := .new "cdc: snapshot row sink is required"

/-- What a connection attempt, a query or a command fails with: an error of the server, with the
text of the whole, or anything else. -/
inductive Failure
  | pg (sqlState message text : String)
  | other (err : GoError)
  deriving DecidableEq

/-- The text of the error. -/
def Failure.text : Failure → String
  | .pg _ _ text => text
  | .other err => err.text

/-- A server error is classified by its SQLSTATE, any other is returned as it is. -/
def classifyPostgresError : Failure → GoError
  | .pg sqlState message _ => classifySQLState sqlState message
  | .other err => err

/-- The error of a failed connect: what the caller can act on is kept, the rest means that the
source is unavailable. -/
def classifyConnectionError (failure : Failure) : GoError :=
  let unavailable := .wrap "" errSourceUnavailable (": " ++ failure.text)
  match failure with
  | .other err =>
    if err.is .invalidDatabaseURL ∨ err.isErr errDatabaseURLRequired then err
    else if err.is .insufficientPrivileges then err
    else unavailable
  | .pg sqlState message _ =>
    let classified := classifySQLState sqlState message
    if classified.is .insufficientPrivileges then classified else unavailable

/-- The server reports that the object exists. -/
def isDuplicateObject : Failure → Bool
  | .pg sqlState _ _ => sqlState = "42710"
  | .other _ => false

/-! ## Calls -/

/-- The two kinds of connections. -/
inductive ConnKind
  | replication
  | management
  deriving DecidableEq

/-- What a publication publishes. -/
structure PublicationFlags where
  publishesInsert : Bool
  publishesUpdate : Bool
  publishesDelete : Bool
  publishesTruncate : Bool
  deriving DecidableEq

/-- A row of `pg_replication_slots`. -/
structure SlotState where
  slotType : String
  plugin : String
  active : Bool
  resumeLSN : String
  restartLSN : String
  deriving DecidableEq

/-- What a session asks of its surroundings; connections are numbers. -/
inductive Call
  | connect (kind : ConnKind)
  | close (conn : Nat)
  /-- the caller's context is done -/
  | ctxDone
  /-- `r.wait` -/
  | wait
  | publication (conn : Nat)
  /-- does the table exist, and has it the scope column -/
  | projectionTable (conn : Nat)
  | primaryKey (conn : Nat)
  | published (conn : Nat)
  /-- the catalog as the queries of `projectionShape` see it -/
  | shape (conn : Nat)
  /-- `shapes.record` -/
  | record (shape : RelationShape)
  | slot (conn : Nat)
  /-- `max_slot_wal_keep_size`: its setting and unit -/
  | keepSize (conn : Nat)
  | createSlot (conn : Nat)
  | currentWALInsertLSN (conn : Nat)
  | beginTx (conn : Nat)
  | setSnapshot (conn : Nat) (name : String)
  | currentSnapshot (conn : Nat)
  /-- the queries of `scanScopedRows`, as the transaction answers them -/
  | scan (conn : Nat)
  /-- the row sink was given these batches -/
  | deliver (batches : List (List ScannedRow))
  | commitTx (conn : Nat)
  | rollbackTx (conn : Nat)
  | startReplication (conn : Nat) (startLSN : Nat)
  /-- `DROP_REPLICATION_SLOT`, on a replication connection -/
  | dropReplicationSlot (conn : Nat)
  /-- `pg_drop_replication_slot`, as SQL -/
  | pgDropReplicationSlot (conn : Nat)
  /-- `Bootstrap` leaves its stream to `Run` -/
  | handOver (conn : Nat) (startLSN : Nat)
  /-- a loop that does not end -/
  | diverge

/-- What each call is answered with. -/
abbrev Answer : Call → Type
  | .connect _ => Except Failure Nat
  | .ctxDone => Bool
  | .wait => Option GoError
  | .publication _ => Except Failure (Option PublicationFlags)
  | .projectionTable _ => Except Failure (Bool × Bool)
  | .primaryKey _ => Except Failure (List String)
  | .published _ => Except Failure Bool
  | .shape _ => (ShapeQuery → Option GoError) × Catalog
  | .slot _ => Except Failure (Option SlotState)
  | .keepSize _ => Except Failure (String × String)
  | .createSlot _ => Except Failure (String × String)
  | .currentWALInsertLSN _ | .currentSnapshot _ => Except Failure String
  | .scan _ => Tx
  | .beginTx _ | .setSnapshot _ _ | .commitTx _ | .startReplication _ _ => Except Failure Unit
  | .dropReplicationSlot _ | .pgDropReplicationSlot _ => Option Failure
  | .diverge => Empty
  | .close _ | .record _ | .deliver _ | .rollbackTx _ | .handOver _ _ => Unit

/-- A session with the server: calls, and an error that ends it. -/
abbrev Session := ExceptT GoError (Dialogue Call Answer)

namespace Session

/-- One call. -/
def call (c : Call) : Session (Answer c) := query c

/-- A call whose error is classified. -/
def classified {α : Type} (answer : Except Failure α) : Session α :=
  match answer with
  | .ok a => return a
  | .error failure => throw (classifyPostgresError failure)

/-! ## Connections -/

/-- `connectReplication` and `connectManagementWithTimeout`. -/
def connect (kind : ConnKind) : Session Nat := do
  match ← call (.connect kind) with
  | .ok conn => return conn
  | .error failure =>
    if ← call .ctxDone then throw Reader.ctxErr
    else throw (classifyConnectionError failure)

/-- A management connection, closed when `body` is done. -/
def withManagement {α : Type} (body : Nat → Session α) : Session α := do
  let management ← connect .management
  deferring (body management) fun result => do
    Dialogue.ask (Call.close management)
    return result

/-! ## Validation against the source -/

variable (config : FullReaderConfig)

/-- The publication exists and publishes rows, but no TRUNCATE. -/
def validatePublication (conn : Nat) : Session Unit := do
  match ← classified (← call (.publication conn)) with
  | none =>
    throw (errorf .invalidReaderConfig
      (": publication " ++ quote config.publicationName ++ " does not exist"))
  | some flags =>
    if flags.publishesTruncate then
      throw (errorf .invalidReaderConfig (": publication " ++ quote config.publicationName ++
        " publishes TRUNCATE, which v0 does not support"))
    if !flags.publishesInsert || !flags.publishesUpdate || !flags.publishesDelete then
      throw (errorf .invalidReaderConfig (": publication " ++ quote config.publicationName ++
        " must publish INSERT, UPDATE, and DELETE"))

/-- The primary key the catalog has for the table. -/
def projectionPrimaryKey (conn : Nat) (spec : ProjectionSpec) : Session (List String) := do
  let primaryKey ← classified (← call (.primaryKey conn))
  if primaryKey.length = 0 then
    throw (errorf .invalidReaderConfig
      (": projection table " ++ spec.sanitized ++ " has no primary key"))
  return primaryKey

/-- The same strings in the same order. -/
def sameStrings (left right : List String) : Bool :=
  left.length = right.length && (left.zip right).all fun p => p.1 = p.2

/-- The quoted name of a spec's table. -/
def quotedTable (spec : ProjectionSpec) : String := quote spec.schema ++ "." ++ quote spec.table

/-- The table, its scope column, its primary key and the publication agree with the spec. -/
def validateProjectionSpec (conn : Nat) (spec : ProjectionSpec) : Session Unit := do
  let (tableExists, scopeColumnExists) ← classified (← call (.projectionTable conn))
  if !tableExists then
    throw (errorf .invalidReaderConfig
      (": projection table " ++ quotedTable spec ++ " does not exist"))
  if !scopeColumnExists then
    throw (errorf .invalidReaderConfig (": projection table " ++ quotedTable spec ++
      " has no scope column " ++ quote spec.scopeColumn))
  let primaryKey ← projectionPrimaryKey conn spec
  if !sameStrings primaryKey spec.primaryKey then
    throw (errorf .invalidReaderConfig (": projection table " ++ quotedTable spec ++
      " primary key does not match configured primary key"))
  let published ← classified (← call (.published conn))
  if !published then
    throw (errorf .invalidReaderConfig (": publication " ++ quote config.publicationName ++
      " does not include projection table " ++ quotedTable spec))
  let (fails, catalog) ← call (.shape conn)
  let shape ← liftExcept (projectionShape fails catalog spec)
  call (.record shape)
where
  liftExcept {α : Type} (result : Except GoError α) : Session α :=
    match result with
    | .ok a => return a
    | .error err => throw err

/-- The checks of a spec that need no connection. -/
def validateSourceProjectionSpec (spec : ProjectionSpec) : Except GoError Unit := do
  validateProjectionSpecConfig spec
  if spec.sourceID ≠ config.sourceID then
    .error (errorf .invalidReaderConfig (": projection source " ++ quote spec.sourceID ++
      " does not match reader source " ++ quote config.sourceID))

/-! ## The slot -/

/-- The reader's slot, if the server has it. -/
def lookupSlot (conn : Nat) : Session (Option SlotState) := do
  classified (← call (.slot conn))

/-- The slot is one that a stream can resume from now. -/
def validateSlot (slot : SlotState) : Except GoError Unit :=
  if slot.slotType ≠ "logical" ∨ slot.plugin ≠ "pgoutput" ∨ slot.resumeLSN = "" then
    .error (.sentinel .slotInvalidated)
  else if slot.active then .error (.classified (.sentinel .slotInUse) true "")
  else .ok ()

variable (parseLSN : String → Option Nat)

/-- `parseLSN`, over `pglogrepl.ParseLSN`. -/
def slotLSN (value : String) : Session Nat :=
  match parseLSN value with
  | none => throw (.sentinel .slotInvalidated)
  | some lsn => return lsn

/-- Where the slot resumes, once the publication and the slot have been checked. -/
def requireSlot : Session Nat :=
  withManagement fun management => do
    validatePublication config management
    match ← lookupSlot management with
    | none => throw (.sentinel .slotInvalidated)
    | some slot =>
      match validateSlot slot with
      | .error err => throw err
      | .ok () => slotLSN parseLSN slot.resumeLSN

/-- Whether there is a slot of the right kind, in use or not. -/
def slotExists : Session Bool :=
  withManagement fun management => do
    validatePublication config management
    match ← lookupSlot management with
    | none => return false
    | some slot =>
      if slot.slotType ≠ "logical" ∨ slot.plugin ≠ "pgoutput" then
        throw (.sentinel .slotInvalidated)
      return true

/-- The loop of `dropSlotForBudget`; a slot that is still active after `turns` of them is tried
again. -/
def dropActive (management : Nat) : Nat → Session Unit
  | 0 => do
    let never ← call .diverge
    return never.elim
  | turns + 1 => do
    match ← call (.pgDropReplicationSlot management) with
    | none => return ()
    | some (.pg sqlState message text) =>
      if sqlState = "42704" then return ()
      else if sqlState = "55006" then
        match ← call .wait with
        | some err => throw (.wrap "" err (": slot " ++ config.slotName ++ " is still active"))
        | none => dropActive management turns
      else throw (classifyPostgresError (.pg sqlState message text))
    | some (.other err) => throw err

/-- Drops the slot for the budget, waiting for the stream that still uses it. -/
def dropSlotForBudget (turns : Nat) : Session Unit :=
  withManagement fun management => dropActive config management turns

/-! ## Reading a snapshot -/

/-- A digit of an upper-case hex number. -/
def hexDigit (c : Char) : Bool := ('0' ≤ c ∧ c ≤ '9') ∨ ('A' ≤ c ∧ c ≤ 'F')

/-- `^[0-9A-F]+(-[0-9A-F]+)+$` -/
def exportedSnapshotName (name : String) : Bool :=
  let parts := Decimal.split name '-'
  2 ≤ parts.length && parts.all fun part => part ≠ "" && part.toList.all hexDigit

/-- The transaction adopts the snapshot that another session exported, if there is one. -/
def adoptSnapshot (conn : Nat) (importSnapshot : String) : Session Unit :=
  if importSnapshot = "" then return ()
  else if !exportedSnapshotName importSnapshot then
    throw (errorf .postgresServer ": invalid exported snapshot name")
  else do
    classified (← call (.setSnapshot conn importSnapshot))

/-- The snapshot that a read at `cursor` with this visibility is. -/
def newSnapshot (sourceID : String) (cursor : Nat) (visibility : Visibility) : Snapshot :=
  ⟨sourceID, ⟨sourceID, cursor⟩, some visibility⟩

section Reading

variable (spec : ProjectionSpec) (scope : Text) (sink : SnapshotRowSink) (fuel : Nat)

/-- The scan of the scope in an open transaction. -/
def scanScope (conn : Nat) : Session Unit := do
  let tx ← call (.scan conn)
  match scanScopedRows tx spec scope config.snapshotBatchRows.toNat sink fuel with
  | none =>
    let never ← call .diverge
    return never.elim
  | some (batches, result) =>
    call (.deliver batches)
    match result with
    | .error err => throw err
    | .ok () => return ()

/-- The transaction of `readSnapshot`, up to its commit. -/
def readInTx (conn : Nat) (importSnapshot : String) : Session Visibility := do
  adoptSnapshot conn importSnapshot
  let text ← classified (← call (.currentSnapshot conn))
  match parseVisibility text with
  | .error err => throw err
  | .ok visibility =>
    scanScope config spec scope sink fuel conn
    classified (← call (.commitTx conn))
    return visibility

/-- Reads the scope in a repeatable-read transaction, which is rolled back at the end. -/
def readSnapshot (conn : Nat) (importSnapshot : String) : Session Visibility := do
  classified (← call (.beginTx conn))
  deferring (readInTx config spec scope sink fuel conn importSnapshot) fun result => do
    Dialogue.ask (Call.rollbackTx conn)
    return result

/-- The slot still holds the WAL from the snapshot's position on. -/
def checkReplayWindow (conn : Nat) (cursor : Nat) : Session Unit := do
  match ← lookupSlot conn with
  | none => throw (.sentinel .slotNotFound)
  | some slot =>
    let restartLSN ← slotLSN parseLSN slot.restartLSN
    if cursor < restartLSN then throw (.sentinel .snapshotWindowClosed)

/-- `Reader.Snapshot`, past its check of the sink. -/
def snapshotWith : Session Snapshot := do
  match validateSourceProjectionSpec config spec with
  | .error err => throw err
  | .ok () =>
    withManagement fun management => do
      validatePublication config management
      validateProjectionSpec config management spec
      match ← lookupSlot management with
      | none => throw (.sentinel .slotNotFound)
      | some slot =>
        if slot.slotType ≠ "logical" ∨ slot.plugin ≠ "pgoutput" then
          throw (.sentinel .slotInvalidated)
        -- the position is read before the snapshot is fixed
        let cursorText ← classified (← call (.currentWALInsertLSN management))
        match parseLSN cursorText with
        | none => throw (errorf .postgresServer ": invalid snapshot cursor")
        | some cursor =>
          let visibility ← readSnapshot config spec scope sink fuel management ""
          checkReplayWindow parseLSN management cursor
          return newSnapshot spec.sourceID cursor visibility

/-! ## Bootstrap -/

/-- Creates the slot, unless there is one; on failure whatever was created is dropped. -/
def createBootstrapSlot (stream management : Nat) : Session (String × String) := do
  match ← lookupSlot management with
  | some _ => throw (.sentinel .bootstrapSlotExists)
  | none =>
    match ← call (.createSlot stream) with
    | .ok slot => return slot
    | .error failure =>
      if isDuplicateObject failure then throw (.sentinel .bootstrapSlotExists)
      else throw (classifyPostgresError failure)

/-- `dropSlot`: the error of cleaning up, if there is one. -/
def dropSlot (stream : Nat) : Dialogue Call Answer (Option GoError) := do
  -- a slot that is in use cannot be dropped
  Dialogue.ask (Call.close stream)
  match ← Dialogue.ask (Call.connect .replication) with
  | .error failure => return some (classifyConnectionError failure)
  | .ok cleanup =>
    let failure ← Dialogue.ask (Call.dropReplicationSlot cleanup)
    Dialogue.ask (Call.close cleanup)
    match failure with
    | none => return none
    | some (.pg sqlState message text) =>
      if sqlState = "42704" then return none
      else return some (classifyPostgresError (.pg sqlState message text))
    | some (.other err) => return some err

/-- The error of a bootstrap whose slot could not be dropped again. -/
def cleanupFailed (err cleanupErr : GoError) : GoError :=
  .wrap "" err ("; clean up bootstrap replication slot: " ++ cleanupErr.text)

/-- `Bootstrap` once its slot exists. -/
def readFromSlot (stream management : Nat) (slot : String × String) : Session Snapshot :=
  let body : Session Snapshot := do
    match parseLSN slot.1 with
    | none => throw (errorf .postgresServer ": invalid slot consistent point")
    | some cursor =>
      let visibility ← readSnapshot config spec scope sink fuel management slot.2
      classified (← call (.startReplication stream cursor))
      call (.handOver stream cursor)
      return newSnapshot spec.sourceID cursor visibility
  deferring body fun
    | .ok snapshot => return .ok snapshot
    | .error err => do
      match ← dropSlot stream with
      | none => return .error err
      | some cleanupErr => return .error (cleanupFailed err cleanupErr)

/-- `Reader.Bootstrap`, past its check of the sink. -/
def bootstrapWith : Session Snapshot := do
  match validateSourceProjectionSpec config spec with
  | .error err => throw err
  | .ok () =>
    let stream ← connect .replication
    let body : Session Snapshot :=
      withManagement fun management => do
        validatePublication config management
        validateProjectionSpec config management spec
        -- the budget is only compared and logged
        let _ ← call (.keepSize management)
        let slot ← createBootstrapSlot stream management
        readFromSlot config parseLSN spec scope sink fuel stream management slot
    -- the stream of a bootstrap that succeeds is handed over, any other is closed
    deferring body fun
      | .ok snapshot => return .ok snapshot
      | .error err => do
        Dialogue.ask (Call.close stream)
        return .error err

end Reading

/-- A call that needs a row sink. -/
def withSink (spec : ProjectionSpec) (scope : Text) (fuel : Nat)
    (body : ProjectionSpec → Text → SnapshotRowSink → Nat → Session Snapshot) :
    Option SnapshotRowSink → Session Snapshot
  | none => throw errSnapshotSinkRequired
  | some sink => body spec scope sink fuel

/-- `Reader.Snapshot`. -/
def snapshot (spec : ProjectionSpec) (scope : Text) (fuel : Nat)
    (sink : Option SnapshotRowSink) : Session Snapshot :=
  withSink spec scope fuel (snapshotWith config parseLSN) sink

/-- `Reader.Bootstrap`. -/
def bootstrap (spec : ProjectionSpec) (scope : Text) (fuel : Nat)
    (sink : Option SnapshotRowSink) : Session Snapshot :=
  withSink spec scope fuel (bootstrapWith config parseLSN) sink

end Session

end Watchd.Cdc
