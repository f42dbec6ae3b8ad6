import Mathlib.Logic.Basic

/-!
# Error values

Go errors as `errors.Is` sees them: a package sentinel, a plain `errors.New`,
a `fmt.Errorf` that wraps one or two of these with `%w`, or an error classified
from a server's SQLSTATE.
-/

namespace Watchd.Cdc

/-- The sentinel errors the modelled functions return. -/
inductive Sentinel
  | transactionInProgress
  | noTransaction
  | unknownRelation
  | unsupportedPGOutputMessage
  | transactionTooLarge
  | transactionTooManyChanges
  | primaryKeyChangeUnsupported
  | unsupportedColumnEncoding
  | valueTooLarge
  | invalidReaderConfig
  | malformedReplicationData
  | unexpectedReplicationMessage
  | replicationEnded
  | sinkRejected
  | snapshotWindowClosed
  | sourceNotStarted
  | sourceAlreadyStarted
  | sourceStopped
  | bootstrapSlotExists
  | invalidCursor
  | invalidConfig
  | unknownProjection
  | invalidDatabaseURL
  | slotInvalidated
  | postgresServer
  | insufficientPrivileges
  | slotInUse
  | slotNotFound
  | retryExhausted
  | retainedWALBudgetExceeded
  deriving DecidableEq, Repr

/-- The texts of the `errors.New` values. -/
def Sentinel.text : Sentinel → String
  | .transactionInProgress => "cdc: received BEGIN while a transaction is pending"
  | .noTransaction => "cdc: received row change or COMMIT without a pending transaction"
  | .unknownRelation => "cdc: row change references unknown relation"
  | .unsupportedPGOutputMessage => "cdc: unsupported pgoutput message"
  | .transactionTooLarge => "cdc: in-flight transaction exceeds configured limit"
  | .transactionTooManyChanges => "cdc: in-flight transaction exceeds configured change limit"
  | .primaryKeyChangeUnsupported => "cdc: primary-key updates are not supported"
  | .unsupportedColumnEncoding =>
    "cdc: column value is not in the text/null/unchanged-toast wire encoding"
  | .valueTooLarge => "cdc: column value exceeds configured single-value size limit"
  | .invalidReaderConfig => "cdc: invalid reader configuration"
  | .malformedReplicationData => "cdc: malformed replication data"
  | .unexpectedReplicationMessage => "cdc: unexpected replication message"
  | .replicationEnded => "cdc: replication stream ended"
  | .sinkRejected => "cdc: transaction sink rejected committed batch"
  | .snapshotWindowClosed =>
    "cdc: snapshot cursor is outside the replication slot's replay window"
  | .sourceNotStarted => "cdc: source has not been started"
  | .sourceAlreadyStarted => "cdc: source has already been started"
  | .sourceStopped => "cdc: source has stopped"
  | .bootstrapSlotExists => "cdc: bootstrap requires a new replication slot"
  | .invalidCursor => "cdc: invalid cursor"
  | .invalidConfig => "watch: invalid hub configuration"
  | .unknownProjection => "watch: unknown projection"
  | .invalidDatabaseURL => "cdc: invalid PostgreSQL database URL"
  | .slotInvalidated => "cdc: replication slot cannot be resumed"
  | .postgresServer => "cdc: PostgreSQL rejected replication operation"
  | .insufficientPrivileges => "cdc: insufficient PostgreSQL privileges"
  | .slotInUse => "cdc: replication slot is already active"
  | .slotNotFound => "cdc: replication slot does not exist"
  | .retryExhausted => "cdc: replication reconnect budget exhausted"
  | .retainedWALBudgetExceeded => "cdc: retained WAL reached the retention budget"

/-- A Go error value. -/
inductive GoError
  | sentinel (s : Sentinel)
  | new (text : String)
  | wrap (before : String) (inner : GoError) (after : String)
  | wrapBoth (first second : GoError)
  /-- a `*classifiedError`: a server's answer with its own verdict on retrying -/
  | classified (kind : GoError) (retryable : Bool) (sqlState : String)
  deriving DecidableEq, Repr

/-- `Error()`: the message of an error. -/
def GoError.text : GoError → String
  | .sentinel s => s.text
  | .new text => text
  | .wrap before inner after => before ++ inner.text ++ after
  | .wrapBoth first second => first.text ++ ": " ++ second.text
  | .classified kind _ sqlState =>
    if sqlState = "" then kind.text else kind.text ++ " (SQLSTATE " ++ sqlState ++ ")"

/-- `errors.Is(err, target)` for a sentinel target. -/
def GoError.is (target : Sentinel) : GoError → Bool
  | .sentinel s => s == target
  | .new _ => false
  | .wrap _ inner _ => inner.is target
  | .wrapBoth first second => first.is target || second.is target
  | .classified kind _ _ => kind.is target

/-- `fmt.Errorf("%w" + after, s)`. -/
def errorf (s : Sentinel) (after : String) : GoError :=
  .wrap "" (.sentinel s) after

/-- `strconv.IsPrint`, of a code point; those past Latin-1 are all taken to be printable. -/
def isPrint (n : Nat) : Bool := 0x20 ≤ n ∧ n < 0x7f ∨ 0xa1 ≤ n ∧ n ≠ 0xad

/-- One character of `%q`, between quotes with the given code point. -/
def quoteChar (delimiter : Nat) (c : Char) : String :=
  let n := c.toNat
  if n = delimiter ∨ n = 0x5c then "\\" ++ String.singleton c
  else if isPrint n then String.singleton c
  else match n with
    | 7 => "\\a"
    | 8 => "\\b"
    | 9 => "\\t"
    | 10 => "\\n"
    | 11 => "\\v"
    | 12 => "\\f"
    | 13 => "\\r"
    | n =>
      -- what is not printable is below U+0100
      let digits := String.ofList [Nat.digitChar (n / 16), Nat.digitChar (n % 16)]
      if n < 0x20 ∨ n = 0x7f then "\\x" ++ digits else "\\u00" ++ digits

/-- `%q` of a string, in double quotes. -/
def quote (s : String) : String :=
  "\"" ++ String.join (s.toList.map (quoteChar 0x22)) ++ "\""

/-- `%q` of a byte: the character in single quotes. -/
def quoteByte (b : UInt8) : String := "'" ++ quoteChar 0x27 (Char.ofNat b.toNat) ++ "'"

end Watchd.Cdc
