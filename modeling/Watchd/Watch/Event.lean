import Watchd.Cdc.Types

/-!
# The events of a watch stream

`Row`, `Batch` and what a watch sends, as package `watch` declares them.
-/

namespace Watchd.Watch

open Watchd.Cdc

/-- The identity of a `*Memo`. -/
abbrev MemoId := Nat

/-- Why a watch cannot continue from where it is.  `unset` is the zero value a watcher holds until
the hub ends it. -/
inductive ResyncReason
  | unset
  | cursorUnavailable
  | slowWatcher
  | snapshotWindowClosed
  | sourceStopped
  | schemaChanged
  deriving DecidableEq, Repr

/-- The part of one committed transaction that belongs to a watcher. -/
structure Batch where
  cursor : Cursor
  commitTime : Time
  changes : List Change
  memo : Option MemoId := none
  deriving DecidableEq

/-- A snapshot row: text, or `none` for SQL NULL, by column name. -/
abbrev Row := Finmap fun _ : String => Option Text

/-- What a watch sends. -/
inductive Event
  | snapshotBegin
  | snapshotRows (rows : List Row)
  | snapshotEnd
  | batch (b : Batch)
  | progress (cursor : Cursor)
  | resync (reason : ResyncReason)
  deriving DecidableEq

/-- A batch without its memo, which only says how its encoding is shared. -/
def Batch.bare (b : Batch) : Batch := { b with memo := none }

/-- The batch an event carries, without its memo. -/
def Event.batch? : Event → Option Batch
  | .batch b => some b.bare
  | _ => none

/-- The batches among events, in order. -/
def batchesOf (events : List Event) : List Batch := events.filterMap Event.batch?

@[simp] theorem batchesOf_nil : batchesOf [] = [] := rfl

@[simp] theorem batchesOf_append (xs ys : List Event) :
    batchesOf (xs ++ ys) = batchesOf xs ++ batchesOf ys :=
  List.filterMap_append

@[simp] theorem batchesOf_singleton_batch (b : Batch) :
    batchesOf [.batch b] = [b.bare] := rfl

/-- The snapshot rows among events, in order. -/
def rowsOf (events : List Event) : List Row :=
  events.flatMap fun
    | .snapshotRows rows => rows
    | _ => []

@[simp] theorem rowsOf_append (xs ys : List Event) : rowsOf (xs ++ ys) = rowsOf xs ++ rowsOf ys :=
  List.flatMap_append

end Watchd.Watch
