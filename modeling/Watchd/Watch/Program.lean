import Watchd.Watch.Hub

/-!
# One Watch call as a program

`Phase` is where a Watch call stands, with the local variables it still needs;
`Phase.step` runs it up to the next point at which another goroutine can run in
between: every locked section, every send, every queue receive and every select
is a step of its own.  What the environment decides (whether a send fails, what
the snapshotter returns, which ready case a select takes) is the step's `Act`.
-/

namespace Watchd.Watch

open Watchd.Cdc

/-- A Watch request. -/
structure Request where
  projection : String
  scope : Text
  resumeCursor : String := ""
  deriving DecidableEq, Repr

/-- The closure `need` that `live` is called with. -/
inductive Need
  | after (cursor : Cursor)
  | notCovered (snapshot : Snapshot)
  deriving DecidableEq

/-- The watch has yet to send the transaction. -/
def Need.apply : Need → Transaction → Except GoError Bool
  | .after cursor, t => t.after cursor
  | .notCovered snapshot, t => (snapshot.covers t).map (!·)

/-- The batches of those transactions that pass `need`, in order. -/
def Watcher.backlog (w : Watcher) (need : Need) (ts : List Transaction) :
    Except GoError (List Batch) :=
  ts.foldlM (fun batches t => (need.apply t).map fun needed =>
    if needed then w.appendBatch batches t else batches) []

/-- The arguments of `live`. -/
structure LiveArgs where
  base : Cursor
  baseSafe : Bool
  need : Need
  deriving DecidableEq

/-- The variables `live` carries from one round to the next. -/
structure Round where
  first : Bool
  progressed : Cursor
  deriving DecidableEq

/-- Where a Watch call stands. -/
inductive Phase
  /-- before the check for a stopped hub -/
  | start
  /-- `resume`, before the lock -/
  | resume (cursor : Cursor)
  /-- `snapshot`, before the lock -/
  | snapshot
  /-- about to send SnapshotBegin -/
  | snapshotBegin (streamed : List Transaction)
  /-- the snapshotter is reading -/
  | reading (streamed : List Transaction)
  /-- before the check of the overflow channel -/
  | overflowCheck (streamed : List Transaction) (snapshot : Snapshot)
  /-- before the table is taken out of `stale` -/
  | clearStale (streamed : List Transaction) (snapshot : Snapshot)
  /-- before the replay floor is recorded -/
  | recordSnapshot (batches : List Batch) (snapshot : Snapshot)
  /-- about to send SnapshotEnd -/
  | snapshotEnd (batches : List Batch) (snapshot : Snapshot)
  /-- sending the batches kept from before registration, then `live` -/
  | backlog (batches : List Batch) (args : LiveArgs)
  /-- `live`: about to read the hub's position -/
  | position (args : LiveArgs) (round : Round)
  /-- `live`: about to receive from the queue -/
  | drain (args : LiveArgs) (round : Round) (position : Cursor) (tick : TickId)
  /-- `live`: about to send the batch of a received item -/
  | deliver (args : LiveArgs) (round : Round) (position : Cursor) (tick : TickId) (item : Queued)
  /-- `live`: the queue was empty, progress is due -/
  | progress (args : LiveArgs) (round : Round) (position : Cursor) (tick : TickId)
  /-- `live`: in the final select -/
  | select (args : LiveArgs) (progressed : Cursor) (tick : TickId)
  /-- about to send Resync and return, registered -/
  | resync (reason : ResyncReason)
  /-- about to send Resync and return, not registered -/
  | refuse (reason : ResyncReason)
  /-- the deferred `unregister` -/
  | unregister (result : Option GoError)
  | returned (result : Option GoError)
  deriving DecidableEq

/-- The cases of `live`'s final select. -/
inductive Case
  | ctxDone (err : GoError)
  | overflow
  | stopped
  | tick
  deriving DecidableEq

/-- What the environment decides about a step. -/
inductive Act
  /-- go on; a send succeeds -/
  | run
  /-- the send fails -/
  | fail (err : GoError)
  /-- the snapshotter hands over a page of rows, and sending it succeeds -/
  | rows (rows : List Row)
  /-- the snapshotter returns -/
  | read (result : Except GoError Snapshot)
  /-- the select takes this case -/
  | choose (case : Case)

/-- The outcome of a step. -/
structure Move where
  hub : Hub
  phase : Phase
  sent : Option Event := none

/-- A send: on success go on to `next`, on failure return the error through `failed`. -/
def sending (h : Hub) (event : Event) (next : Phase) (failed : Option GoError → Phase) :
    Act → Option Move
  | .run => some ⟨h, next, some event⟩
  | .fail err => some ⟨h, failed (some err), none⟩
  | _ => none

/-- Where a round of `live` starts: the hub's position, or `base` before anything was received, or
a safe `base` that is ahead. -/
def LiveArgs.startAt (args : LiveArgs) : Option Cursor → Cursor
  | none => args.base
  | some received => if args.baseSafe && later args.base received then args.base else received

/-- The batch a queued item is sent as. -/
def Queued.batch (item : Queued) : Batch :=
  ⟨item.transaction.cursor, item.transaction.commitTime, item.changes, item.memo⟩

/-- One step of the Watch call with watcher `id`; `closed` tells which ticks are closed. -/
def Phase.step (req : Request) (closed : TickId → Bool) (h : Hub) (id : WatcherId) :
    Phase → Act → Option Move
  | .start, .run =>
    if h.stopped then some ⟨h, .refuse .sourceStopped, none⟩
    else if req.resumeCursor ≠ "" then
      match parseCursor h.parseLSN h.sourceID req.resumeCursor with
      | .ok cursor => some ⟨h, .resume cursor, none⟩
      | .error err => some ⟨h, .returned (some err), none⟩
    else some ⟨h, .snapshot, none⟩
  | .resume cursor, .run =>
    if (h.registry.cell id).projection.table ∈ h.stale then
      some ⟨h, .refuse .schemaChanged, none⟩
    else if !h.window.replayableLocked cursor then some ⟨h, .refuse .cursorUnavailable, none⟩
    else
      match (h.registry.cell id).backlog (.after cursor) h.window.ring with
      | .error err => some ⟨h, .returned (some err), none⟩
      | .ok batches =>
        some ⟨{ h with registry := h.registry.registerLocked id },
          .backlog batches ⟨cursor, true, .after cursor⟩, none⟩
  | .snapshot, .run =>
    some ⟨{ h with registry := h.registry.registerLocked id },
      .snapshotBegin (h.window.ring.filter fun t =>
        ((h.registry.cell id).changesOf t).length > 0), none⟩
  | .snapshotBegin streamed, act =>
    sending h .snapshotBegin (.reading streamed) .unregister act
  | .reading streamed, .rows rows => some ⟨h, .reading streamed, some (.snapshotRows rows)⟩
  | .reading _, .read (.error err) =>
    if err.is .snapshotWindowClosed then some ⟨h, .resync .snapshotWindowClosed, none⟩
    else if err.is .sourceStopped then some ⟨h, .resync .sourceStopped, none⟩
    else some ⟨h, .unregister (some err), none⟩
  | .reading streamed, .read (.ok snap) => some ⟨h, .overflowCheck streamed snap, none⟩
  | .overflowCheck streamed snap, .run =>
    if (h.registry.cell id).overflow then some ⟨h, .resync (h.registry.cell id).reason, none⟩
    else some ⟨h, .clearStale streamed snap, none⟩
  | .clearStale streamed snap, .run =>
    let h := { h with stale := h.stale.erase (h.registry.cell id).projection.table }
    match (h.registry.cell id).backlog (.notCovered snap) streamed with
    | .error err => some ⟨h, .unregister (some err), none⟩
    | .ok batches => some ⟨h, .recordSnapshot batches snap, none⟩
  | .recordSnapshot batches snap, .run =>
    some ⟨{ h with window := h.window.recordSnapshotLocked snap.cursor },
      .snapshotEnd batches snap, none⟩
  | .snapshotEnd batches snap, act =>
    sending h .snapshotEnd (.backlog batches ⟨snap.cursor, false, .notCovered snap⟩)
      .unregister act
  | .backlog [] args, .run => some ⟨h, .position args ⟨true, .zero⟩, none⟩
  | .backlog (b :: batches) args, act =>
    sending h (.batch b) (.backlog batches args) .unregister act
  | .position args round, .run =>
    let (h, received, tick) := h.position
    some ⟨h, .drain args round (args.startAt received) tick, none⟩
  | .drain args round pos tick, .run =>
    match (h.registry.cell id).queue with
    | [] => some ⟨h, .progress args round pos tick, none⟩
    | item :: queue =>
      let h := { h with
        registry := h.registry.setCell id { h.registry.cell id with queue := queue } }
      match args.need.apply item.transaction with
      | .error err => some ⟨h, .unregister (some err), none⟩
      | .ok true => some ⟨h, .deliver args round pos tick item, none⟩
      | .ok false =>
        some ⟨h, .drain args round (raise item.transaction.cursor pos) tick, none⟩
  | .deliver args round pos tick item, act =>
    sending h (.batch item.batch)
      (.drain args round (raise item.transaction.cursor pos) tick) .unregister act
  | .progress args round pos tick, act =>
    if round.first || later pos round.progressed then
      sending h (.progress pos) (.select args pos tick) .unregister act
    else
      match act with
      | .run => some ⟨h, .select args round.progressed tick, none⟩
      | _ => none
  | .select args progressed tick, .choose case =>
    match case with
    | .ctxDone err => some ⟨h, .unregister (some err), none⟩
    | .overflow =>
      if (h.registry.cell id).overflow then some ⟨h, .resync (h.registry.cell id).reason, none⟩
      else none
    | .stopped => if h.stopped then some ⟨h, .resync .sourceStopped, none⟩ else none
    | .tick => if closed tick then some ⟨h, .position args ⟨false, progressed⟩, none⟩ else none
  | .resync reason, act => sending h (.resync reason) (.unregister none) .unregister act
  | .refuse reason, act => sending h (.resync reason) (.returned none) .returned act
  | .unregister result, .run =>
    some ⟨{ h with registry := h.registry.unregister id }, .returned result, none⟩
  | _, _ => none

end Watchd.Watch
