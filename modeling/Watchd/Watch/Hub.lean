import Mathlib.Logic.Function.Iterate
import Watchd.Watch.Event

/-!
# The hub

The state of `Hub` and the operations it performs under its lock.  The flat Go
struct is kept in four groups, each with the operations that touch only it: the
replay window (`Window`), the watchers and their route index (`Registry`),
`Accept`'s scratch space (`Scratch`), and the rest (`Hub`).

A `*watcher` is a `WatcherId`, and `Registry.cell` is the heap the pointers
point into.  A `*route` is a `RouteRef`: routes are only ever appended to a
table's list, so a table and a position in its list identify one.
-/

namespace Watchd.Watch

open Watchd.Cdc

/-- The identity of a `*watcher`. -/
abbrev WatcherId := Nat

/-- The identity of a tick channel; every channel made gets the next number. -/
abbrev TickId := Nat

/-- Whether `a` is after `b`. -/
def later (a b : Cursor) : Bool :=
  match a.compare b with
  | .ok .gt => true
  | _ => false

theorem later_iff {a b : Cursor} : later a b = true ↔ a.sourceID = b.sourceID ∧ b.lsn < a.lsn := by
  rw [← Cursor.compare_gt_iff]
  unfold later
  split <;> simp_all

/-- Moves `mark` up to `cursor` if that is later. -/
def raise (cursor mark : Cursor) : Cursor := if later cursor mark then cursor else mark

/-- A configured projection with its qualified table name. -/
structure Projection where
  spec : ProjectionSpec
  table : String
  deriving DecidableEq

/-- `t`'s changes to this projection within `scope`. -/
def Projection.changes (p : Projection) (scope : Text) (t : Transaction) : List Change :=
  t.changes.filter fun c => c.table = p.table ∧ c.keyAt p.spec.scopeColumn = scope

/-- A relevant transaction waiting for its watcher. -/
structure Queued where
  transaction : Transaction
  changes : List Change
  memo : Option MemoId
  deriving DecidableEq

/-- One Watch call's registration.  `overflow` says whether that channel is closed. -/
structure Watcher where
  projection : Projection
  scope : Text
  queue : List Queued := []
  overflow : Bool := false
  reason : ResyncReason := .unset
  deriving DecidableEq

/-- The changes of `t` that belong to the watcher. -/
def Watcher.changesOf (w : Watcher) (t : Transaction) : List Change :=
  w.projection.changes w.scope t

/-- `t`'s part for the watcher as a batch. -/
def Watcher.batchOf (w : Watcher) (t : Transaction) : Batch :=
  { cursor := t.cursor, commitTime := t.commitTime, changes := w.changesOf t }

/-- Appends `t`'s part for the watcher to `batches`, if it has one. -/
def Watcher.appendBatch (w : Watcher) (batches : List Batch) (t : Transaction) : List Batch :=
  if (w.changesOf t).length > 0 then batches ++ [w.batchOf t] else batches

/-! ## The replay window -/

/-- The replay ring and the positions it is judged by. -/
structure Window where
  maxReplay : Nat
  /-- the most recent transactions, oldest first -/
  ring : List Transaction := []
  /-- the cursor of the newest accepted transaction (`received`, `hasReceived`) -/
  received : Option Cursor := none
  /-- the oldest resume cursor the ring can still serve (`floor`, `hasFloor`) -/
  floor : Option Cursor := none
  /-- `lastEvicted`, `hasEvicted` -/
  lastEvicted : Option Cursor := none

namespace Window

/-- Drops the oldest ring transaction; the floor moves past it. -/
def evictLocked (w : Window) : Window :=
  match w.ring with
  | [] => w
  | evicted :: ring =>
    { w with
      ring := ring
      lastEvicted := some evicted.cursor
      floor := w.floor.map (raise evicted.cursor) }

/-- Records a new transaction, then evicts while the ring is longer than `maxReplay`: each eviction
takes one transaction, so the loop runs once per transaction over the bound. -/
def append (w : Window) (t : Transaction) : Window :=
  evictLocked^[w.ring.length + 1 - w.maxReplay]
    { w with received := some t.cursor, ring := w.ring ++ [t] }

/-- Whether the ring holds every transaction a watcher resuming from `cursor` still needs. -/
def replayableLocked (w : Window) (cursor : Cursor) : Bool :=
  match w.floor with
  | none => false
  | some floor =>
    match cursor.compare floor with
    | .ok order => order != .lt
    | .error _ => false

/-- Sets the replay floor at the first snapshot. -/
def recordSnapshotLocked (w : Window) (cursor : Cursor) : Window :=
  match w.floor with
  | some _ => w
  | none =>
    match w.lastEvicted with
    | none => { w with floor := some cursor }
    | some evicted => { w with floor := some (raise evicted cursor) }

/-- The window's part of `invalidateLocked`: the ring cannot replay across `cursor`. -/
def invalidate (w : Window) (cursor : Cursor) : Window :=
  { w with
    floor := w.floor.map (raise cursor)
    lastEvicted := some ((w.lastEvicted.map (raise cursor)).getD cursor) }

end Window

/-! ## Watchers and routes -/

/-- The watchers of one table whose projections share a scope column, by scope value. -/
structure Route where
  scopeColumn : String
  scopes : Finmap fun _ : Text => List WatcherId

/-- `r.scopes[scope]`; a missing entry reads as the empty list. -/
def Route.at (r : Route) (scope : Text) : List WatcherId := (r.scopes.lookup scope).getD []

/-- The identity of a `*route`: its table and its position in that table's list. -/
structure RouteRef where
  table : String
  index : Nat
  deriving DecidableEq

/-- The registered watchers, by table and scope. -/
structure Registry where
  queueSize : Nat
  watchers : List WatcherId := []
  routes : Finmap fun _ : String => List Route := ∅
  cell : WatcherId → Watcher

namespace Registry

/-- `h.routes[table]`. -/
def routesOf (r : Registry) (table : String) : List Route := (r.routes.lookup table).getD []

/-- The position of the route of `p`'s table and scope column, made if there is none yet. -/
def routeLocked (r : Registry) (p : Projection) : Registry × Nat :=
  match (r.routesOf p.table).findIdx? (fun route => route.scopeColumn = p.spec.scopeColumn) with
  | some i => (r, i)
  | none =>
    ({ r with routes :=
        r.routes.insert p.table (r.routesOf p.table ++ [⟨p.spec.scopeColumn, ∅⟩]) },
      (r.routesOf p.table).length)

/-- Updates the scopes of `p`'s route in place. -/
def updateRoute (r : Registry) (p : Projection) (f : Route → Route) : Registry :=
  let (r, i) := r.routeLocked p
  { r with routes := r.routes.insert p.table ((r.routesOf p.table).modify i f) }

/-- Adds watcher `w` to the watchers `Accept` delivers to. -/
def registerLocked (r : Registry) (w : WatcherId) : Registry :=
  let scope := (r.cell w).scope
  updateRoute { r with watchers := r.watchers.insert w } (r.cell w).projection fun route =>
    { route with scopes := route.scopes.insert scope (route.at scope ++ [w]) }

/-- Takes watcher `w` out of a route. -/
def dropFrom (w : WatcherId) (scope : Text) (route : Route) : Route :=
  let remaining := (route.at scope).filter (· ≠ w)
  if remaining.length = 0 then { route with scopes := route.scopes.erase scope }
  else { route with scopes := route.scopes.insert scope remaining }

/-- Removes `w` and reports whether it was still registered. -/
def removeLocked (r : Registry) (w : WatcherId) : Registry × Bool :=
  if w ∈ r.watchers then
    (updateRoute { r with watchers := r.watchers.erase w } (r.cell w).projection
      (dropFrom w (r.cell w).scope), true)
  else (r, false)

/-- Overwrites a watcher. -/
def setCell (r : Registry) (w : WatcherId) (c : Watcher) : Registry :=
  { r with cell := Function.update r.cell w c }

/-- Removes `w` and ends its watch: the reason is set, then the overflow channel closed. -/
def endLocked (r : Registry) (w : WatcherId) (reason : ResyncReason) : Registry :=
  match r.removeLocked w with
  | (r, true) => r.setCell w { r.cell w with reason := reason, overflow := true }
  | (r, false) => r

/-- A watcher whose queue is full is ended. -/
def dropLocked (r : Registry) (w : WatcherId) : Registry := r.endLocked w .slowWatcher

/-- A watcher leaves, if it is still registered. -/
def unregister (r : Registry) (w : WatcherId) : Registry := (r.removeLocked w).1

/-- The registry's part of `invalidateLocked`: every watcher of `table` is ended. -/
def endTable (r : Registry) (table : String) : Registry :=
  r.watchers.foldl
    (fun r w => if (r.cell w).projection.table = table then r.endLocked w .schemaChanged else r) r

/-- Puts an item on `w`'s queue, or drops `w` if the queue is full. -/
def offer (r : Registry) (item : Queued) (w : WatcherId) : Registry :=
  if (r.cell w).queue.length < r.queueSize then
    r.setCell w { r.cell w with queue := (r.cell w).queue ++ [item] }
  else r.dropLocked w

end Registry

/-! ## `Accept`'s scratch space -/

/-- One scope's part of a transaction, shared by every watcher of that scope. -/
structure Delivery where
  watchers : List WatcherId
  changes : List Change := []

/-- The watchers that get the same changes. -/
structure DeliveryKey where
  route : RouteRef
  scope : Text
  deriving DecidableEq

/-- The buffers `Accept` reuses. -/
structure Scratch where
  deliveries : List Delivery := []
  deliveryKeys : List DeliveryKey := []
  deliveryIndex : Finmap fun _ : DeliveryKey => Nat := ∅

/-- How many scopes a transaction must touch before their deliveries are found by hashing. -/
def indexedDeliveries : Nat := 8

namespace Scratch

/-- The position of `key`: a scan from the newest key, or the index once there are many. -/
def find (s : Scratch) (key : DeliveryKey) : Option Nat :=
  if s.deliveryKeys.length ≤ indexedDeliveries then
    (List.range s.deliveryKeys.length).reverse.find? fun i => s.deliveryKeys[i]? = some key
  else s.deliveryIndex.lookup key

/-- The index after `key` has been appended as the last of `keys`: filled when it is first needed,
then kept up. -/
def reindex (index : Finmap fun _ : DeliveryKey => Nat) (keys : List DeliveryKey)
    (key : DeliveryKey) : Finmap fun _ : DeliveryKey => Nat :=
  if keys.length = indexedDeliveries + 1 then
    keys.zipIdx.foldl (fun index ki => index.insert ki.1 ki.2) index
  else if keys.length > indexedDeliveries + 1 then index.insert key (keys.length - 1)
  else index

/-- `key`'s delivery in the transaction being accepted, started for `watchers` if it has none. -/
def deliveryLocked (s : Scratch) (key : DeliveryKey) (watchers : List WatcherId) :
    Scratch × Nat :=
  match s.find key with
  | some i => (s, i)
  | none =>
    ({ deliveries := s.deliveries ++ [{ watchers := watchers }]
       deliveryKeys := s.deliveryKeys ++ [key]
       deliveryIndex := reindex s.deliveryIndex (s.deliveryKeys ++ [key]) key },
      s.deliveries.length)

/-- Adds a change to `key`'s delivery. -/
def addChange (s : Scratch) (key : DeliveryKey) (watchers : List WatcherId) (c : Change) :
    Scratch :=
  let (s, i) := s.deliveryLocked key watchers
  { s with deliveries := s.deliveries.modify i fun d => { d with changes := d.changes ++ [c] } }

/-- Routes one change: it joins the delivery of every route of its table that has watchers for the
change's scope. -/
def routeChange (r : Registry) (s : Scratch) (c : Change) : Scratch :=
  (r.routesOf c.table).zipIdx.foldl
    (fun s ri =>
      let scope := c.keyAt ri.1.scopeColumn
      let watchers := ri.1.at scope
      if watchers.length = 0 then s else s.addChange ⟨⟨c.table, ri.2⟩, scope⟩ watchers c) s

/-- Routes every change of `t`, in order. -/
def collect (r : Registry) (s : Scratch) (t : Transaction) : Scratch :=
  t.changes.foldl (routeChange r) s

end Scratch

/-! ## The hub -/

/-- The hub, as its lock protects it. -/
structure Hub where
  sourceID : String
  projections : Finmap fun _ : String => Projection
  /-- `pglogrepl.ParseLSN` -/
  parseLSN : String → Option Nat
  window : Window
  registry : Registry
  stale : Finset String := ∅
  tick : TickId := 0
  tickTaken : Bool := false
  scratch : Scratch := {}
  /-- how many memos have been made -/
  memos : MemoId := 0
  stopped : Bool := false

/-- `Config`, with the projections in the order the map is ranged over. -/
structure Config where
  sourceID : String
  projections : List (String × ProjectionSpec)
  maxReplayTransactions : Int := 0
  watcherQueue : Int := 0

/-- The ring's size if none is given. -/
def defaultMaxReplayTransactions : Int := 10000

/-- The queues' size if none is given. -/
def defaultWatcherQueue : Int := 1024

/-- A watcher that no Watch call has made yet. -/
def Watcher.blank : Watcher := ⟨⟨⟨"", "", "", "", []⟩, ""⟩, [], [], false, .unset⟩

namespace Hub

/-- `New`, for a hub with a snapshotter. -/
def new (parseLSN : String → Option Nat) (cfg : Config) : Except GoError Hub :=
  if cfg.sourceID = "" ∨ cfg.projections.length = 0 then .error (.sentinel .invalidConfig)
  else
    let maxReplay :=
      if cfg.maxReplayTransactions = 0 then defaultMaxReplayTransactions
      else cfg.maxReplayTransactions
    let queue := if cfg.watcherQueue = 0 then defaultWatcherQueue else cfg.watcherQueue
    if maxReplay < 0 ∨ queue < 0 then .error (.sentinel .invalidConfig)
    else
      match cfg.projections.find? fun np => np.1 = "" ∨ np.2.sourceID ≠ cfg.sourceID with
      | some np =>
        .error (errorf .invalidConfig (": projection " ++ quote np.1 ++
          " must be named and belong to source " ++ quote cfg.sourceID))
      | none =>
        .ok {
          sourceID := cfg.sourceID
          projections := cfg.projections.foldl
            (fun ps np => ps.insert np.1 ⟨np.2, np.2.schema ++ "." ++ np.2.table⟩) ∅
          parseLSN := parseLSN
          window := { maxReplay := maxReplay.toNat }
          registry := { queueSize := queue.toNat, cell := fun _ => .blank } }

/-- Handles `table` changing shape incompatibly in the transaction ending at `cursor`. -/
def invalidateLocked (h : Hub) (table : String) (cursor : Cursor) : Hub :=
  { h with
    stale := insert table h.stale
    registry := h.registry.endTable table
    window := h.window.invalidate cursor }

/-- Hands one delivery to its watchers.  Watchers of one scope share a memo; a lone watcher has
nobody to share it with. -/
def deliver (t : Transaction) (h : Hub) (d : Delivery) : Hub :=
  let shared := d.watchers.length > 1
  let memo := if shared then some h.memos else none
  { h with
    memos := if shared then h.memos + 1 else h.memos
    registry := d.watchers.foldl (fun r w => r.offer ⟨t, d.changes, memo⟩ w) h.registry }

/-- Whether `t` is new to the hub: after a reconnect PostgreSQL may resend transactions. -/
def isNew (h : Hub) (t : Transaction) : Except GoError Bool :=
  match h.window.received with
  | none => .ok true
  | some received =>
    match t.cursor.compare received with
    | .ok order => .ok (order == .gt)
    | .error err => .error err

/-- What `Accept` does with a new transaction before it routes the changes. -/
def advance (h : Hub) (t : Transaction) : Hub :=
  t.incompatible.foldl (fun h i => h.invalidateLocked i.table t.cursor)
    { h with
      window := h.window.append t
      tick := if h.tickTaken then h.tick + 1 else h.tick
      tickTaken := false }

/-- `Accept` of a new transaction, up to the release of the lock. -/
def acceptNew (h : Hub) (t : Transaction) : Hub :=
  let h := h.advance t
  let scratch := h.scratch.collect h.registry t
  { scratch.deliveries.foldl (deliver t) h with scratch := {} }

/-- `Accept`, up to the release of the lock.  The second component is the tick channel it closes
once the lock is free. -/
def accept (h : Hub) (t : Transaction) : Except GoError (Hub × Option TickId) :=
  match h.isNew t with
  | .error err => .error err
  | .ok false => .ok (h, none)
  | .ok true => .ok (h.acceptNew t, if h.tickTaken then some h.tick else none)

/-- The newest accepted cursor, if any, and the tick that closes at the next one. -/
def position (h : Hub) : Hub × Option Cursor × TickId :=
  ({ h with tickTaken := true }, h.window.received, h.tick)

end Hub

end Watchd.Watch
