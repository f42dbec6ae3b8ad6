import Watchd.Watch.Accept

/-!
# The turns of `Accept`

Under its lock `Accept` touches the watchers one at a time: a turn of the
invalidation loop may end one, a turn of the delivery loop puts an item on a
queue or ends its watcher.  `Hub.turns` lists them in the order the code takes
them, so that what happens between two turns can be spoken about: which item is
offered to whom, and when an overflow channel is closed.

`Indexed.valuesOf_offers`: a watcher is offered what the plain filter gives it.
-/

namespace Watchd.Watch

open Watchd.Cdc Watchd.Lib

/-! ## The loops, turn by turn -/

/-- One turn of a loop of `Accept`. -/
inductive Turn
  /-- `invalidateLocked` of a table comes to a watcher -/
  | invalidate (table : String) (w : WatcherId)
  /-- a delivery comes to a watcher -/
  | offer (item : Queued) (w : WatcherId)
  deriving DecidableEq

namespace Turn

/-- The watcher of a turn. -/
def watcher : Turn → WatcherId
  | .invalidate _ w => w
  | .offer _ w => w

/-- Why the turn ends its watcher, if it does. -/
def reason : Turn → ResyncReason
  | .invalidate _ _ => .schemaChanged
  | .offer _ _ => .slowWatcher

/-- What a turn does to the registry. -/
def run (r : Registry) : Turn → Registry
  | .invalidate table w => r.endIfOf table w
  | .offer item w => r.offer item w

/-- Whether the turn closes the overflow channel of its watcher: it calls `endLocked`, and
`removeLocked` finds the watcher registered. -/
def closes (r : Registry) : Turn → Bool
  | .invalidate table w => (r.cell w).projection.table = table && (r.removeLocked w).2
  | .offer _ w => !decide ((r.cell w).queue.length < r.queueSize) && (r.removeLocked w).2

end Turn

/-- The turns that close a channel, when they are taken one after the other. -/
def closings (r : Registry) : List Turn → List Turn
  | [] => []
  | turn :: turns => (if turn.closes r then [turn] else []) ++ closings (turn.run r) turns

/-- The turns of `invalidateLocked` for each reported table. -/
def invalidations (r : Registry) : List IncompatibleRelationError → List Turn
  | [] => []
  | i :: is => r.watchers.map (.invalidate i.table) ++ invalidations (r.endTable i.table) is

/-- The items offered for a list of deliveries, each with its watcher; `memos` have been made
before. -/
def offersFrom (t : Transaction) (memos : MemoId) : List Delivery → List (WatcherId × Queued)
  | [] => []
  | d :: ds =>
    let shared := d.watchers.length > 1
    d.watchers.map (fun w => (w, ⟨t, d.changes, if shared then some memos else none⟩)) ++
      offersFrom t (if shared then memos + 1 else memos) ds

namespace Hub

/-- The items `Accept` offers for a new transaction. -/
def offers (h : Hub) (t : Transaction) : List (WatcherId × Queued) :=
  let h := h.advance t
  offersFrom t h.memos (h.scratch.collect h.registry t).deliveries

/-- The turns `Accept` takes for a new transaction. -/
def turns (h : Hub) (t : Transaction) : List Turn :=
  invalidations h.registry t.incompatible ++ (h.offers t).map fun o => .offer o.2 o.1

end Hub

theorem foldl_invalidations (is : List IncompatibleRelationError) (r : Registry) :
    (invalidations r is).foldl Turn.run r = is.foldl (fun r i => r.endTable i.table) r := by
  induction is generalizing r with
  | nil => rfl
  | cons i is ih =>
    have hloop : (r.watchers.map (Turn.invalidate i.table)).foldl Turn.run r =
        r.endTable i.table := by
      rw [List.foldl_map, Registry.endTable_eq]
      rfl
    rw [invalidations, List.foldl_append, hloop, ih, List.foldl_cons]

theorem foldl_deliver_registry (t : Transaction) (ds : List Delivery) (h : Hub) :
    (ds.foldl (Hub.deliver t) h).registry =
      (offersFrom t h.memos ds).foldl (fun r o => r.offer o.2 o.1) h.registry := by
  induction ds generalizing h with
  | nil => rfl
  | cons d ds ih =>
    rw [List.foldl_cons, ih, offersFrom, List.foldl_append, List.foldl_map]
    rfl

namespace Hub

theorem acceptNew_registry (h : Hub) (t : Transaction) :
    (h.acceptNew t).registry =
      (h.offers t).foldl (fun r o => r.offer o.2 o.1) (h.advance t).registry :=
  foldl_deliver_registry t _ (h.advance t)

/-- `Accept` changes the registry by its turns. -/
theorem acceptNew_turns (h : Hub) (t : Transaction) :
    (h.acceptNew t).registry = (h.turns t).foldl Turn.run h.registry := by
  have hadvance : (h.advance t).registry =
      t.incompatible.foldl (fun r i => r.endTable i.table) h.registry := by rw [advance_eq]
  rw [turns, List.foldl_append, foldl_invalidations, ← hadvance, List.foldl_map,
    acceptNew_registry]
  rfl

end Hub

/-! ## What each watcher is offered -/

theorem valuesOf_map_pair {w : WatcherId} {ws : List WatcherId} (hnd : ws.Nodup) (item : Queued) :
    valuesOf w (ws.map fun w => (w, item)) = if w ∈ ws then [item] else [] := by
  induction ws with
  | nil => rfl
  | cons w₀ ws ih =>
    obtain ⟨hw₀, hws⟩ := List.nodup_cons.1 hnd
    rw [List.map_cons, ← List.singleton_append, valuesOf_append, ih hws]
    by_cases hw : w = w₀
    · subst hw
      simp [valuesOf, hw₀]
    · simp [valuesOf, hw, Ne.symm hw]

/-- A watcher is offered one item for each delivery it is in. -/
theorem valuesOf_offersFrom (t : Transaction) (w : WatcherId) {ds : List Delivery}
    (hds : ∀ d ∈ ds, d.watchers.Nodup) (memos : MemoId) :
    (valuesOf w (offersFrom t memos ds)).map (fun item => (item.transaction, item.changes)) =
      (ds.filter fun d => w ∈ d.watchers).map fun d => (t, d.changes) := by
  induction ds generalizing memos with
  | nil => rfl
  | cons d ds ih =>
    rw [List.forall_mem_cons] at hds
    rw [offersFrom, valuesOf_append, List.map_append, ih hds.2, valuesOf_map_pair hds.1]
    by_cases hw : w ∈ d.watchers <;> simp [hw]

/-- **Indexed fan-out is the plain filter**: a registered watcher is offered its changes as one
item, or nothing if it has none. -/
theorem Indexed.valuesOf_offers {r : Registry} (hidx : Indexed r) (t : Transaction) (memos : MemoId)
    {w : WatcherId} (hw : w ∈ r.watchers) :
    (valuesOf w (offersFrom t memos (Scratch.collect r {} t).deliveries)).map
        (fun item => (item.transaction, item.changes)) =
      if (r.cell w).changesOf t = [] then [] else [(t, (r.cell w).changesOf t)] := by
  have hholds := Scratch.Holds.collect r t
  obtain ⟨key, hkey, huniq, hval⟩ := hidx.exists_key hw
  rw [hholds.deliveries, valuesOf_offersFrom, List.filter_map, List.map_map]
  · -- the deliveries with the watcher are those of its key
    have hfilter : ((group (t.changes.flatMap r.routed)).filter
        ((fun d : Delivery => decide (w ∈ d.watchers)) ∘ fun g => ⟨r.watchersAt g.1, g.2⟩)) =
        (group (t.changes.flatMap r.routed)).filter fun g => g.1 = key := by
      refine List.filter_congr fun g _ => decide_eq_decide.2 ⟨huniq g.1, ?_⟩
      rintro rfl
      exact hkey
    rw [hfilter, filter_group, hval]
    split <;> rfl
  · intro d hd
    obtain ⟨g, -, rfl⟩ := List.mem_map.1 hd
    exact hidx.watchersAt_nodup g.1

/-! ## Memos -/

/-- Items with one memo are one item, and every memo was made before the `n`th. -/
structure OneEach (offered : List (WatcherId × Queued)) (n : MemoId) : Prop where
  made : ∀ o ∈ offered, ∀ memo, o.2.memo = some memo → memo < n
  one : ∀ o ∈ offered, ∀ o' ∈ offered, ∀ memo, o.2.memo = some memo → o'.2.memo = some memo →
    o.2 = o'.2

section OneEach

variable {offered : List (WatcherId × Queued)} {n : MemoId}

/-- One item with a new memo, for any number of watchers. -/
theorem OneEach.append_shared (h : OneEach offered n) (ws : List WatcherId) {item : Queued}
    (hitem : item.memo = some n) : OneEach (offered ++ ws.map fun w => (w, item)) (n + 1) := by
  have hnew : ∀ o ∈ ws.map fun w => (w, item), o.2 = item := by
    intro o hmem
    obtain ⟨w, -, rfl⟩ := List.mem_map.1 hmem
    rfl
  -- an item with an earlier memo is not the new one
  have hold : ∀ o ∈ offered, o.2.memo ≠ item.memo := fun o hmem heq =>
    Nat.lt_irrefl _ (h.made o hmem n (heq.trans hitem))
  constructor
  · intro o hmem memo hmemo
    rcases List.mem_append.1 hmem with hmem | hmem
    · exact Nat.lt_succ_of_lt (h.made o hmem memo hmemo)
    · rw [hnew o hmem, hitem] at hmemo
      cases hmemo
      exact Nat.lt_succ_self _
  · intro o hmem o' hmem' memo hmemo hmemo'
    rcases List.mem_append.1 hmem with hmem | hmem <;>
      rcases List.mem_append.1 hmem' with hmem' | hmem'
    · exact h.one o hmem o' hmem' memo hmemo hmemo'
    · exact absurd (hmemo.trans (hnew o' hmem' ▸ hmemo'.symm)) (hold o hmem)
    · exact absurd (hmemo'.trans (hnew o hmem ▸ hmemo.symm)) (hold o' hmem')
    · rw [hnew o hmem, hnew o' hmem']

/-- Items without a memo are no matter. -/
theorem OneEach.append_bare (h : OneEach offered n) (ws : List WatcherId) {item : Queued}
    (hitem : item.memo = none) : OneEach (offered ++ ws.map fun w => (w, item)) n := by
  have hold : ∀ o ∈ offered ++ ws.map fun w => (w, item), ∀ memo, o.2.memo = some memo →
      o ∈ offered := by
    intro o hmem memo hmemo
    refine (List.mem_append.1 hmem).resolve_right fun hmem => ?_
    obtain ⟨w, -, rfl⟩ := List.mem_map.1 hmem
    rw [hitem] at hmemo
    cases hmemo
  exact ⟨fun o hmem memo hmemo => h.made o (hold o hmem memo hmemo) memo hmemo,
    fun o hmem o' hmem' memo hmemo hmemo' => h.one o (hold o hmem memo hmemo) o'
      (hold o' hmem' memo hmemo') memo hmemo hmemo'⟩

end OneEach

theorem OneEach.deliver {offered : List (WatcherId × Queued)} {h : Hub}
    (ho : OneEach offered h.memos) (t : Transaction) (d : Delivery) :
    OneEach (offered ++ d.watchers.map fun w =>
      (w, ⟨t, d.changes, if d.watchers.length > 1 then some h.memos else none⟩))
      (h.deliver t d).memos := by
  by_cases hshared : d.watchers.length > 1
  · simp only [hshared, if_true, Hub.deliver]
    exact ho.append_shared d.watchers rfl
  · simp only [hshared, if_false, Hub.deliver]
    exact ho.append_bare d.watchers rfl

theorem OneEach.foldl_deliver (t : Transaction) (ds : List Delivery)
    {offered : List (WatcherId × Queued)} {h : Hub} (ho : OneEach offered h.memos) :
    OneEach (offered ++ offersFrom t h.memos ds) (ds.foldl (Hub.deliver t) h).memos := by
  induction ds generalizing offered h with
  | nil => simpa [offersFrom] using ho
  | cons d ds ih =>
    have hrest := ih (ho.deliver t d)
    rw [List.append_assoc] at hrest
    exact hrest

theorem OneEach.acceptNew {offered : List (WatcherId × Queued)} {h : Hub}
    (ho : OneEach offered h.memos) (t : Transaction) :
    OneEach (offered ++ h.offers t) (h.acceptNew t).memos := by
  have hmemos : (h.advance t).memos = h.memos := by rw [Hub.advance_eq]
  rw [← hmemos] at ho
  exact ho.foldl_deliver t _

/-! ## Closed channels -/

/-- The overflow channels that are closed are those the turns `closed` closed, each once, with the
turn's reason. -/
structure ClosedBy (closed : List Turn) (r : Registry) : Prop where
  once : (closed.map Turn.watcher).Nodup
  overflow_iff : ∀ w, (r.cell w).overflow = true ↔ w ∈ closed.map Turn.watcher
  reason_eq : ∀ turn ∈ closed, (r.cell turn.watcher).reason = turn.reason
  table_eq : ∀ table w, .invalidate table w ∈ closed → (r.cell w).projection.table = table
  removed : ∀ w ∈ closed.map Turn.watcher, w ∉ r.watchers

theorem Registry.removeLocked_snd (r : Registry) (w : WatcherId) :
    (r.removeLocked w).2 = decide (w ∈ r.watchers) := by
  unfold removeLocked
  split
  · next h => simp [h]
  · next h => simp [h]

namespace ClosedBy

variable {closed : List Turn} {r : Registry}

/-- A change that closes no channel, and leaves the watchers whose channels are closed alone but for
their queues. -/
theorem keep {r' : Registry} (h : ClosedBy closed r)
    (hoverflow : ∀ w, (r'.cell w).overflow = (r.cell w).overflow)
    (hreason : ∀ w ∈ closed.map Turn.watcher, (r'.cell w).reason = (r.cell w).reason)
    (hprojection : ∀ w ∈ closed.map Turn.watcher, (r'.cell w).projection = (r.cell w).projection)
    (hwatchers : ∀ w ∈ closed.map Turn.watcher, w ∈ r'.watchers → w ∈ r.watchers) :
    ClosedBy closed r' where
  once := h.once
  overflow_iff w := by rw [hoverflow]; exact h.overflow_iff w
  reason_eq turn hturn := by
    rw [hreason _ (List.mem_map_of_mem hturn)]
    exact h.reason_eq turn hturn
  table_eq table w hturn := by
    rw [hprojection w (List.mem_map.2 ⟨_, hturn, rfl⟩)]
    exact h.table_eq table w hturn
  removed w hw hmem := h.removed w hw (hwatchers w hw hmem)

/-- Queues are no matter. -/
theorem setQueue (h : ClosedBy closed r) (w : WatcherId) (queue : List Queued) :
    ClosedBy closed (r.setCell w { r.cell w with queue := queue }) := by
  have hcell : ∀ w', (r.setCell w { r.cell w with queue := queue }).cell w' =
      { r.cell w' with queue := if w' = w then queue else (r.cell w').queue } := by
    intro w'
    by_cases hne : w' = w
    · subst hne
      simp [Registry.setCell]
    · simp [Registry.setCell, hne]
  exact h.keep (fun w' => by rw [hcell]) (fun w' _ => by rw [hcell]) (fun w' _ => by rw [hcell])
    fun _ _ hmem => hmem

/-- Ending a registered watcher closes its channel, which was open. -/
theorem endLocked (h : ClosedBy closed r) (hidx : Indexed r) (turn : Turn)
    (hw : turn.watcher ∈ r.watchers)
    (htable : ∀ table w, turn = .invalidate table w → (r.cell w).projection.table = table) :
    ClosedBy (closed ++ [turn]) (r.endLocked turn.watcher turn.reason) := by
  have hcell : ∀ w, (r.endLocked turn.watcher turn.reason).cell w =
      if w = turn.watcher then (r.cell turn.watcher).endedFor turn.reason else r.cell w := by
    intro w
    rw [Registry.endLocked_cell]
    simp [hw]
  have hnew : turn.watcher ∉ closed.map Turn.watcher := fun hmem => h.removed _ hmem hw
  have hother : ∀ t ∈ closed, t.watcher ≠ turn.watcher := fun t ht heq =>
    hnew (heq ▸ List.mem_map_of_mem ht)
  refine ⟨?_, fun w => ?_, fun t ht => ?_, fun table w ht => ?_, fun w hmem hreg => ?_⟩
  · rw [List.map_append, List.map_singleton]
    refine h.once.append (by simp) fun w hmem hmem' => ?_
    rw [List.mem_singleton] at hmem'
    exact hnew (hmem' ▸ hmem)
  · rw [hcell, List.map_append, List.mem_append, ← h.overflow_iff]
    by_cases hne : w = turn.watcher
    · simp [hne, Watcher.endedFor]
    · simp [hne]
  · rw [hcell]
    rcases List.mem_append.1 ht with hold | hlast
    · rw [if_neg (hother t hold)]
      exact h.reason_eq t hold
    · rw [List.mem_singleton.1 hlast, if_pos rfl]
      rfl
  · have hproj : ((r.endLocked turn.watcher turn.reason).cell w).projection =
        (r.cell w).projection := by
      rw [hcell]
      split
      · next heq => rw [heq]; rfl
      · rfl
    rw [hproj]
    rcases List.mem_append.1 ht with hold | hlast
    · exact h.table_eq table w hold
    · exact htable table w (List.mem_singleton.1 hlast).symm
  · rw [Registry.endLocked_watchers, hidx.watchers_nodup.mem_erase_iff] at hreg
    rw [List.map_append, List.mem_append] at hmem
    rcases hmem with hmem | hmem
    · exact h.removed w hmem hreg.2
    · exact hreg.1 (by simpa using hmem)

/-- One turn. -/
theorem turn (h : ClosedBy closed r) (hidx : Indexed r) (turn : Turn) :
    ClosedBy (closed ++ if turn.closes r then [turn] else []) (turn.run r) := by
  cases turn with
  | invalidate table w =>
    simp only [Turn.closes, Turn.run, Registry.endIfOf, Registry.removeLocked_snd]
    by_cases ht : (r.cell w).projection.table = table
    · by_cases hw : w ∈ r.watchers
      · simp only [ht, hw, decide_true, Bool.and_true, if_true]
        exact h.endLocked hidx (.invalidate table w) hw fun table' w' heq => by
          cases heq
          exact ht
      · simp [ht, hw, Registry.endLocked_of_not_mem, h]
    · simp [ht, h]
  | offer item w =>
    simp only [Turn.closes, Turn.run, Registry.offer, Registry.removeLocked_snd]
    by_cases hroom : (r.cell w).queue.length < r.queueSize
    · simp only [hroom, decide_true, Bool.not_true, Bool.false_and, Bool.false_eq_true, if_false,
        List.append_nil, if_true]
      exact h.setQueue w _
    · by_cases hw : w ∈ r.watchers
      · simp only [hroom, hw, decide_true, decide_false, Bool.not_false, Bool.and_true, if_true,
          if_false]
        exact h.endLocked hidx (.offer item w) hw fun _ _ heq => by cases heq
      · simp [hroom, hw, Registry.dropLocked, Registry.endLocked_of_not_mem, h]

end ClosedBy

theorem Indexed.turn {r : Registry} (h : Indexed r) (turn : Turn) : Indexed (turn.run r) := by
  cases turn with
  | invalidate table w => exact h.endIfOf table w
  | offer item w => exact h.offer item w

/-- A turn that closes a channel comes to a registered watcher, -/
theorem Turn.mem_of_closes {r : Registry} {turn : Turn} (h : turn.closes r = true) :
    turn.watcher ∈ r.watchers := by
  cases turn with
  | invalidate table w =>
    simp only [closes, Registry.removeLocked_snd, Bool.and_eq_true] at h
    exact of_decide_eq_true h.2
  | offer item w =>
    simp only [closes, Registry.removeLocked_snd, Bool.and_eq_true] at h
    exact of_decide_eq_true h.2

/-- and no turn registers one. -/
theorem Turn.mem_of_run {r : Registry} {turn : Turn} {w : WatcherId}
    (h : w ∈ (turn.run r).watchers) : w ∈ r.watchers := by
  cases turn with
  | invalidate table w' =>
    simp only [run, Registry.endIfOf] at h
    split at h
    · rw [Registry.endLocked_watchers] at h
      exact List.mem_of_mem_erase h
    · exact h
  | offer item w' =>
    simp only [run, Registry.offer] at h
    split at h
    · exact h
    · rw [Registry.dropLocked, Registry.endLocked_watchers] at h
      exact List.mem_of_mem_erase h

theorem mem_of_closings {r : Registry} {turns : List Turn} {turn : Turn}
    (h : turn ∈ closings r turns) : turn.watcher ∈ r.watchers := by
  induction turns generalizing r with
  | nil => cases h
  | cons turn₀ turns ih =>
    rcases List.mem_append.1 h with hhead | hrest
    · split at hhead
      · next hcloses =>
        rw [List.mem_singleton.1 hhead]
        exact Turn.mem_of_closes hcloses
      · cases hhead
    · exact Turn.mem_of_run (ih hrest)

theorem mem_of_foldl_run {r : Registry} {turns : List Turn} {w : WatcherId}
    (h : w ∈ (turns.foldl Turn.run r).watchers) : w ∈ r.watchers := by
  induction turns generalizing r with
  | nil => exact h
  | cons turn turns ih => exact Turn.mem_of_run (ih h)

/-- All turns of a loop. -/
theorem ClosedBy.turns {closed : List Turn} {r : Registry} (h : ClosedBy closed r)
    (hidx : Indexed r)
    (turns : List Turn) :
    ClosedBy (closed ++ closings r turns) (turns.foldl Turn.run r) := by
  induction turns generalizing closed r with
  | nil => simpa [closings] using h
  | cons turn turns ih =>
    have hrest := ih (h.turn hidx turn) (hidx.turn turn)
    rw [List.append_assoc] at hrest
    exact hrest

end Watchd.Watch
