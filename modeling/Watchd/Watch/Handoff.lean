import Watchd.Lib.Feed
import Watchd.Watch.Retention
import Watchd.Watch.Steps

/-!
# The handoff invariant

A watch owes its consumer the wanted part of its stream: the ring's contents at
registration, then every transaction the hub accepts until it ends the watcher.
`Handoff` says, phase by phase, where that part is: sent, held as a backlog, or
waiting in the queue.  `WatchInv` adds the bookkeeping around it, and every step
of the system keeps it.
-/

namespace Watchd.Watch

open Watchd.Cdc Watchd.Lib

/-- Whether a transaction passes `need`. -/
def Need.needs (need : Need) (t : Transaction) : Bool :=
  match need.apply t with
  | .ok needed => needed
  | .error _ => false

theorem Need.needs_of_ok {need : Need} {t : Transaction} {b : Bool} (h : need.apply t = .ok b) :
    need.needs t = b := by
  unfold needs
  rw [h]

/-- The transaction has a change for the watcher. -/
def Watcher.concerns (c : Watcher) (t : Transaction) : Bool := decide ((c.changesOf t).length > 0)

/-- The transactions a watch has to send: those with a change for it that it needs. -/
def Watcher.wants (c : Watcher) (need : Need) (t : Transaction) : Bool :=
  c.concerns t && need.needs t

/-- The batches a watch has to send for some transactions. -/
def Watcher.owed (c : Watcher) (need : Need) (ts : List Transaction) : List Batch :=
  feed (c.wants need) c.batchOf ts

namespace History

/-- How many of the accepted transactions count for the watch. -/
def endAt (hist : History) (accepted : List Transaction) : Nat :=
  match hist.ended with
  | none => accepted.length
  | some e => e.accepted

/-- What the hub accepted after the watcher registered and before it was ended. -/
def since (hist : History) (accepted : List Transaction) : List Transaction :=
  (accepted.take (hist.endAt accepted)).drop hist.registeredAt

/-- What a watch is responsible for: the ring it was given, and what was accepted since. -/
def stream (hist : History) (accepted : List Transaction) : List Transaction :=
  hist.ring ++ hist.since accepted

end History

/-! ## Where the owed batches are -/

section Handoff

variable (c : Watcher) (need : Option Need) (ring since : List Transaction) (sent : List Batch)

/-- Nothing is sent yet; the concerned transactions are in `streamed` and in the queue. -/
structure Collected (streamed : List Transaction) : Prop where
  unsent : sent = []
  streamed_eq : streamed = ring.filter c.concerns
  queue_eq : c.queue.map Queued.transaction = since.filter c.concerns

/-- The owed batches are sent, held or still to come out of the queue. -/
structure Owes (need' : Need) (held : List Batch) : Prop where
  need_eq : need = some need'
  feeding : Feeding (c.wants need') c.batchOf (ring ++ since) sent held
    (c.queue.map Queued.transaction)

/-- What was sent is a prefix of what is owed. -/
def Delivered : Prop :=
  sent = [] ∨ ∃ need', need = some need' ∧ sent <+: c.owed need' (ring ++ since)

/-- In each phase, what was sent, what is held and what is queued make up what is owed. -/
def Handoff : Phase → Prop
  | .start | .snapshot => sent = [] ∧ c.queue = [] ∧ need = none
  | .resume cursor => sent = [] ∧ c.queue = [] ∧ need = some (.after cursor)
  | .refuse _ => sent = []
  | .snapshotBegin streamed | .reading streamed => Collected c ring since sent streamed
  | .overflowCheck streamed snap | .clearStale streamed snap =>
    Collected c ring since sent streamed ∧ need = some (.notCovered snap)
  | .recordSnapshot held snap | .snapshotEnd held snap =>
    Owes c need ring since sent (.notCovered snap) held
  | .backlog held args => Owes c need ring since sent args.need held
  | .position args _ | .drain args _ _ _ | .progress args _ _ _ | .select args _ _ =>
    Owes c need ring since sent args.need []
  | .deliver args _ _ _ item =>
    Owes c need ring since sent args.need [c.batchOf item.transaction] ∧
      item.changes = c.changesOf item.transaction
  | .resync _ | .unregister _ | .returned _ => Delivered c need ring since sent

end Handoff

section

variable {c : Watcher} {need : Option Need} {ring since : List Transaction} {sent : List Batch}

theorem Owes.delivered {need' : Need} {held : List Batch}
    (h : Owes c need ring since sent need' held) : Delivered c need ring since sent :=
  .inr ⟨need', h.need_eq, h.feeding.isPrefix⟩

/-- In every phase, what was sent is a prefix of what is owed. -/
theorem Handoff.delivered :
    ∀ {p : Phase}, Handoff c need ring since sent p → Delivered c need ring since sent
  | .start, h | .snapshot, h | .resume _, h => .inl h.1
  | .refuse _, h => .inl h
  | .snapshotBegin _, h | .reading _, h => .inl h.unsent
  | .overflowCheck _ _, h | .clearStale _ _, h => .inl h.1.unsent
  | .recordSnapshot _ _, h | .snapshotEnd _ _, h | .backlog _ _, h | .position _ _, h
  | .drain _ _ _ _, h | .progress _ _ _ _, h | .select _ _ _, h => Owes.delivered h
  | .deliver _ _ _ _ _, h => h.1.delivered
  | .resync _, h | .unregister _, h | .returned _, h => h

theorem Delivered.mono {since' : List Transaction} (h : Delivered c need ring since sent)
    (hs : since <+: since') : Delivered c need ring since' sent := by
  rcases h with h | ⟨need', hneed, hpre⟩
  · exact .inl h
  · have hstream : ring ++ since <+: ring ++ since' := (List.prefix_append_right_inj ring).2 hs
    exact .inr ⟨need', hneed, hpre.trans (feed_mono _ _ hstream)⟩

/-! ### A transaction that does not concern the watcher -/

section Skip

variable {t : Transaction} (ht : c.concerns t = false)

include ht

theorem Collected.skip {streamed : List Transaction} (h : Collected c ring since sent streamed) :
    Collected c ring (since ++ [t]) sent streamed := by
  refine ⟨h.unsent, h.streamed_eq, ?_⟩
  rw [h.queue_eq, List.filter_append]
  simp [ht]

theorem Owes.skip {need' : Need} {held : List Batch}
    (h : Owes c need ring since sent need' held) :
    Owes c need ring (since ++ [t]) sent need' held := by
  refine ⟨h.need_eq, ?_⟩
  have hwants : c.wants need' t = false := by simp [Watcher.wants, ht]
  rw [← List.append_assoc]
  exact h.feeding.skip hwants

theorem Handoff.skip :
    ∀ {p : Phase}, Handoff c need ring since sent p → Handoff c need ring (since ++ [t]) sent p
  | .start, h | .snapshot, h | .resume _, h | .refuse _, h => h
  | .snapshotBegin _, h | .reading _, h => Collected.skip ht h
  | .overflowCheck _ _, h | .clearStale _ _, h => ⟨h.1.skip ht, h.2⟩
  | .recordSnapshot _ _, h | .snapshotEnd _ _, h | .backlog _ _, h | .position _ _, h
  | .drain _ _ _ _, h | .progress _ _ _ _, h | .select _ _ _, h => Owes.skip ht h
  | .deliver _ _ _ _ _, h => ⟨h.1.skip ht, h.2⟩
  | .resync _, h | .unregister _, h | .returned _, h => Delivered.mono h (List.prefix_append _ _)

end Skip

/-! ### A transaction that is queued for the watcher -/

section Publish

variable {t : Transaction} {item : Queued} (hitem : item.transaction = t)

include hitem

theorem Collected.publish (ht : c.concerns t = true) {streamed : List Transaction}
    (h : Collected c ring since sent streamed) :
    Collected { c with queue := c.queue ++ [item] } ring (since ++ [t]) sent streamed := by
  refine ⟨h.unsent, h.streamed_eq, ?_⟩
  have hfilter : List.filter c.concerns [t] = [t] := by simp [ht]
  calc (c.queue ++ [item]).map Queued.transaction
      = c.queue.map Queued.transaction ++ [t] := by rw [List.map_append, ← hitem]; rfl
    _ = (since ++ [t]).filter c.concerns := by rw [h.queue_eq, List.filter_append, hfilter]

theorem Owes.publish {need' : Need} {held : List Batch}
    (h : Owes c need ring since sent need' held) :
    Owes { c with queue := c.queue ++ [item] } need ring (since ++ [t]) sent need' held := by
  refine ⟨h.need_eq, ?_⟩
  have hfeed := h.feeding.publish t
  have hqueue : (c.queue ++ [item]).map Queued.transaction =
      c.queue.map Queued.transaction ++ [t] := by rw [List.map_append, ← hitem]; rfl
  rw [List.append_assoc, ← hqueue] at hfeed
  exact hfeed

theorem Handoff.publish (ht : c.concerns t = true) :
    ∀ {p : Phase}, p.registered = true → Handoff c need ring since sent p →
      Handoff { c with queue := c.queue ++ [item] } need ring (since ++ [t]) sent p
  | .snapshotBegin _, _, h | .reading _, _, h => Collected.publish hitem ht h
  | .overflowCheck _ _, _, h | .clearStale _ _, _, h => ⟨h.1.publish hitem ht, h.2⟩
  | .recordSnapshot _ _, _, h | .snapshotEnd _ _, _, h | .backlog _ _, _, h | .position _ _, _, h
  | .drain _ _ _ _, _, h | .progress _ _ _ _, _, h | .select _ _ _, _, h => Owes.publish hitem h
  | .deliver _ _ _ _ _, _, h => ⟨h.1.publish hitem, h.2⟩
  | .resync _, _, h | .unregister _, _, h => Delivered.mono h (List.prefix_append _ _)

end Publish

/-- Ending the watcher moves nothing. -/
theorem Handoff.endedFor (reason : ResyncReason) :
    ∀ {p : Phase}, Handoff c need ring since sent p →
      Handoff (c.endedFor reason) need ring since sent p
  | .start, h | .snapshot, h | .resume _, h | .refuse _, h => h
  | .snapshotBegin _, h | .reading _, h => ⟨h.unsent, h.streamed_eq, h.queue_eq⟩
  | .overflowCheck _ _, h | .clearStale _ _, h =>
    ⟨⟨h.1.unsent, h.1.streamed_eq, h.1.queue_eq⟩, h.2⟩
  | .recordSnapshot _ _, h | .snapshotEnd _ _, h | .backlog _ _, h | .position _ _, h
  | .drain _ _ _ _, h | .progress _ _ _ _, h | .select _ _ _, h => ⟨h.need_eq, h.feeding⟩
  | .deliver _ _ _ _ _, h => ⟨⟨h.1.need_eq, h.1.feeding⟩, h.2⟩
  | .resync _, h | .unregister _, h | .returned _, h => h

end

/-! ## The batches kept from before registration -/

theorem Watcher.appendBatch_eq (c : Watcher) (batches : List Batch) (t : Transaction) :
    c.appendBatch batches t = batches ++ if c.concerns t then [c.batchOf t] else [] := by
  unfold appendBatch concerns
  by_cases h : (c.changesOf t).length > 0 <;> simp [h]

theorem Watcher.owed_cons (c : Watcher) (need : Need) (t : Transaction) (ts : List Transaction) :
    c.owed need (t :: ts) =
      (if c.concerns t && need.needs t then [c.batchOf t] else []) ++ c.owed need ts :=
  feed_cons ..

/-- What `backlog` builds is what is owed of the transactions it was given. -/
theorem Watcher.backlog_eq {c : Watcher} {need : Need} {ts : List Transaction}
    {batches : List Batch} (h : c.backlog need ts = .ok batches) : batches = c.owed need ts := by
  suffices hall : ∀ (ts : List Transaction) (acc : List Batch),
      ts.foldlM (fun batches t => (need.apply t).map fun needed =>
        if needed then c.appendBatch batches t else batches) acc = .ok batches →
      batches = acc ++ c.owed need ts from hall ts [] h
  intro ts
  induction ts with
  | nil =>
    intro acc h
    rw [List.foldlM_nil] at h
    cases h
    simp [Watcher.owed]
  | cons t ts ih =>
    intro acc h
    rw [List.foldlM_cons] at h
    cases hneed : need.apply t with
    | error err =>
      rw [hneed] at h
      cases h
    | ok needed =>
      rw [hneed] at h
      have hnext := ih _ h
      rw [hnext, Watcher.owed_cons, Need.needs_of_ok hneed]
      cases needed with
      | false => simp
      | true =>
        show c.appendBatch acc t ++ c.owed need ts = _
        rw [Watcher.appendBatch_eq, Bool.and_true, List.append_assoc]

/-- `backlog` fails only if its test fails on some transaction. -/
theorem Watcher.backlog_ok_iff (c : Watcher) (need : Need) (ts : List Transaction) :
    (∃ batches, c.backlog need ts = .ok batches) ↔
      ∀ t ∈ ts, ∃ needed, need.apply t = .ok needed := by
  suffices hall : ∀ (ts : List Transaction) (acc : List Batch),
      (∃ batches, ts.foldlM (fun batches t => (need.apply t).map fun needed =>
        if needed then c.appendBatch batches t else batches) acc = .ok batches) ↔
      ∀ t ∈ ts, ∃ needed, need.apply t = .ok needed from hall ts []
  intro ts
  induction ts with
  | nil => exact fun acc => ⟨fun _ t ht => (by cases ht), fun _ => ⟨acc, rfl⟩⟩
  | cons t ts ih =>
    intro acc
    rw [List.foldlM_cons, List.forall_mem_cons]
    cases hneed : need.apply t with
    | error err =>
      constructor
      · rintro ⟨batches, h⟩
        cases h
      · rintro ⟨⟨needed, h⟩, -⟩
        cases h
    | ok needed =>
      refine (ih _).trans ⟨fun h => ⟨⟨needed, rfl⟩, h⟩, And.right⟩

/-! ## From the stream to the consumer -/

section

variable {c : Watcher} {need : Option Need} {ring since : List Transaction} {sent : List Batch}
  {need' : Need}

/-- The backlog and the queue together hold the wanted part of the stream. -/
theorem Collected.owes {streamed : List Transaction} {batches : List Batch}
    (h : Collected c ring since sent streamed) (hneed : need = some need')
    (hbatches : c.backlog need' streamed = .ok batches) :
    Owes c need ring since sent need' batches := by
  refine ⟨hneed, ?_⟩
  have hwants : ∀ t, c.wants need' t = true → c.concerns t = true := by
    intro t ht
    exact (Bool.and_eq_true_iff.1 ht).1
  unfold Feeding
  rw [Watcher.backlog_eq hbatches, h.unsent, h.streamed_eq, h.queue_eq, Watcher.owed,
    feed_filter _ _ hwants, feed_filter _ _ hwants, List.nil_append, feed_append]

/-- The first item of the queue is held if the watch needs it. -/
theorem Owes.receive {item : Queued} {queue : List Queued} {needed : Bool}
    (h : Owes c need ring since sent need' []) (hqueue : c.queue = item :: queue)
    (hconcerns : c.concerns item.transaction = true)
    (hneed : need'.apply item.transaction = .ok needed) :
    Owes { c with queue := queue } need ring since sent need'
      (if needed then [c.batchOf item.transaction] else []) := by
  have hwants : c.wants need' item.transaction = needed := by
    rw [Watcher.wants, Need.needs_of_ok hneed, hconcerns, Bool.true_and]
  have hfeed := h.feeding
  rw [hqueue, List.map_cons] at hfeed
  have hnext := hfeed.receive
  rw [hwants] at hnext
  exact ⟨h.need_eq, hnext⟩

theorem Owes.emit {b : Batch} {held : List Batch}
    (h : Owes c need ring since sent need' (b :: held)) :
    Owes c need ring since (sent ++ [b]) need' held :=
  ⟨h.need_eq, h.feeding.emit⟩

/-- A backlog shares no memo. -/
theorem Owes.bare_eq {b : Batch} {held : List Batch} (h : Owes c need ring since sent need' held)
    (hb : b ∈ held) : b.bare = b := by
  obtain ⟨t, -, rfl⟩ := List.mem_map.1 (h.feeding.mem_of_held hb)
  rfl

end

/-! ## The watch's own steps -/

section Own

variable {s : System} {id : WatcherId} {p : Phase} {m : Move} {hist : History} {sent : List Event}

@[simp] theorem Hub.register_cell (h : Hub) (id : WatcherId) :
    (h.register id).registry.cell = h.registry.cell :=
  Registry.updateRoute_cell ..

@[simp] theorem Hub.pop_cell_self (h : Hub) (id : WatcherId) (queue : List Queued) :
    (h.pop id queue).registry.cell id = { h.registry.cell id with queue := queue } := by
  simp [Hub.pop, Registry.setCell]

theorem History.note_of_leaving {p p' : Phase} (hp' : p'.leaving = true) :
    hist.note s id p p' = hist := by
  cases p' <;> cases hp' <;> cases p <;> rfl

theorem History.note_of_turnedAway {p p' : Phase}
    (hp' : (∃ reason, p' = .refuse reason) ∨ ∃ err, p' = .returned err) :
    hist.note s id p p' = hist := by
  rcases hp' with ⟨reason, rfl⟩ | ⟨err, rfl⟩ <;> cases p <;> rfl

theorem History.since_of_registering (hended : hist.ended = none)
    (accepted ring : List Transaction) :
    History.since { hist with ring := ring, registeredAt := accepted.length } accepted = [] := by
  simp [History.since, History.endAt, hended]

theorem Queued.batch_bare {c : Watcher} {item : Queued}
    (h : item.changes = c.changesOf item.transaction) :
    item.batch.bare = c.batchOf item.transaction := by
  simp [Queued.batch, Batch.bare, Watcher.batchOf, h]

/-- Events that are no batches. -/
theorem batchesOf_quiet (sent : List Event) {e : Option Event} (he : e.bind Event.batch? = none) :
    batchesOf (sent ++ e.toList) = batchesOf sent := by
  cases e with
  | none => simp
  | some e =>
    rw [batchesOf_append, Option.toList_some]
    simp only [Option.bind_some] at he
    simp [batchesOf, he]

theorem Handoff.leaves {c : Watcher} {need : Option Need} {ring since : List Transaction}
    {batches : List Batch} {p' : Phase} (h : Delivered c need ring since batches)
    (hp' : p'.leaving = true) : Handoff c need ring since batches p' := by
  cases p' <;> first | exact h | cases hp'

/-- A step of the watch moves batches from the backlog or the queue to what was sent. -/
theorem Handoff.moves (hm : Moves s.hub id p m)
    (hended : p = .snapshot ∨ (∃ cursor, p = .resume cursor) → hist.ended = none)
    (hitems : ∀ item ∈ (s.hub.registry.cell id).queue,
      item.changes = (s.hub.registry.cell id).changesOf item.transaction)
    (hconcerns : ∀ item ∈ (s.hub.registry.cell id).queue,
      (s.hub.registry.cell id).concerns item.transaction = true)
    (h : Handoff (s.hub.registry.cell id) hist.need hist.ring (hist.since s.accepted)
      (batchesOf sent) p) :
    Handoff (m.hub.registry.cell id) (hist.note s id p m.phase).need
      (hist.note s id p m.phase).ring ((hist.note s id p m.phase).since s.accepted)
      (batchesOf (sent ++ m.sent.toList)) m.phase := by
  cases hm with
  | parsed cursor hsrc =>
    rw [batchesOf_quiet _ rfl]
    exact ⟨h.1, h.2.1, rfl⟩
  | scratch =>
    rw [batchesOf_quiet _ rfl]
    exact h
  | turnedAway p p' hp hp' =>
    rw [batchesOf_quiet _ rfl, History.note_of_turnedAway hp']
    have hsent : batchesOf sent = [] := by
      rcases hp with rfl | ⟨cursor, rfl⟩ <;> exact h.1
    rcases hp' with ⟨reason, rfl⟩ | ⟨err, rfl⟩
    · exact hsent
    · exact .inl hsent
  | resumed cursor batches hfloor hbatches =>
    obtain ⟨hsent, hqueue, hneed⟩ := h
    rw [batchesOf_quiet _ rfl]
    have hsince := History.since_of_registering (hended (.inr ⟨cursor, rfl⟩)) s.accepted
      s.hub.window.ring
    simp only [Hub.register_cell]
    refine ⟨hneed, ?_⟩
    rw [Watcher.backlog_eq hbatches, hsent, hqueue]
    simp only [History.note, hsince, List.append_nil]
    simp [Feeding, Watcher.owed]
  | registered =>
    obtain ⟨hsent, hqueue, hneed⟩ := h
    rw [batchesOf_quiet _ rfl]
    have hsince := History.since_of_registering (hended (.inl rfl)) s.accepted s.hub.window.ring
    simp only [Hub.register_cell]
    refine ⟨hsent, rfl, ?_⟩
    rw [hqueue]
    simp only [History.note, hsince]
    rfl
  | begun streamed =>
    rw [batchesOf_quiet _ rfl]
    exact h
  | rows streamed rows =>
    rw [batchesOf_quiet _ rfl]
    exact h
  | read streamed snap =>
    rw [batchesOf_quiet _ rfl]
    exact ⟨h, rfl⟩
  | installs streamed snap hover =>
    rw [batchesOf_quiet _ rfl]
    exact h
  | cleared streamed snap stale batches hbatches =>
    rw [batchesOf_quiet _ rfl]
    exact h.1.owes h.2 hbatches
  | recorded batches snap =>
    rw [batchesOf_quiet _ rfl]
    exact h
  | installed batches snap =>
    rw [batchesOf_quiet _ rfl]
    exact h
  | caughtUp args =>
    rw [batchesOf_quiet _ rfl]
    exact h
  | replayed b batches args =>
    rw [batchesOf_append, Option.toList_some, batchesOf_singleton_batch,
      Owes.bare_eq h List.mem_cons_self]
    exact Owes.emit h
  | positioned args round =>
    rw [batchesOf_quiet _ rfl]
    exact h
  | drained args round pos tick hqueue =>
    rw [batchesOf_quiet _ rfl]
    exact h
  | received args round pos tick item queue hqueue hneed =>
    have hmem : item ∈ (s.hub.registry.cell id).queue := by rw [hqueue]; exact List.mem_cons_self
    rw [batchesOf_quiet _ rfl, Hub.pop_cell_self]
    exact ⟨Owes.receive h hqueue (hconcerns item hmem) hneed, hitems item hmem⟩
  | skipped args round pos tick item queue hqueue hneed =>
    have hmem : item ∈ (s.hub.registry.cell id).queue := by rw [hqueue]; exact List.mem_cons_self
    rw [batchesOf_quiet _ rfl, Hub.pop_cell_self]
    exact Owes.receive h hqueue (hconcerns item hmem) hneed
  | delivered args round pos tick item =>
    rw [batchesOf_append, Option.toList_some, batchesOf_singleton_batch, Queued.batch_bare h.2]
    exact h.1.emit
  | progressed args round pos tick hdue =>
    rw [batchesOf_quiet _ rfl]
    exact h
  | unchanged args round pos tick =>
    rw [batchesOf_quiet _ rfl]
    exact h
  | woken args progressed tick =>
    rw [batchesOf_quiet _ rfl]
    exact h
  | leaves p p' stale hp hp' =>
    rw [batchesOf_quiet _ rfl, History.note_of_leaving hp']
    exact .leaves h.delivered hp'
  | incomparable args round pos tick item queue hqueue err =>
    rw [batchesOf_quiet _ rfl, Hub.pop_cell_self]
    have hdel : Delivered _ _ _ _ _ := Owes.delivered h
    exact hdel
  | resynced reason =>
    rw [batchesOf_quiet _ rfl]
    exact h
  | refused reason =>
    rw [batchesOf_quiet _ rfl]
    exact .inl h
  | refusalFailed reason err =>
    rw [batchesOf_quiet _ rfl]
    exact .inl h
  | unregistered result =>
    rw [batchesOf_quiet _ rfl]
    simp only [Registry.unregister, Registry.removeLocked_cell]
    exact h

end Own

end Watchd.Watch
