import Watchd.Watch.Reachable

/-!
# What a watch delivers

The Batches a watch has sent are, at every moment, a prefix of a list its
requirement and the hub's history determine: on the snapshot path what the
snapshot does not cover (`snapshot_handoff`), on the resume path everything after
the cursor (`resume_misses_nothing`).  What the ring had evicted before a snapshot
watch registered is not part of that list: `uncovered_owed_iff` says which of the
transactions accepted before then the watch is still given.
-/

namespace Watchd.Watch

open Watchd.Cdc Watchd.Lib

theorem Watcher.wants_notCovered_iff {c : Watcher} {snap : Snapshot} {t : Transaction} :
    c.wants (.notCovered snap) t = true ↔ c.changesOf t ≠ [] ∧ snap.covers t = .ok false := by
  rw [Watcher.wants, Bool.and_eq_true_iff, Watcher.concerns_iff]
  refine and_congr_right fun _ => ?_
  simp only [Need.needs, Need.apply]
  cases hc : snap.covers t with
  | error err => simp [Except.map]
  | ok covered => cases covered <;> simp [Except.map]

theorem Watcher.wants_after_iff {c : Watcher} {cursor : Cursor} {t : Transaction} :
    c.wants (.after cursor) t = true ↔ c.changesOf t ≠ [] ∧ t.after cursor = .ok true := by
  rw [Watcher.wants, Bool.and_eq_true_iff, Watcher.concerns_iff]
  refine and_congr_right fun _ => ?_
  simp only [Need.needs, Need.apply]
  cases ha : t.after cursor with
  | error err => simp
  | ok after => cases after <;> simp

theorem Watcher.owed_eq_filter {c : Watcher} {need : Need} {P : Transaction → Prop}
    [DecidablePred P] (h : ∀ t, c.wants need t = true ↔ P t) (ts : List Transaction) :
    c.owed need ts = (ts.filter P).map c.batchOf := by
  unfold Watcher.owed feed
  congr 1
  apply List.filter_congr
  intro t _
  by_cases hP : P t
  · rw [(h t).2 hP, decide_eq_true hP]
  · rw [decide_eq_false hP, ← Bool.not_eq_true, h t]
    exact hP

/-! ## A small source, for concrete runs -/

namespace Demo

/-- A table of members by tenant. -/
def spec : ProjectionSpec := ⟨"main", "public", "members", "tenant_id", ["tenant_id", "user_id"]⟩

/-- One projection, with the given ring and queue sizes. -/
def config (maxReplay queue : Int) : Config := ⟨"main", [("members", spec)], maxReplay, queue⟩

/-- Reads the one position these runs resume from. -/
def parseLSN (text : String) : Option Nat := if text = "0/1F4" then some 500 else none

/-- The scope of these runs. -/
def tenant : Text := [0x37]

/-- A member is inserted. -/
def change : Change :=
  { operation := .insert
    table := "public.members"
    key := ((∅ : TextMap).insert "tenant_id" tenant).insert "user_id" [0x31] }

/-- A transaction of the tenant whose commit record starts at `lsn`. -/
def transaction (lsn : Nat) (xid : UInt32) : Transaction :=
  { cursor := ⟨"main", lsn + 10⟩, changes := [change], commitLSN := lsn, xid := xid }

/-- A snapshot taken at `lsn` that does not see transaction 15, whose commit is not visible yet. -/
def snapshot (lsn : Nat) : Snapshot := ⟨"main", ⟨"main", lsn⟩, some ⟨10, 20, {15}⟩⟩

/-- A step of the first watch. -/
def go (act : Act) : Label := .watch 0 act

/-- The first watch, opened without a cursor and brought to its snapshot read. -/
def openSnapshot : List Label := [.open_ ⟨"members", tenant, ""⟩, go .run, go .run, go .run]

/-- The snapshotter returns, and the watch goes on up to `SnapshotEnd`. -/
def readSnapshot (lsn : Nat) : List Label :=
  [go (.read (.ok (snapshot lsn))), go .run, go .run, go .run, go .run]

/-- Replays labels on a new hub, each of which must meet `ok`. -/
def run (ok : System → Label → Prop) [∀ s l, Decidable (ok s l)] (maxReplay queue : Int)
    (ls : List Label) : Option System :=
  (Hub.new parseLSN (config maxReplay queue)).toOption.bind fun h =>
    runWhile machine ok { hub := h } ls

theorem reaches_of_run {ok : System → Label → Prop} [∀ s l, Decidable (ok s l)]
    {maxReplay queue : Int} {ls : List Label} {s : System}
    (h : run ok maxReplay queue ls = some s) : Reaches machine ok s := by
  obtain ⟨hub, hhub, hrun⟩ := Option.bind_eq_some_iff.1 h
  exact .of_runWhile (.init ⟨_, _, _, toOption_eq_some_iff.1 hhub, rfl⟩) hrun

/-- What a replay computes of a watch holds in a reachable state. -/
theorem exists_of_run (ok : System → Label → Prop) [∀ s l, Decidable (ok s l)]
    (maxReplay queue : Int) (ls : List Label) (id : WatcherId) (P : System → WatchState → Prop)
    [∀ s ws, Decidable (P s ws)]
    (h : (run ok maxReplay queue ls).any (fun s => s.watches[id]?.any fun ws => P s ws) = true) :
    ∃ s ws, Reaches machine ok s ∧ s.watches[id]? = some ws ∧ P s ws := by
  obtain ⟨s, hs, hany⟩ := (Option.any_eq_true _ _).1 h
  obtain ⟨ws, hws, hP⟩ := (Option.any_eq_true _ _).1 hany
  exact ⟨s, ws, reaches_of_run hs, hws, of_decide_eq_true hP⟩

end Demo

/-! ## The stream of a watch -/

/-- What the hub had accepted before the watcher registered and no longer held in the ring. -/
def History.evicted (hist : History) (accepted : List Transaction) : List Transaction :=
  (accepted.take hist.registeredAt).take (hist.registeredAt - hist.ring.length)

section Stream

variable {maxReplay : Nat} {accepted : List Transaction} {v : Watcher × Bool} {p : Phase}
  {hist : History}

theorem Books.evicted_append_ring (h : Books maxReplay accepted v p hist) :
    hist.evicted accepted ++ hist.ring = accepted.take hist.registeredAt := by
  obtain ⟨evicted, hsplit, -⟩ := h.retained
  have hlen := congrArg List.length hsplit
  rw [List.length_take, Nat.min_eq_left h.registeredAt_le_length, List.length_append] at hlen
  unfold History.evicted
  rw [hsplit, List.take_append_of_le_length (by omega), List.take_of_length_le (by omega)]

theorem Books.evicted_append_stream (h : Books maxReplay accepted v p hist) :
    hist.evicted accepted ++ hist.stream accepted = accepted.take (hist.endAt accepted) := by
  have hle := h.registeredAt_le
  rw [History.stream, ← List.append_assoc, h.evicted_append_ring, History.since]
  calc accepted.take hist.registeredAt ++
        (accepted.take (hist.endAt accepted)).drop hist.registeredAt
      = (accepted.take (hist.endAt accepted)).take hist.registeredAt ++
        (accepted.take (hist.endAt accepted)).drop hist.registeredAt := by
        rw [List.take_take, Nat.min_eq_left hle]
    _ = accepted.take (hist.endAt accepted) := List.take_append_drop ..

/-- The transactions a cursor the hub accepted for resuming cannot need. -/
theorem Books.evicted_le (h : Books maxReplay accepted v p hist) {cursor : Cursor}
    (hneed : hist.need = some (.after cursor)) :
    ∀ t ∈ hist.evicted accepted, t.cursor.sourceID = cursor.sourceID →
      t.cursor.lsn ≤ cursor.lsn := by
  obtain ⟨evicted, hsplit, -, -, hfloor⟩ := h.retained
  have heq := h.evicted_append_ring.trans hsplit
  rw [List.append_cancel_right heq]
  exact hfloor cursor hneed

theorem Books.ring_full (h : Books maxReplay accepted v p hist)
    (hne : hist.evicted accepted ≠ []) : hist.ring.length = maxReplay := by
  obtain ⟨evicted, hsplit, -, hfull, -⟩ := h.retained
  have heq := h.evicted_append_ring.trans hsplit
  exact hfull (List.append_cancel_right heq ▸ hne)

/-- What the ring held at registration are the newest `maxReplay` of the transactions accepted
before. -/
theorem Books.newest_eq_ring (h : Books maxReplay accepted v p hist) :
    (accepted.take hist.registeredAt).drop
      ((accepted.take hist.registeredAt).length - maxReplay) = hist.ring := by
  obtain ⟨_, -, hbounded, -⟩ := h.retained
  rw [← h.evicted_append_ring]
  exact newest_of_full hbounded h.ring_full

end Stream

theorem Inv.ordered {s : System} (h : Inv s) : s.accepted.Pairwise Before := by
  obtain ⟨evicted, hacc, hret⟩ := h.retains
  rw [hacc]
  exact hret.ordered

theorem Inv.stream_ordered {s : System} (h : Inv s) {id : WatcherId} {ws : WatchState}
    (hws : s.watches[id]? = some ws) : (ws.history.stream s.accepted).Pairwise Before := by
  have hbooks := (h.watch id ws hws).books
  have htake : (s.accepted.take (ws.history.endAt s.accepted)).Pairwise Before :=
    h.ordered.sublist (List.take_sublist _ _)
  rw [← hbooks.evicted_append_stream, List.pairwise_append] at htake
  exact htake.2.1

theorem Inv.delivered {s : System} (h : Inv s) {id : WatcherId} {ws : WatchState} {need : Need}
    (hws : s.watches[id]? = some ws) (hneed : ws.history.need = some need) :
    batchesOf ws.sent <+: (s.hub.registry.cell id).owed need (ws.history.stream s.accepted) := by
  rcases (h.watch id ws hws).handoff.delivered with hnil | ⟨need', hneed', hpre⟩
  · rw [hnil]
    exact List.nil_prefix
  · rw [hneed] at hneed'
    cases hneed'
    exact hpre

/-! ## The snapshot path -/

/-- **The snapshot handoff.**  At every moment the Batches sent are a prefix of the batches of
those transactions, from the ring at registration and from what was accepted since, that have a
change for the watch and that its snapshot does not cover; these are in cursor order. -/
theorem snapshot_handoff {s : System} (h : Reaches machine anyStep s) {id : WatcherId}
    {ws : WatchState} {snap : Snapshot} (hws : s.watches[id]? = some ws)
    (hneed : ws.history.need = some (.notCovered snap)) :
    let w := s.hub.registry.cell id
    let lacking := (ws.history.ring ++ ws.history.since s.accepted).filter fun t =>
      w.changesOf t ≠ [] ∧ snap.covers t = .ok false
    batchesOf ws.sent <+: lacking.map w.batchOf ∧ lacking.Pairwise Before := by
  have hinv := Reaches.inv h
  intro w lacking
  constructor
  · have hpre := hinv.delivered hws hneed
    rw [Watcher.owed_eq_filter fun t => Watcher.wants_notCovered_iff] at hpre
    exact hpre
  · exact (hinv.stream_ordered hws).filter _

/-- A transaction from the ring and one accepted during the read are both sent. -/
theorem snapshot_handoff_run : ∃ s ws, Reaches machine anyStep s ∧ s.watches[0]? = some ws ∧
    ws.history.need = some (.notCovered (Demo.snapshot 300)) ∧ (batchesOf ws.sent).length = 2 ∧
    batchesOf ws.sent <+: ((ws.history.ring ++ ws.history.since s.accepted).filter fun t =>
      (s.hub.registry.cell 0).changesOf t ≠ [] ∧
        (Demo.snapshot 300).covers t = .ok false).map (s.hub.registry.cell 0).batchOf := by
  obtain ⟨s, ws, hr, hws, hneed, hlen⟩ := Demo.exists_of_run anyStep 10 1
    ([.accept (Demo.transaction 100 15)] ++ Demo.openSnapshot ++
      [.accept (Demo.transaction 400 21)] ++ Demo.readSnapshot 300 ++
      List.replicate 5 (Demo.go .run)) 0
    (fun _ ws => ws.history.need = some (.notCovered (Demo.snapshot 300)) ∧
      (batchesOf ws.sent).length = 2) (by decide)
  exact ⟨s, ws, hr, hws, hneed, hlen, (snapshot_handoff hr hws hneed).1⟩

/-- The batches that a watch past its snapshot's checks holds for its consumer, beside those that
its queue will give. -/
def Phase.held? : Phase → Option (List Batch)
  | .recordSnapshot held _ | .snapshotEnd held _ | .backlog held _ => some held
  | .position _ _ | .drain _ _ _ _ | .progress _ _ _ _ | .select _ _ _ => some []
  | .deliver _ _ _ _ item => some (batchesOf [.batch item.batch])
  | _ => none

/-- What such a watch has sent, holds and still gets from its queue is what it owes of the ring at
registration and of what was accepted since. -/
theorem Handoff.owes {c : Watcher} {need : Need} {ring since : List Transaction}
    {sent held : List Batch} : ∀ {p : Phase}, Handoff c (some need) ring since sent p →
      p.held? = some held →
      sent ++ (held ++ c.owed need (c.queue.map Queued.transaction)) =
        c.owed need (ring ++ since)
  | .recordSnapshot _ _, h, rfl | .snapshotEnd _ _, h, rfl | .backlog _ _, h, rfl
  | .position _ _, h, rfl | .drain _ _ _ _, h, rfl | .progress _ _ _ _, h, rfl
  | .select _ _ _, h, rfl => by
    obtain ⟨hneed, hfeeding⟩ := h
    cases hneed
    exact hfeeding
  | .deliver _ _ _ _ item, h, rfl => by
    obtain ⟨⟨hneed, hfeeding⟩, hchanges⟩ := h
    cases hneed
    have hheld : batchesOf [.batch item.batch] = [c.batchOf item.transaction] := by
      simp [Queued.batch, Batch.bare, Watcher.batchOf, hchanges]
    rw [hheld]
    exact hfeeding

theorem Phase.held?_of_leaving {p : Phase} (h : p.leaving = true) : p.held? = none := by
  cases p <;> first | rfl | cases h

/-- How a watch gets to hold batches: it resumed, its snapshot was compared with what it had kept,
or it held some before. -/
theorem Moves.held {h : Hub} {id : WatcherId} {p : Phase} {m : Move} (hm : Moves h id p m)
    (hheld : m.phase.held?.isSome) (hist : History) (s : System) :
    (hist.note s id p m.phase).need = hist.need ∧
    ((∃ cursor, p = .resume cursor) ∨
      (hist.note s id p m.phase).ring = hist.ring ∧
        (p.held?.isSome ∨ ∃ streamed snap batches, p = .clearStale streamed snap ∧
          (h.registry.cell id).backlog (.notCovered snap) streamed = .ok batches)) := by
  cases hm with
  | resumed cursor => exact ⟨rfl, .inl ⟨cursor, rfl⟩⟩
  | cleared streamed snap stale batches hbatches =>
    exact ⟨rfl, .inr ⟨rfl, .inr ⟨streamed, snap, batches, rfl, hbatches⟩⟩⟩
  | recorded | installed | caughtUp | replayed | positioned | drained | received | skipped
  | delivered | progressed | unchanged | woken => exact ⟨rfl, .inr ⟨rfl, .inl rfl⟩⟩
  | leaves p p' stale hp hp' =>
    rw [Phase.held?_of_leaving hp'] at hheld
    cases hheld
  | turnedAway p p' hp hp' =>
    rcases hp' with ⟨_, rfl⟩ | ⟨_, rfl⟩ <;> cases hheld
  | _ => cases hheld

/-- Past its snapshot's checks, a watch could compare the snapshot with all that concerns it in the
ring. -/
theorem Reaches.compared {ok : System → Label → Prop} {s : System} (h : Reaches machine ok s) :
    ∀ id ws, s.watches[id]? = some ws → ws.phase.held?.isSome →
      ∀ snap, ws.history.need = some (.notCovered snap) → ∀ t ∈ ws.history.ring,
        (s.hub.registry.cell id).changesOf t ≠ [] → ∃ covered, snap.covers t = .ok covered := by
  have hstatic : ∀ {c c' : Watcher}, c.Static c' → ∀ t, c.changesOf t = c'.changesOf t := by
    intro c c' hc t
    unfold Watcher.changesOf
    rw [hc.1, hc.2]
  refine Reaches.watch_rule (P := fun _ c _ ws => ws.phase.held?.isSome →
    ∀ snap, ws.history.need = some (.notCovered snap) → ∀ t ∈ ws.history.ring,
      c.changesOf t ≠ [] → ∃ covered, snap.covers t = .ok covered) ?_ ?_ ?_ h
  · rintro id c accepted req p - (rfl | ⟨err, rfl⟩) hheld <;> cases hheld
  · intro s t id ws hreach _ _ _ hP
    have hinv := Reaches.inv hreach
    obtain ⟨ended, heq, -⟩ := ws.noteAccept_eq s t (s.hub.acceptNew t) id
    rw [heq]
    intro hheld snap hneed t' ht' hchg
    rw [hstatic (Hub.acceptNew_static hinv.indexed hinv.scratch t)] at hchg
    exact hP hheld snap hneed t' ht' hchg
  · intro s id ws m hreach hws hm hP hheld snap hneed t ht hchg
    have hhandoff := ((Reaches.inv hreach).watch id ws hws).handoff
    rw [hstatic hm.static] at hchg
    obtain ⟨hsame, hfrom⟩ := hm.held hheld ws.history s
    have hneed : ws.history.need = some (.notCovered snap) := hsame ▸ hneed
    rcases hfrom with ⟨cursor, hp⟩ | ⟨hring, hsome | ⟨streamed, snap', batches, hp, hbatches⟩⟩
    · -- a resumed watch has no snapshot
      rw [hp] at hhandoff
      cases hhandoff.2.2.symm.trans hneed
    · exact hP hsome snap hneed t (hring ▸ ht) hchg
    · -- the comparison has just been made, with the transactions kept from the ring
      rw [hp] at hhandoff
      obtain ⟨hcollected, hneed'⟩ := hhandoff
      cases hneed'.symm.trans hneed
      have hkept : t ∈ streamed := by
        rw [hcollected.streamed_eq]
        exact List.mem_filter.2 ⟨hring ▸ ht, Watcher.concerns_iff.2 hchg⟩
      obtain ⟨needed, hneeded⟩ :=
        ((s.hub.registry.cell id).backlog_ok_iff _ _).1 ⟨batches, hbatches⟩ t hkept
      cases hcovers : snap.covers t with
      | ok covered => exact ⟨covered, rfl⟩
      | error err =>
        rw [Need.apply, hcovers] at hneeded
        cases hneeded

/-- What a watch is owed is from the ring or was accepted later, hence after what was evicted. -/
theorem Inv.not_evicted_of_owed {s : System} (h : Inv s) {id : WatcherId} {ws : WatchState}
    (hws : s.watches[id]? = some ws) {w : Watcher} {need : Need} {t : Transaction}
    (hmem : w.batchOf t ∈ w.owed need (ws.history.stream s.accepted)) :
    t ∉ ws.history.evicted s.accepted := by
  have hord : (ws.history.evicted s.accepted ++ ws.history.stream s.accepted).Pairwise Before :=
    (h.watch id ws hws).books.evicted_append_stream ▸ h.ordered.sublist (List.take_sublist _ _)
  intro hev
  obtain ⟨t', ht', heq⟩ := List.mem_map.1 hmem
  have hlt := ((List.pairwise_append.1 hord).2.2 t hev t' (List.mem_filter.1 ht').1).lsn_lt
  rw [show t'.cursor = t.cursor from congrArg Batch.cursor heq] at hlt
  exact absurd hlt (Nat.lt_irrefl _)

/-- **What a snapshot watch is given of the past.**  Past its overflow check, a watch has sent,
holds or gets from its queue the batch of an uncovered transaction accepted before it registered
exactly if that transaction was among the newest `maxReplay` then.  So eviction hides nothing from
it, every evicted transaction being covered, exactly if all the uncovered ones are owed to it. -/
theorem uncovered_owed_iff {s : System} (h : Reaches machine anyStep s) {id : WatcherId}
    {ws : WatchState} {snap : Snapshot} {held : List Batch} (hws : s.watches[id]? = some ws)
    (hneed : ws.history.need = some (.notCovered snap)) (hheld : ws.phase.held? = some held) :
    let w := s.hub.registry.cell id
    let before := s.accepted.take ws.history.registeredAt
    let owed := batchesOf ws.sent ++
      (held ++ w.owed (.notCovered snap) (w.queue.map Queued.transaction))
    (∀ t ∈ before, w.changesOf t ≠ [] → snap.covers t ≠ .ok true →
      (w.batchOf t ∈ owed ↔ t ∈ before.drop (before.length - s.hub.window.maxReplay))) ∧
    ((∀ t ∈ ws.history.evicted s.accepted, w.changesOf t ≠ [] → snap.covers t = .ok true) ↔
      ∀ t ∈ before, w.changesOf t ≠ [] → snap.covers t ≠ .ok true → w.batchOf t ∈ owed) := by
  have hinv := Reaches.inv h
  have hwatch := hinv.watch id ws hws
  have hbooks := hwatch.books
  intro w before owed
  have hsplit : ws.history.evicted s.accepted ++ ws.history.ring = before :=
    hbooks.evicted_append_ring
  have howed : owed = w.owed (.notCovered snap) (ws.history.stream s.accepted) := by
    have hhandoff := hwatch.handoff
    rw [hneed] at hhandoff
    exact hhandoff.owes hheld
  have hgiven : ∀ t, w.batchOf t ∈ owed → t ∉ ws.history.evicted s.accepted :=
    fun t hmem => hinv.not_evicted_of_owed hws (howed ▸ hmem)
  have hiff : ∀ t ∈ before, w.changesOf t ≠ [] → snap.covers t ≠ .ok true →
      (w.batchOf t ∈ owed ↔ t ∈ ws.history.ring) := by
    intro t ht hchg hunc
    rw [← hsplit] at ht
    refine ⟨fun hmem => (List.mem_append.1 ht).resolve_left (hgiven t hmem), fun hring => ?_⟩
    obtain ⟨covered, hcovers⟩ :=
      Reaches.compared h id ws hws (by rw [hheld]; rfl) snap hneed t hring hchg
    have hfalse : snap.covers t = .ok false := by
      cases covered with
      | false => exact hcovers
      | true => exact absurd hcovers hunc
    rw [howed]
    exact mem_feed _ _ (List.mem_append_left _ hring)
      (Watcher.wants_notCovered_iff.2 ⟨hchg, hfalse⟩)
  refine ⟨fun t ht hchg hunc => ?_, fun hcovered t ht hchg hunc => ?_, fun howes t hev hchg => ?_⟩
  · rw [hiff t ht hchg hunc, ← hbooks.newest_eq_ring]
  · rw [hiff t ht hchg hunc]
    rw [← hsplit] at ht
    exact (List.mem_append.1 ht).resolve_left fun hev => hunc (hcovered t hev hchg)
  · by_contra hunc
    have ht : t ∈ before := hsplit ▸ List.mem_append_left _ hev
    exact hgiven t (howes t ht hchg hunc) hev

/-- The ring holds one transaction.  The first one is evicted by the second before the watch
registers, its commit is not visible to the snapshot, and `SnapshotEnd` is sent. -/
theorem evicted_uncovered : ∃ s ws, Reaches machine anyStep s ∧ s.watches[0]? = some ws ∧
    ws.history.need = some (.notCovered (Demo.snapshot 300)) ∧ Event.snapshotEnd ∈ ws.sent ∧
    Demo.transaction 100 15 ∈ ws.history.evicted s.accepted ∧
    (s.hub.registry.cell 0).changesOf (Demo.transaction 100 15) ≠ [] ∧
    (Demo.snapshot 300).covers (Demo.transaction 100 15) = .ok false :=
  Demo.exists_of_run anyStep 1 1
    ([.accept (Demo.transaction 100 15), .accept (Demo.transaction 200 16)] ++
      Demo.openSnapshot ++ Demo.readSnapshot 300) 0
    (fun s ws => ws.history.need = some (.notCovered (Demo.snapshot 300)) ∧
      Event.snapshotEnd ∈ ws.sent ∧ Demo.transaction 100 15 ∈ ws.history.evicted s.accepted ∧
      (s.hub.registry.cell 0).changesOf (Demo.transaction 100 15) ≠ [] ∧
      (Demo.snapshot 300).covers (Demo.transaction 100 15) = .ok false) (by decide)

/-- With room for one transaction and only the newest one uncovered, nothing is hidden: after
`SnapshotEnd` the watch holds that one's batch. -/
theorem uncovered_owed_run : ∃ s ws held, Reaches machine anyStep s ∧ s.watches[0]? = some ws ∧
    ws.history.need = some (.notCovered (Demo.snapshot 300)) ∧ Event.snapshotEnd ∈ ws.sent ∧
    ws.phase.held? = some held ∧ ws.history.evicted s.accepted = [Demo.transaction 100 11] ∧
    (s.hub.registry.cell 0).batchOf (Demo.transaction 200 15) ∈ batchesOf ws.sent ++
      (held ++ (s.hub.registry.cell 0).owed (.notCovered (Demo.snapshot 300))
        ((s.hub.registry.cell 0).queue.map Queued.transaction)) := by
  obtain ⟨s, ws, hr, hws, hneed, hend, hsome, hev, ht, hchg, hunc, hnew⟩ :=
    Demo.exists_of_run anyStep 1 1
      ([.accept (Demo.transaction 100 11), .accept (Demo.transaction 200 15)] ++
        Demo.openSnapshot ++ Demo.readSnapshot 300) 0
      (fun s ws => ws.history.need = some (.notCovered (Demo.snapshot 300)) ∧
        Event.snapshotEnd ∈ ws.sent ∧ ws.phase.held?.isSome ∧
        ws.history.evicted s.accepted = [Demo.transaction 100 11] ∧
        Demo.transaction 200 15 ∈ s.accepted.take ws.history.registeredAt ∧
        (s.hub.registry.cell 0).changesOf (Demo.transaction 200 15) ≠ [] ∧
        (Demo.snapshot 300).covers (Demo.transaction 200 15) ≠ .ok true ∧
        Demo.transaction 200 15 ∈ (s.accepted.take ws.history.registeredAt).drop
          ((s.accepted.take ws.history.registeredAt).length - s.hub.window.maxReplay))
      (by decide)
  obtain ⟨held, hheld⟩ := Option.isSome_iff_exists.1 hsome
  exact ⟨s, ws, held, hr, hws, hneed, hend, hheld, hev,
    ((uncovered_owed_iff hr hws hneed hheld).1 _ ht hchg hunc).2 hnew⟩

/-! ## The resume path -/

/-- **A resumed watch misses nothing.**  At every moment the Batches sent are a prefix of the
batches of all transactions the hub has ever accepted, until it ended the watcher, that are after
the cursor and have a change for the watch. -/
theorem resume_misses_nothing {s : System} (h : Reaches machine anyStep s)
    (hcommit : ∀ t ∈ s.accepted, t.commitLSN < t.cursor.lsn) {id : WatcherId} {ws : WatchState}
    {cursor : Cursor} (hws : s.watches[id]? = some ws)
    (hneed : ws.history.need = some (.after cursor)) :
    let w := s.hub.registry.cell id
    let later := (s.accepted.take (ws.history.endAt s.accepted)).filter fun t =>
      w.changesOf t ≠ [] ∧ t.after cursor = .ok true
    batchesOf ws.sent <+: later.map w.batchOf ∧ later.Pairwise Before := by
  have hinv := Reaches.inv h
  have hbooks := (hinv.watch id ws hws).books
  intro w later
  constructor
  · have hpre := hinv.delivered hws hneed
    -- what was evicted before registration ends at or before the cursor
    have hevicted : w.owed (.after cursor) (ws.history.evicted s.accepted) = [] := by
      refine feed_eq_nil _ _ fun t ht => ?_
      rw [← Bool.not_eq_true, Watcher.wants_after_iff, Transaction.after_eq_true_iff]
      rintro ⟨-, hsrc, hle⟩
      have hacc : t ∈ s.accepted := List.mem_of_mem_take (List.mem_of_mem_take ht)
      have hlt := hcommit t hacc
      have hcur := hbooks.evicted_le hneed t ht hsrc
      omega
    have hall : w.owed (.after cursor) (s.accepted.take (ws.history.endAt s.accepted)) =
        w.owed (.after cursor) (ws.history.stream s.accepted) := by
      rw [← hbooks.evicted_append_stream, Watcher.owed, feed_append]
      show w.owed _ _ ++ w.owed _ _ = _
      rw [hevicted, List.nil_append]
    rw [← hall, Watcher.owed_eq_filter fun t => Watcher.wants_after_iff] at hpre
    exact hpre
  · exact (hinv.ordered.sublist (List.take_sublist _ _)).filter _

/-- A watch that resumes at 500 is sent the later transaction and not the earlier one. -/
theorem resume_misses_nothing_run : ∃ s ws, Reaches machine anyStep s ∧
    (∀ t ∈ s.accepted, t.commitLSN < t.cursor.lsn) ∧ s.watches[1]? = some ws ∧
    ws.history.need = some (.after ⟨"main", 500⟩) ∧ (batchesOf ws.sent).length = 1 ∧
    batchesOf ws.sent <+: ((s.accepted.take (ws.history.endAt s.accepted)).filter fun t =>
      (s.hub.registry.cell 1).changesOf t ≠ [] ∧
        t.after ⟨"main", 500⟩ = .ok true).map (s.hub.registry.cell 1).batchOf := by
  obtain ⟨s, ws, hr, hws, hcommit, hneed, hlen⟩ := Demo.exists_of_run anyStep 10 1
    (Demo.openSnapshot ++ Demo.readSnapshot 300 ++
      [.accept (Demo.transaction 350 21), .accept (Demo.transaction 600 22),
        .open_ ⟨"members", Demo.tenant, "0/1F4"⟩] ++ List.replicate 3 (.watch 1 .run)) 1
    (fun s ws => (∀ t ∈ s.accepted, t.commitLSN < t.cursor.lsn) ∧
      ws.history.need = some (.after ⟨"main", 500⟩) ∧ (batchesOf ws.sent).length = 1) (by decide)
  exact ⟨s, ws, hr, hcommit, hws, hneed, hlen, (resume_misses_nothing hr hcommit hws hneed).1⟩

end Watchd.Watch
