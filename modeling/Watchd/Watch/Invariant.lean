import Watchd.Watch.Handoff

/-!
# The invariant of the hub with its watches

`WatchInv` is what holds of one Watch call: the handoff (`Handoff`) and the
bookkeeping around it (`Books`).  It speaks about the watcher only through its
`view`, so a step that leaves the view alone keeps it for free.  `Inv` puts the
watches together with the route index and the replay window; it holds in every
reachable state (`Reaches.inv`).
-/

namespace Watchd.Watch

open Watchd.Cdc Watchd.Lib

/-! ## Growth of the stream -/

namespace History

variable {hist : History} {accepted : List Transaction}

theorem endAt_of_none (h : hist.ended = none) : hist.endAt accepted = accepted.length := by
  unfold endAt
  rw [h]

theorem endAt_of_some {e : Ended} (h : hist.ended = some e) : hist.endAt accepted = e.accepted := by
  unfold endAt
  rw [h]

theorem since_append_of_none (t : Transaction) (h : hist.ended = none)
    (hle : hist.registeredAt ≤ accepted.length) :
    hist.since (accepted ++ [t]) = hist.since accepted ++ [t] := by
  unfold since
  rw [endAt_of_none h, endAt_of_none h, List.take_length, List.take_length,
    List.drop_append_of_le_length hle]

theorem since_append_of_some (t : Transaction) {e : Ended} (h : hist.ended = some e)
    (hle : e.accepted ≤ accepted.length) :
    hist.since (accepted ++ [t]) = hist.since accepted := by
  unfold since
  rw [endAt_of_some h, endAt_of_some h, List.take_append_of_le_length hle]

/-- The transaction on which the hub ends the watcher does not count. -/
theorem since_ending (t : Transaction) (h : hist.ended = none) :
    History.since { hist with ended := some ⟨t, accepted.length⟩ } (accepted ++ [t]) =
      hist.since accepted := by
  simp [since, endAt, h]

end History

/-! ## The invariant of one watch -/

/-- What was accepted before registration is the ring's contents then, and older transactions the
ring no longer held. -/
def Retained (maxReplay : Nat) (accepted : List Transaction) (hist : History) : Prop :=
  ∃ evicted, accepted.take hist.registeredAt = evicted ++ hist.ring ∧
    hist.ring.length ≤ maxReplay ∧ (evicted ≠ [] → hist.ring.length = maxReplay) ∧
    ∀ cursor, hist.need = some (.after cursor) → ∀ t ∈ evicted,
      t.cursor.sourceID = cursor.sourceID → t.cursor.lsn ≤ cursor.lsn

/-- The phases before registration. -/
def Phase.unstarted : Phase → Bool
  | .start | .resume _ | .snapshot => true
  | _ => false

theorem Phase.unstarted_of_registered {p : Phase} (hp : p.registered = true) :
    p.unstarted = false := by
  cases p <;> first | rfl | cases hp

/-- The history of a watch agrees with the hub's view of its watcher. -/
structure Books (maxReplay : Nat) (accepted : List Transaction) (v : Watcher × Bool) (p : Phase)
    (hist : History) : Prop where
  registered : v.2 = (p.registered && hist.ended.isNone)
  overflow : v.1.overflow = hist.ended.isSome
  unstarted : p.unstarted = true → hist.ended = none ∧ hist.registeredAt = 0
  registeredAt_le : hist.registeredAt ≤ hist.endAt accepted
  endAt_le : hist.endAt accepted ≤ accepted.length
  ended : ∀ e, hist.ended = some e → accepted[e.accepted]? = some e.transaction
  retained : Retained maxReplay accepted hist
  items : ∀ item ∈ v.1.queue, item.changes = v.1.changesOf item.transaction ∧
    v.1.concerns item.transaction = true ∧ item.transaction ∈ hist.since accepted

/-- What holds of a watch in every run. -/
structure WatchInv (maxReplay : Nat) (accepted : List Transaction) (v : Watcher × Bool)
    (ws : WatchState) : Prop where
  books : Books maxReplay accepted v ws.phase ws.history
  handoff : Handoff v.1 ws.history.need ws.history.ring (ws.history.since accepted)
    (batchesOf ws.sent) ws.phase

section Accept

variable {maxReplay : Nat} {accepted : List Transaction} {c : Watcher} {p : Phase}
  {hist : History} {ws : WatchState} (t : Transaction)

theorem Retained.append (hle : hist.registeredAt ≤ accepted.length)
    (h : Retained maxReplay accepted hist) : Retained maxReplay (accepted ++ [t]) hist := by
  unfold Retained at h ⊢
  rw [List.take_append_of_le_length hle]
  exact h

theorem Books.registeredAt_le_length {v : Watcher × Bool} (h : Books maxReplay accepted v p hist) :
    hist.registeredAt ≤ accepted.length :=
  h.registeredAt_le.trans h.endAt_le

/-- The books of a watcher that stays as it is while the hub accepts a transaction. -/
theorem Books.grow {reg : Bool} (h : Books maxReplay accepted (c, reg) p hist) :
    Books maxReplay (accepted ++ [t]) (c, reg) p hist := by
  have hreg := h.registeredAt_le
  have hend := h.endAt_le
  have hlen : (accepted ++ [t]).length = accepted.length + 1 := by simp
  refine ⟨h.registered, h.overflow, h.unstarted, ?_, ?_, ?_,
    h.retained.append t h.registeredAt_le_length, ?_⟩
  · cases he : hist.ended with
    | none =>
      rw [History.endAt_of_none he] at hreg ⊢
      omega
    | some e =>
      rw [History.endAt_of_some he] at hreg ⊢
      exact hreg
  · cases he : hist.ended with
    | none => rw [History.endAt_of_none he]
    | some e =>
      rw [History.endAt_of_some he] at hend ⊢
      omega
  · intro e he
    have hget := h.ended e he
    rw [List.getElem?_append_left (List.getElem?_eq_some_iff.1 hget).1]
    exact hget
  · intro item hitem
    obtain ⟨hchanges, hconcerns, hmem⟩ := h.items item hitem
    refine ⟨hchanges, hconcerns, ?_⟩
    cases he : hist.ended with
    | none =>
      rw [History.since_append_of_none t he h.registeredAt_le_length]
      exact List.mem_append_left _ hmem
    | some e =>
      rw [History.endAt_of_some he] at hend
      rw [History.since_append_of_some t he hend]
      exact hmem

/-- The books of a watcher that is ended while the hub accepts a transaction. -/
theorem Books.ending (reason : ResyncReason) (hended : hist.ended = none)
    (hp : p.registered = true) (h : Books maxReplay accepted (c, true) p hist) :
    Books maxReplay (accepted ++ [t]) (c.endedFor reason, false) p
      { hist with ended := some ⟨t, accepted.length⟩ } := by
  have hreg := h.registeredAt_le
  rw [History.endAt_of_none hended] at hreg
  refine ⟨by simp, rfl, ?_, hreg, ?_, ?_, h.retained.append t hreg, ?_⟩
  · intro hu
    rw [Phase.unstarted_of_registered hp] at hu
    cases hu
  · show accepted.length ≤ (accepted ++ [t]).length
    simp
  · intro e he
    cases he
    simp
  · intro item hitem
    rw [History.since_ending t hended]
    exact h.items item hitem

theorem Books.queued {memo : Option MemoId} (hended : hist.ended = none)
    (hconcerns : c.concerns t = true) (h : Books maxReplay accepted (c, true) p hist) :
    Books maxReplay (accepted ++ [t])
      ({ c with queue := c.queue ++ [⟨t, c.changesOf t, memo⟩] }, true) p hist := by
  have hgrow := h.grow t
  refine ⟨hgrow.registered, hgrow.overflow, hgrow.unstarted, hgrow.registeredAt_le,
    hgrow.endAt_le, hgrow.ended, hgrow.retained, ?_⟩
  intro item hitem
  rcases List.mem_append.1 hitem with hitem | hitem
  · exact hgrow.items item hitem
  · rw [List.mem_singleton.1 hitem]
    refine ⟨rfl, hconcerns, ?_⟩
    rw [History.since_append_of_none t hended h.registeredAt_le_length]
    exact List.mem_append_right _ List.mem_cons_self

theorem Watcher.concerns_iff {c : Watcher} {t : Transaction} :
    c.concerns t = true ↔ c.changesOf t ≠ [] := by
  unfold concerns
  rw [decide_eq_true_eq, gt_iff_lt, List.length_pos_iff]

/-- Accepting a transaction keeps the invariant of an unregistered watch. -/
theorem WatchInv.accept_unregistered (h : WatchInv maxReplay accepted (c, false) ws) :
    WatchInv maxReplay (accepted ++ [t]) (c, false) ws := by
  refine ⟨h.books.grow t, ?_⟩
  have hhand := h.handoff
  have hend := h.books.endAt_le
  have hregd := h.books.registered
  cases he : ws.history.ended with
  | some e =>
    rw [History.endAt_of_some he] at hend
    rw [History.since_append_of_some t he hend]
    exact hhand
  | none =>
    -- not registered and not ended: only what was sent matters
    rw [History.since_append_of_none t he h.books.registeredAt_le_length]
    simp only [he, Option.isNone_none, Bool.and_true] at hregd
    generalize ws.phase = p at hhand hregd
    cases p with
    | start | snapshot | resume _ | refuse _ => exact hhand
    | returned result => exact Delivered.mono hhand (List.prefix_append _ _)
    | _ => cases hregd

/-- Accepting a transaction keeps the invariant of a registered watch. -/
theorem WatchInv.accept_registered {size : Nat} {v' : Watcher × Bool}
    (h : WatchInv maxReplay accepted (c, true) ws) (ho : Outcome size t c v') :
    WatchInv maxReplay (accepted ++ [t]) v' (if v'.2 then ws else
      { ws with history := { ws.history with ended := some ⟨t, accepted.length⟩ } }) := by
  have hreg := h.books.registered
  obtain ⟨hp, he⟩ : ws.phase.registered = true ∧ ws.history.ended = none := by
    simpa using hreg.symm
  have hle := h.books.registeredAt_le_length
  cases ho with
  | schemaChanged hrep =>
    refine ⟨h.books.ending t _ he hp, ?_⟩
    rw [if_neg (by simp)]
    simp only [History.since_ending t he]
    exact h.handoff.endedFor _
  | unconcerned hrep hc =>
    refine ⟨h.books.grow t, ?_⟩
    rw [if_pos rfl, History.since_append_of_none t he hle]
    refine h.handoff.skip ?_
    rw [← Bool.not_eq_true, Watcher.concerns_iff]
    exact not_not.2 hc
  | queued hrep hc hroom memo =>
    have hconcerns := Watcher.concerns_iff.2 hc
    refine ⟨h.books.queued t he hconcerns, ?_⟩
    rw [if_pos rfl, History.since_append_of_none t he hle]
    exact h.handoff.publish rfl hconcerns hp
  | slow hrep hc hfull =>
    refine ⟨h.books.ending t _ he hp, ?_⟩
    rw [if_neg (by simp)]
    simp only [History.since_ending t he]
    exact h.handoff.endedFor _

end Accept

/-! ## The watch's own steps -/

section Own

variable {maxReplay : Nat} {accepted evicted : List Transaction} {c : Watcher} {reg : Bool}
  {p p' : Phase} {hist hist' : History}

/-- The books after a step that neither registers nor unregisters. -/
theorem Books.move {queue : List Queued} (h : Books maxReplay accepted (c, reg) p hist)
    (hreg : p'.registered = p.registered) (hun : p'.unstarted = true → p.unstarted = true)
    (hended : hist'.ended = hist.ended) (hat : hist'.registeredAt = hist.registeredAt)
    (hring : hist'.ring = hist.ring)
    (hneed : ∀ cursor, hist'.need = some (.after cursor) →
      hist.need = some (.after cursor) ∨ p.unstarted = true)
    (hqueue : queue ⊆ c.queue) :
    Books maxReplay accepted ({ c with queue := queue }, reg) p' hist' := by
  have hend : hist'.endAt accepted = hist.endAt accepted := by
    unfold History.endAt
    rw [hended]
  have hsince : hist'.since accepted = hist.since accepted := by
    unfold History.since
    rw [hend, hat]
  refine ⟨by rw [hreg, hended]; exact h.registered, by rw [hended]; exact h.overflow, ?_,
    by rw [hend, hat]; exact h.registeredAt_le, by rw [hend]; exact h.endAt_le,
    by rw [hended]; exact h.ended, ?_, ?_⟩
  · intro hu
    rw [hended, hat]
    exact h.unstarted (hun hu)
  · obtain ⟨evicted, hsplit, hbounded, hfull, hfloor⟩ := h.retained
    refine ⟨evicted, by rw [hat, hring]; exact hsplit, by rw [hring]; exact hbounded,
      by rw [hring]; exact hfull, ?_⟩
    intro cursor hcursor t ht
    rcases hneed cursor hcursor with hold | hu
    · exact hfloor cursor hold t ht
    · -- nothing was accepted before a registration that has not happened
      rw [(h.unstarted hu).2, List.take_zero] at hsplit
      rw [(List.append_eq_nil_iff.1 hsplit.symm).1] at ht
      cases ht
  · intro item hitem
    rw [hsince]
    exact h.items item (hqueue hitem)

/-- The books after a step that leaves the watcher and the history alone. -/
theorem Books.stay (h : Books maxReplay accepted (c, reg) p hist)
    (hreg : p'.registered = p.registered) (hun : p'.unstarted = false) :
    Books maxReplay accepted (c, reg) p' hist :=
  h.move hreg (fun hu => by rw [hun] at hu; cases hu) rfl rfl rfl (fun _ hn => .inl hn)
    fun _ hq => hq

/-- The books after registration. -/
theorem Books.register {w : Window} (h : Books maxReplay accepted (c, reg) p hist)
    (hun : p.unstarted = true) (hp' : p'.registered = true) (hu' : p'.unstarted = false)
    (hqueue : c.queue = []) (hacc : accepted = evicted ++ w.ring) (hret : w.Retains evicted)
    (hfloor : ∀ cursor, hist.need = some (.after cursor) → w.replayableLocked cursor = true) :
    Books w.maxReplay accepted (c, true) p'
      { hist with ring := w.ring, registeredAt := accepted.length } := by
  obtain ⟨hended, -⟩ := h.unstarted hun
  have hend : History.endAt { hist with ring := w.ring, registeredAt := accepted.length } accepted =
      accepted.length := History.endAt_of_none hended
  refine ⟨by simp [hp', hended], h.overflow, ?_, Nat.le_of_eq hend.symm, Nat.le_of_eq hend,
    ?_, ?_, ?_⟩
  · intro hu
    rw [hu'] at hu
    cases hu
  · intro e he
    simp [hended] at he
  · refine ⟨evicted, by rw [List.take_length]; exact hacc, hret.bounded, hret.full, ?_⟩
    intro cursor hneed
    exact hret.le_of_replayable (hfloor cursor hneed)
  · intro item hitem
    rw [hqueue] at hitem
    cases hitem

theorem Books.unregister {result : Option GoError}
    (h : Books maxReplay accepted (c, reg) (.unregister result) hist) :
    Books maxReplay accepted (c, false) (.returned result) hist :=
  ⟨rfl, h.overflow, nofun, h.registeredAt_le, h.endAt_le, h.ended, h.retained, h.items⟩

end Own

section Moves

variable {s : System} {id : WatcherId} {p : Phase} {m : Move} {hist : History}
  {evicted : List Transaction} {sent : List Batch}

theorem Hub.pop_view (h : Hub) (id : WatcherId) (queue : List Queued) :
    (h.pop id queue).registry.view id =
      ({ h.registry.cell id with queue := queue }, (h.registry.view id).2) := by
  rw [Registry.view, Hub.pop_cell_self]
  rfl

theorem Hub.register_view (h : Hub) (id : WatcherId) :
    (h.register id).registry.view id = (h.registry.cell id, true) := by
  rw [Registry.view, Hub.register_cell, Hub.register, Registry.registerLocked,
    Registry.updateRoute_watchers]
  simp

theorem Books.moves (hm : Moves s.hub id p m) (hret : s.hub.window.Retains evicted)
    (hacc : s.accepted = evicted ++ s.hub.window.ring)
    (hhand : Handoff (s.hub.registry.cell id) hist.need hist.ring (hist.since s.accepted) sent p)
    (hidx : s.hub.registry.watchers.Nodup)
    (h : Books s.hub.window.maxReplay s.accepted (s.hub.registry.view id) p hist) :
    Books s.hub.window.maxReplay s.accepted (m.hub.registry.view id) m.phase
      (hist.note s id p m.phase) := by
  have hall : (s.hub.registry.cell id).queue ⊆ (s.hub.registry.cell id).queue := fun _ hq => hq
  cases hm with
  | parsed cursor hsrc => exact h.move rfl (fun _ => rfl) rfl rfl rfl (fun _ _ => .inr rfl) hall
  | scratch => exact h.move rfl (fun _ => rfl) rfl rfl rfl (fun _ hn => .inl hn) hall
  | turnedAway p p' hp hp' =>
    rw [History.note_of_turnedAway hp']
    have hreg : p'.registered = p.registered := by
      rcases hp with rfl | ⟨cursor, rfl⟩ <;> rcases hp' with ⟨r, rfl⟩ | ⟨e, rfl⟩ <;> rfl
    have hun : p'.unstarted = false := by
      rcases hp' with ⟨r, rfl⟩ | ⟨e, rfl⟩ <;> rfl
    exact h.stay hreg hun
  | resumed cursor batches hfloor hbatches =>
    rw [Hub.register_view]
    refine h.register rfl rfl rfl hhand.2.1 hacc hret ?_
    intro cursor' hneed
    rw [hhand.2.2] at hneed
    cases hneed
    exact hfloor
  | registered =>
    rw [Hub.register_view]
    refine h.register rfl rfl rfl hhand.2.1 hacc hret ?_
    intro cursor hneed
    rw [hhand.2.2] at hneed
    cases hneed
  | begun streamed => exact h.stay rfl rfl
  | rows streamed rows => exact h.stay rfl rfl
  | read streamed snap => exact h.move rfl nofun rfl rfl rfl nofun hall
  | installs streamed snap hover => exact h.stay rfl rfl
  | cleared streamed snap stale batches hbatches => exact h.stay rfl rfl
  | recorded batches snap => exact h.stay rfl rfl
  | installed batches snap => exact h.stay rfl rfl
  | caughtUp args => exact h.stay rfl rfl
  | replayed b batches args => exact h.stay rfl rfl
  | positioned args round => exact h.move rfl nofun rfl rfl rfl (fun _ hn => .inl hn) hall
  | drained args round pos tick hqueue => exact h.stay rfl rfl
  | received args round pos tick item queue hqueue hneed =>
    rw [Hub.pop_view]
    exact h.move rfl nofun rfl rfl rfl (fun _ hn => .inl hn)
      (by rw [hqueue]; exact List.subset_cons_self _ _)
  | skipped args round pos tick item queue hqueue hneed =>
    rw [Hub.pop_view]
    exact h.move rfl nofun rfl rfl rfl (fun _ hn => .inl hn)
      (by rw [hqueue]; exact List.subset_cons_self _ _)
  | delivered args round pos tick item => exact h.stay rfl rfl
  | progressed args round pos tick hdue => exact h.stay rfl rfl
  | unchanged args round pos tick => exact h.stay rfl rfl
  | woken args progressed tick => exact h.stay rfl rfl
  | leaves p p' stale hp hp' =>
    rw [History.note_of_leaving hp']
    have hreg : p'.registered = p.registered := by
      rw [hp]
      cases p' <;> first | rfl | cases hp'
    exact h.stay hreg (Phase.unstarted_of_registered (hreg.trans hp))
  | incomparable args round pos tick item queue hqueue err =>
    rw [Hub.pop_view]
    exact h.move rfl nofun rfl rfl rfl (fun _ hn => .inl hn)
      (by rw [hqueue]; exact List.subset_cons_self _ _)
  | resynced reason => exact h.stay rfl rfl
  | refused reason => exact h.stay rfl rfl
  | refusalFailed reason err => exact h.stay rfl rfl
  | unregistered result =>
    have hview : (s.hub.registry.unregister id).view id = (s.hub.registry.cell id, false) := by
      simp [Registry.view, Registry.unregister, Registry.removeLocked_cell,
        Registry.removeLocked_watchers, hidx.mem_erase_iff]
    simp only [hview]
    exact h.unregister

end Moves

end Watchd.Watch
