import Watchd.Server.Wire

/-!
# Shared encodings

Watchers of one scope share a memo, and the first of them to send the batch
converts it for all.  A memo is made for one item, which every watcher that
shares it gets, so it makes no difference who converts: every batch is sent as
its own conversion.

This is `Served.batchMessage_eq`.
-/

namespace Watchd.Wire

open Watchd.Cdc Watchd.Watch Watchd.Lib

/-! ## One memo, one item -/

/-- The item has no memo, or one of the first `n`, which was made for it. -/
def Stamp (content : MemoId → Queued) (n : Nat) (item : Queued) : Prop :=
  ∀ memo, item.memo = some memo → memo < n ∧ content memo = item

/-- Every queued item is the one its memo was made for. -/
def Registry.Stamped (content : MemoId → Queued) (n : Nat) (r : Registry) : Prop :=
  ∀ id, ∀ item ∈ (r.cell id).queue, Stamp content n item

section Deliver

variable {content content' : MemoId → Queued} {n n' : Nat} {r : Registry}

theorem Stamp.mono {item : Queued} (h : Stamp content n item) (hn : n ≤ n')
    (hcontent : ∀ memo < n, content' memo = content memo) : Stamp content' n' item := by
  intro memo hmemo
  obtain ⟨hlt, heq⟩ := h memo hmemo
  exact ⟨hlt.trans_le hn, (hcontent memo hlt).trans heq⟩

theorem offer_queue {item item' : Queued} {w w' : WatcherId}
    (h : item' ∈ ((r.offer item w).cell w').queue) : item' ∈ (r.cell w').queue ∨ item' = item := by
  unfold Registry.offer at h
  split at h
  · by_cases hw : w' = w
    · subst hw
      simpa [Registry.setCell] using h
    · exact .inl (by simpa [Registry.setCell, hw] using h)
  · rw [Registry.dropLocked, Registry.endLocked_cell] at h
    split at h
    · next hw => exact .inl (hw.1 ▸ h)
    · exact .inl h

/-- Handing out one item adds nothing else to any queue. -/
theorem foldl_offer_queue {item item' : Queued} {ws : List WatcherId} {w : WatcherId}
    (h : item' ∈ ((ws.foldl (fun r w => r.offer item w) r).cell w).queue) :
    item' ∈ (r.cell w).queue ∨ item' = item := by
  induction ws generalizing r with
  | nil => exact .inl h
  | cons w₀ ws ih =>
    rcases ih h with hmem | heq
    · exact offer_queue hmem
    · exact .inr heq

/-- A delivery stamps its item with a memo of its own, if with any. -/
theorem deliver_stamped {h : Hub} (t : Transaction) (d : Delivery)
    (hs : Registry.Stamped content h.memos h.registry) :
    ∃ content', (∀ memo < h.memos, content' memo = content memo) ∧
      h.memos ≤ (h.deliver t d).memos ∧
      Registry.Stamped content' (h.deliver t d).memos (h.deliver t d).registry := by
  by_cases hshared : d.watchers.length > 1
  · have hother : ∀ memo < h.memos,
        Function.update content h.memos ⟨t, d.changes, some h.memos⟩ memo = content memo :=
      fun memo hlt => Function.update_of_ne hlt.ne ..
    refine ⟨_, hother, by simp [Hub.deliver, hshared], fun id item hitem => ?_⟩
    simp only [Hub.deliver, hshared, if_true] at hitem ⊢
    rcases foldl_offer_queue hitem with hmem | rfl
    · exact (hs id item hmem).mono (Nat.le_succ _) hother
    · intro memo hmemo
      cases hmemo
      exact ⟨Nat.lt_succ_self _, Function.update_self ..⟩
  · refine ⟨content, fun _ _ => rfl, by simp [Hub.deliver, hshared], fun id item hitem => ?_⟩
    simp only [Hub.deliver, hshared, if_false] at hitem ⊢
    rcases foldl_offer_queue hitem with hmem | rfl
    · exact hs id item hmem
    · exact nofun

theorem foldl_deliver_stamped (t : Transaction) (ds : List Delivery) {h : Hub}
    (hs : Registry.Stamped content h.memos h.registry) :
    ∃ content', (∀ memo < h.memos, content' memo = content memo) ∧
      h.memos ≤ (ds.foldl (Hub.deliver t) h).memos ∧
      Registry.Stamped content' (ds.foldl (Hub.deliver t) h).memos
        (ds.foldl (Hub.deliver t) h).registry := by
  induction ds generalizing h content with
  | nil => exact ⟨content, fun _ _ => rfl, Nat.le_refl _, hs⟩
  | cons d ds ih =>
    obtain ⟨content₁, heq₁, hle₁, hs₁⟩ := deliver_stamped t d hs
    obtain ⟨content₂, heq₂, hle₂, hs₂⟩ := ih hs₁
    refine ⟨content₂, fun memo hlt => ?_, hle₁.trans hle₂, hs₂⟩
    rw [heq₂ memo (hlt.trans_le hle₁), heq₁ memo hlt]

/-- Ending watchers touches no queue. -/
theorem endTables_queue (is : List IncompatibleRelationError) (r : Registry) (w : WatcherId) :
    ((is.foldl (fun r i => r.endTable i.table) r).cell w).queue = (r.cell w).queue := by
  have hround : ∀ (table : String) (ws : List WatcherId) (r : Registry),
      ((ws.foldl (Registry.endIfOf table) r).cell w).queue = (r.cell w).queue := by
    intro table ws
    induction ws with
    | nil => exact fun _ => rfl
    | cons w₀ ws ih =>
      intro r
      rw [List.foldl_cons, ih, Registry.endIfOf_cell]
      split
      · next h =>
        rw [h.1]
        rfl
      · rfl
  induction is generalizing r with
  | nil => rfl
  | cons i is ih => rw [List.foldl_cons, ih, Registry.endTable_eq, hround]

theorem acceptNew_stamped {h : Hub} (t : Transaction)
    (hs : Registry.Stamped content h.memos h.registry) :
    ∃ content', (∀ memo < h.memos, content' memo = content memo) ∧
      h.memos ≤ (h.acceptNew t).memos ∧
      Registry.Stamped content' (h.acceptNew t).memos (h.acceptNew t).registry := by
  have hadvance : Registry.Stamped content (h.advance t).memos (h.advance t).registry := by
    rw [Hub.advance_eq]
    intro id item hitem
    rw [endTables_queue] at hitem
    exact hs id item hitem
  obtain ⟨content', heq, hle, hs'⟩ := foldl_deliver_stamped t
    ((h.advance t).scratch.collect (h.advance t).registry t).deliveries hadvance
  have hmemos : (h.advance t).memos = h.memos := by rw [Hub.advance_eq]
  rw [hmemos] at heq hle
  exact ⟨content', heq, hle, hs'⟩

end Deliver

/-! ## Every run -/

/-- Every item in a queue, or taken from one and about to be sent, is the one its memo was made
for. -/
structure Stamped (content : MemoId → Queued) (s : System) : Prop where
  queued : Registry.Stamped content s.hub.memos s.hub.registry
  taken : ∀ (id : WatcherId) ws args round pos tick item, s.watches[id]? = some ws →
    ws.phase = .deliver args round pos tick item → Stamp content s.hub.memos item

section Moves

variable {h : Hub} {id : WatcherId} {p : Phase} {m : Move}

theorem moves_memos (hm : Moves h id p m) : m.hub.memos = h.memos := by
  cases hm <;> rfl

theorem moves_queue (hm : Moves h id p m) :
    ∀ item ∈ (m.hub.registry.cell id).queue, item ∈ (h.registry.cell id).queue := by
  have hpop : ∀ {item : Queued} {queue : List Queued}, (h.registry.cell id).queue = item :: queue →
      ∀ item' ∈ ((h.pop id queue).registry.cell id).queue, item' ∈ (h.registry.cell id).queue := by
    intro item queue hqueue item' hitem'
    rw [Hub.pop_cell_self] at hitem'
    rw [hqueue]
    exact List.mem_cons_of_mem _ hitem'
  intro item hitem
  cases hm with
  | resumed cursor batches hfloor hbatches => exact (h.register_cell id ▸ hitem :)
  | registered => exact (h.register_cell id ▸ hitem :)
  | received args round pos tick item₀ queue hqueue hneed => exact hpop hqueue item hitem
  | skipped args round pos tick item₀ queue hqueue hneed => exact hpop hqueue item hitem
  | incomparable args round pos tick item₀ queue hqueue err => exact hpop hqueue item hitem
  | unregistered result =>
    have hcell := Registry.removeLocked_cell h.registry id
    exact (hcell ▸ hitem :)
  | _ => exact hitem

/-- The item a watch is about to send was in its queue. -/
theorem moves_deliver (hm : Moves h id p m) {args : LiveArgs} {round : Round} {pos : Cursor}
    {tick : TickId} {item : Queued} (hp : m.phase = .deliver args round pos tick item) :
    item ∈ (h.registry.cell id).queue := by
  cases hm with
  | received args' round' pos' tick' item' queue hqueue hneed =>
    cases hp
    rw [hqueue]
    exact List.mem_cons_self
  | turnedAway p p' hp' hp'' => rcases hp'' with ⟨reason, rfl⟩ | ⟨err, rfl⟩ <;> cases hp
  | leaves p p' stale hp' hleaving =>
    simp only at hp
    subst hp
    cases hleaving
  | _ => cases hp

end Moves

/-- A step keeps the memos there are, and stamps new items with new ones. -/
theorem Stamped.stepped {content : MemoId → Queued} {s s' : System} {l : Watch.Label}
    (h : Stamped content s) (hs : s.Stepped l s') :
    ∃ content', (∀ memo < s.hub.memos, content' memo = content memo) ∧
      s.hub.memos ≤ s'.hub.memos ∧ Stamped content' s' := by
  have htaken : ∀ (id : WatcherId) (ws' : WatchState) args round pos tick item,
      s'.watches[id]? = some ws' →
      ws'.phase = .deliver args round pos tick item → Stamp content s.hub.memos item := by
    intro id ws' args round pos tick item hws' hp
    cases hs.origin hws' with
    | kept ws ended hws _ => exact h.taken id ws args round pos tick item hws hp
    | opened req p _ _ hp' => rcases hp' with rfl | ⟨err, rfl⟩ <;> cases hp
    | moved act ws m _ hws hm _ => exact h.queued id item (moves_deliver hm hp)
  cases hs with
  | accepted t hnew closing =>
    obtain ⟨content', heq, hle, hqueued⟩ := acceptNew_stamped t h.queued
    refine ⟨content', heq, hle, hqueued, fun id ws args round pos tick item hws hp => ?_⟩
    exact (htaken id ws args round pos tick item hws hp).mono hle heq
  | idle l stopped closing closed => exact ⟨content, fun _ _ => rfl, Nat.le_refl _, h.1, htaken⟩
  | unknown req err hp => exact ⟨content, fun _ _ => rfl, Nat.le_refl _, h.1, htaken⟩
  | opened req p hp =>
    refine ⟨content, fun _ _ => rfl, Nat.le_refl _, fun id item hitem => ?_, htaken⟩
    by_cases hid : id = s.watches.length
    · subst hid
      simp [Registry.setCell] at hitem
    · exact h.queued id item (by simpa [Registry.setCell, hid] using hitem)
  | moved id act ws m hws hm =>
    have hmemos : m.hub.memos = s.hub.memos := moves_memos hm
    refine ⟨content, fun _ _ => rfl, hmemos.ge, ?_, hmemos ▸ htaken⟩
    intro id' item hitem
    show Stamp content m.hub.memos item
    rw [hmemos]
    by_cases hid : id' = id
    · subst hid
      exact h.queued id' item (moves_queue hm item hitem)
    · have hcell := (Registry.view_eq.1 (hm.view_of_ne hid)).1
      exact h.queued id' item (hcell ▸ hitem :)

/-- Every memo that has been loaded holds the conversion of the item it was made for. -/
def Memos.Faithful (srv : Server) (content : MemoId → Queued) (n : Nat) (memos : Memos) : Prop :=
  ∀ memo msg, memos memo = some msg → memo < n ∧ msg = srv.convertBatch (content memo).batch

namespace Served

variable {srv : Server} {s : Served}

/-- Memos are used as they should be. -/
def Sharing (srv : Server) (s : Served) : Prop :=
  ∃ content, Stamped content s.system ∧ s.memos.Faithful srv content s.system.hub.memos

/-- The message of a stamped item is its own conversion, whoever loaded its memo. -/
theorem batchMessage_of_stamp {content : MemoId → Queued} {n : Nat} {memos : Memos} {item : Queued}
    (hitem : Stamp content n item) (hmemos : memos.Faithful srv content n) :
    srv.batchMessage memos item.batch = srv.convertBatch item.batch := by
  unfold Server.batchMessage
  cases hbind : item.batch.memo.bind memos with
  | none => rfl
  | some msg =>
    obtain ⟨memo, hmemo, hmsg⟩ := Option.bind_eq_some_iff.1 hbind
    rw [Option.getD_some, (hmemos memo msg hmsg).2, (hitem memo hmemo).2]

/-- The batch a watch is about to send: its message, and what its memo was made for. -/
theorem batchAt_stamped {content : MemoId → Queued} (hinv : Inv s.system)
    (hs : Stamped content s.system) (hmemos : s.memos.Faithful srv content s.system.hub.memos)
    {id : WatcherId} {ws : WatchState} {b : Batch} (hws : s.system.watches[id]? = some ws)
    (hb : batchAt ws.phase = some b) :
    srv.batchMessage s.memos b = srv.convertBatch b ∧
      ∀ memo, b.memo = some memo → memo < s.system.hub.memos ∧ b = (content memo).batch := by
  have hhand := (hinv.watch id ws hws).handoff
  cases hp : ws.phase with
  | backlog held args =>
    rw [hp] at hb hhand
    cases held with
    | nil => cases hb
    | cons b' held =>
      cases hb
      have hnone : b.memo = none := by
        rw [← Owes.bare_eq hhand List.mem_cons_self]
        rfl
      refine ⟨by simp [Server.batchMessage, hnone], fun memo hmemo => ?_⟩
      rw [hnone] at hmemo
      cases hmemo
  | deliver args round pos tick item =>
    rw [hp] at hb
    cases hb
    have hstamp := hs.taken id ws args round pos tick item hws hp
    refine ⟨batchMessage_of_stamp hstamp hmemos, fun memo hmemo => ?_⟩
    obtain ⟨hlt, heq⟩ := hstamp memo hmemo
    exact ⟨hlt, by rw [heq]⟩
  | _ =>
    rw [hp] at hb
    cases hb

theorem Sharing.loaded {content : MemoId → Queued} (hinv : Inv s.system)
    (hs : Stamped content s.system) (hmemos : s.memos.Faithful srv content s.system.hub.memos)
    (l : Watch.Label) : (s.loaded srv l).Faithful srv content s.system.hub.memos := by
  unfold Served.loaded
  split
  · split
    · next b hb =>
      obtain ⟨ws, hws, hb⟩ := Option.bind_eq_some_iff.1 hb
      obtain ⟨hmsg, hmade⟩ := batchAt_stamped hinv hs hmemos hws hb
      unfold Server.load
      split
      · exact hmemos
      · next memo hmemo =>
        obtain ⟨hlt, heq⟩ := hmade memo hmemo
        intro memo' msg hload
        by_cases hsame : memo' = memo
        · subst hsame
          rw [Function.update_self, Option.some.injEq] at hload
          exact ⟨hlt, by rw [← hload, hmsg, ← heq]⟩
        · rw [Function.update_of_ne hsame] at hload
          exact hmemos memo' msg hload
    · exact hmemos
  · exact hmemos

theorem Sharing.stepped {system : System} {l : Watch.Label} {memos : Memos}
    {streams : WatcherId → List Message} (hinv : Inv s.system) (h : s.Sharing srv)
    (hstep : s.system.step l = some system) (hmemos : memos = s.memos ∨ memos = s.loaded srv l) :
    Sharing srv ⟨system, memos, streams⟩ := by
  obtain ⟨content, hs, hfaithful⟩ := h
  obtain ⟨content', heq, hle, hs'⟩ := hs.stepped (System.step_stepped hstep)
  have hold : memos.Faithful srv content s.system.hub.memos := by
    rcases hmemos with rfl | rfl
    · exact hfaithful
    · exact Sharing.loaded hinv hs hfaithful l
  refine ⟨content', hs', fun memo msg hmsg => ?_⟩
  obtain ⟨hlt, hconv⟩ := hold memo msg hmsg
  exact ⟨hlt.trans_le hle, by rw [heq memo hlt, hconv]⟩

/-- Memos are used as they should be in every run. -/
theorem sharing {ok : Served → Served.Label → Prop} (h : Reaches (served srv) ok s) :
    s.Sharing srv := by
  refine h.invariant ?_ ?_
  · rintro s ⟨system, ⟨parseLSN, cfg, hub, hnew, rfl⟩, rfl⟩
    obtain ⟨projections, maxReplay, queueSize, rfl⟩ := Hub.new_ok hnew
    refine ⟨fun _ => ⟨⟨.zero, [], 0, [], 0, 0⟩, [], none⟩, ⟨?_, ?_⟩, nofun⟩
    · intro id item hitem
      cases hitem
    · intro id ws args round pos tick item hws
      simp at hws
  · intro s l s' hreach hs _ hstep
    have hinv := Reaches.inv (Served.reaches hreach)
    cases l with
    | hub l =>
      obtain ⟨system, hsystem, rfl⟩ := Option.map_eq_some_iff.1 hstep
      exact hs.stepped hinv hsystem (.inr rfl)
    | cut id rows n err =>
      simp only [served, step] at hstep
      split at hstep
      · obtain ⟨system, hsystem, rfl⟩ := Option.map_eq_some_iff.1 hstep
        exact hs.stepped hinv hsystem (.inl rfl)
      · cases hstep

/-- **Sharing an encoding makes no difference**: in every run, a batch is sent as its own
conversion. -/
theorem batchMessage_eq {ok : Served → Served.Label → Prop} (h : Reaches (served srv) ok s)
    {id : WatcherId} {ws : WatchState} {b : Batch} (hws : s.system.watches[id]? = some ws)
    (hb : batchAt ws.phase = some b) : srv.batchMessage s.memos b = srv.convertBatch b := by
  obtain ⟨content, hs, hmemos⟩ := sharing h
  exact (batchAt_stamped (Reaches.inv (Served.reaches h)) hs hmemos hws hb).1

end Served

end Watchd.Wire
