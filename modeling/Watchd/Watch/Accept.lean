import Watchd.Watch.Fanout

/-!
# What accepting a transaction does to each watcher

`Hub.acceptNew_outcome` is the only fact about `Accept`'s routing the rest of the
development uses: a registered watcher is ended because its table changed shape,
is not concerned, has its part of the transaction appended to its queue, or is
dropped because the queue is full; an unregistered one is left alone.
-/

namespace Watchd.Watch

open Watchd.Cdc Watchd.Lib

/-- A watcher and whether it is registered. -/
def Registry.view (r : Registry) (w : WatcherId) : Watcher × Bool :=
  (r.cell w, decide (w ∈ r.watchers))

theorem Registry.view_eq {r : Registry} {w : WatcherId} {c : Watcher} {b : Bool} :
    r.view w = (c, b) ↔ r.cell w = c ∧ decide (w ∈ r.watchers) = b := by
  simp [view]

theorem Registry.view_congr {r r' : Registry} {w : WatcherId} (hcell : r'.cell w = r.cell w)
    (hmem : w ∈ r'.watchers ↔ w ∈ r.watchers) : r'.view w = r.view w :=
  Prod.ext hcell (decide_eq_decide.2 hmem)

/-! ## Offering an item -/

/-- What offering an item does to a registered watcher. -/
inductive Offered (size : Nat) (item : Queued) (c : Watcher) : Watcher × Bool → Prop
  | room (h : c.queue.length < size) :
    Offered size item c ({ c with queue := c.queue ++ [item] }, true)
  | full (h : size ≤ c.queue.length) : Offered size item c (c.endedFor .slowWatcher, false)

namespace Registry

theorem offer_view_of_ne {r : Registry} {w w' : WatcherId} (h : w' ≠ w) (item : Queued) :
    (r.offer item w).view w' = r.view w' := by
  unfold offer
  split
  · exact view_congr (by simp [setCell, h]) Iff.rfl
  · refine view_congr ?_ ?_
    · simp [dropLocked, endLocked_cell, h]
    · rw [dropLocked, endLocked_watchers, List.mem_erase_of_ne h]

@[simp] theorem offer_queueSize (r : Registry) (item : Queued) (w : WatcherId) :
    (r.offer item w).queueSize = r.queueSize := by
  unfold offer
  split
  · rfl
  · exact endLocked_queueSize r w _

end Registry

theorem Indexed.offer {r : Registry} (h : Indexed r) (item : Queued) (w : WatcherId) :
    Indexed (r.offer item w) := by
  unfold Registry.offer
  split
  · exact h.setCell rfl rfl
  · exact h.endLocked w _

theorem Indexed.offered {r : Registry} (h : Indexed r) {w : WatcherId} (hw : w ∈ r.watchers)
    (item : Queued) : Offered r.queueSize item (r.cell w) ((r.offer item w).view w) := by
  unfold Registry.offer
  split
  · next hroom =>
    have hview : (r.setCell w { r.cell w with queue := (r.cell w).queue ++ [item] }).view w =
        ({ r.cell w with queue := (r.cell w).queue ++ [item] }, true) := by
      simp [Registry.view, Registry.setCell, hw]
    rw [hview]
    exact .room hroom
  · next hfull =>
    have hview : (r.dropLocked w).view w = ((r.cell w).endedFor .slowWatcher, false) := by
      simp [Registry.view, Registry.dropLocked, Registry.endLocked_cell,
        Registry.endLocked_watchers, hw, h.watchers_nodup.mem_erase_iff]
    rw [hview]
    exact .full (Nat.not_lt.1 hfull)

/-- Offering one item to several watchers. -/
theorem Indexed.foldl_offer (item : Queued) {ws : List WatcherId} (hws : ws.Nodup) :
    ∀ {r : Registry}, Indexed r →
      let r' := ws.foldl (fun r w => r.offer item w) r
      Indexed r' ∧ r'.queueSize = r.queueSize ∧
      (∀ w, w ∉ ws → r'.view w = r.view w) ∧
      (∀ w ∈ ws, w ∈ r.watchers → Offered r.queueSize item (r.cell w) (r'.view w)) := by
  induction ws with
  | nil =>
    intro r h
    exact ⟨h, rfl, fun _ _ => rfl, fun _ hw => by cases hw⟩
  | cons w₀ ws ih =>
    intro r h
    obtain ⟨hw₀, hws⟩ := List.nodup_cons.1 hws
    obtain ⟨hidx, hsize, hout, hin⟩ := ih hws (h.offer item w₀)
    refine ⟨hidx, hsize.trans (Registry.offer_queueSize ..), fun w hw => ?_, fun w hw hreg => ?_⟩
    · rw [List.mem_cons, not_or] at hw
      exact (hout w hw.2).trans (Registry.offer_view_of_ne hw.1 item)
    · rcases List.mem_cons.1 hw with rfl | hw
      · rw [List.foldl_cons, hout w hw₀]
        exact h.offered hreg item
      · -- the offer to `w₀` leaves `w` as it was
        have hne : w ≠ w₀ := fun e => hw₀ (e ▸ hw)
        obtain ⟨hcell, hmem⟩ := Registry.view_eq.1 (Registry.offer_view_of_ne (r := r) hne item)
        have hnext := hin w hw (by simpa [hreg] using hmem)
        rwa [hcell, Registry.offer_queueSize] at hnext

/-! ## Handing out the deliveries -/

/-- `deliver` touches nothing but the registry and the memos. -/
theorem Hub.foldl_deliver_eq (t : Transaction) (ds : List Delivery) (h : Hub) :
    ∃ registry memos,
      ds.foldl (Hub.deliver t) h = { h with registry := registry, memos := memos } := by
  induction ds generalizing h with
  | nil => exact ⟨h.registry, h.memos, rfl⟩
  | cons d ds ih =>
    obtain ⟨registry, memos, heq⟩ := ih (h.deliver t d)
    exact ⟨registry, memos, by rw [List.foldl_cons, heq]; rfl⟩

/-- Handing out deliveries to a watcher that is in none of them. -/
theorem Indexed.foldl_deliver {t : Transaction} {ds : List Delivery}
    (hds : ∀ d ∈ ds, d.watchers.Nodup) {h : Hub} (hidx : Indexed h.registry) :
    let h' := ds.foldl (Hub.deliver t) h
    Indexed h'.registry ∧ h'.registry.queueSize = h.registry.queueSize ∧
    ∀ w, (∀ d ∈ ds, w ∉ d.watchers) → h'.registry.view w = h.registry.view w := by
  induction ds generalizing h with
  | nil => exact ⟨hidx, rfl, fun _ _ => rfl⟩
  | cons d ds ih =>
    obtain ⟨hidx₁, hsize₁, hout₁, -⟩ := hidx.foldl_offer
      ⟨t, d.changes, if d.watchers.length > 1 then some h.memos else none⟩
      (hds d List.mem_cons_self)
    obtain ⟨hidx₂, hsize₂, hout₂⟩ := ih (h := h.deliver t d)
      (fun d' hd' => hds d' (List.mem_cons_of_mem _ hd')) hidx₁
    refine ⟨hidx₂, hsize₂.trans hsize₁, fun w hw => ?_⟩
    rw [List.foldl_cons, hout₂ w fun d' hd' => hw d' (List.mem_cons_of_mem _ hd')]
    exact hout₁ w (hw d List.mem_cons_self)

/-- Handing out deliveries to a watcher that is in exactly one of them. -/
theorem Indexed.foldl_deliver_mem {t : Transaction} {before after : List Delivery} {d : Delivery}
    (hds : ∀ d' ∈ before ++ d :: after, d'.watchers.Nodup) {h : Hub} (hidx : Indexed h.registry)
    {w : WatcherId} (hreg : w ∈ h.registry.watchers) (hd : w ∈ d.watchers)
    (hbefore : ∀ d' ∈ before, w ∉ d'.watchers) (hafter : ∀ d' ∈ after, w ∉ d'.watchers) :
    ∃ memo, Offered h.registry.queueSize ⟨t, d.changes, memo⟩ (h.registry.cell w)
      (((before ++ d :: after).foldl (Hub.deliver t) h).registry.view w) := by
  have hnd : ∀ d' ∈ after, d'.watchers.Nodup := fun d' hd' =>
    hds d' (List.mem_append_right _ (List.mem_cons_of_mem _ hd'))
  obtain ⟨hidx₁, hsize₁, hout₁⟩ := hidx.foldl_deliver (t := t)
    (fun d' hd' => hds d' (List.mem_append_left _ hd'))
  set h₁ := before.foldl (Hub.deliver t) h with hh₁
  obtain ⟨hcell, hmem⟩ := Registry.view_eq.1 (hout₁ w hbefore)
  obtain ⟨hidx₂, -, -, hin₂⟩ := hidx₁.foldl_offer
    ⟨t, d.changes, if d.watchers.length > 1 then some h₁.memos else none⟩
    (hds d (by simp))
  obtain ⟨-, -, hout₃⟩ := Indexed.foldl_deliver (t := t) (h := h₁.deliver t d) hnd hidx₂
  refine ⟨if d.watchers.length > 1 then some h₁.memos else none, ?_⟩
  rw [List.foldl_append, List.foldl_cons, ← hh₁, hout₃ w hafter, ← hsize₁, ← hcell]
  exact hin₂ w hd (by simpa [hreg] using hmem)

/-! ## Shape changes -/

namespace Hub

/-- `advance` after the hub has recorded the transaction touches only what `invalidateLocked`
does. -/
theorem foldl_invalidate (cursor : Cursor) (is : List IncompatibleRelationError) (h : Hub) :
    is.foldl (fun h i => h.invalidateLocked i.table cursor) h =
      { h with
        stale := is.foldl (fun stale i => insert i.table stale) h.stale
        registry := is.foldl (fun r i => r.endTable i.table) h.registry
        window := is.foldl (fun w _ => w.invalidate cursor) h.window } := by
  induction is generalizing h with
  | nil => rfl
  | cons i is ih => rw [List.foldl_cons, ih]; rfl

theorem advance_eq (h : Hub) (t : Transaction) :
    h.advance t =
      { h with
        stale := t.incompatible.foldl (fun stale i => insert i.table stale) h.stale
        registry := t.incompatible.foldl (fun r i => r.endTable i.table) h.registry
        window := t.incompatible.foldl (fun w _ => w.invalidate t.cursor) (h.window.append t)
        tick := if h.tickTaken then h.tick + 1 else h.tick
        tickTaken := false } := by
  unfold advance
  rw [foldl_invalidate]

end Hub

/-- Whether a transaction reports a table as incompatible. -/
def reports (t : Transaction) (table : String) : Prop := ∃ i ∈ t.incompatible, i.table = table

instance (t : Transaction) (table : String) : Decidable (reports t table) :=
  inferInstanceAs (Decidable (∃ i ∈ t.incompatible, i.table = table))

/-- Invalidating several tables ends exactly their registered watchers. -/
theorem Indexed.foldl_endTable (is : List IncompatibleRelationError) :
    ∀ {r : Registry}, Indexed r →
      let r' := is.foldl (fun r i => r.endTable i.table) r
      Indexed r' ∧ r'.queueSize = r.queueSize ∧
      (∀ w, w ∈ r'.watchers ↔
        w ∈ r.watchers ∧ ¬∃ i ∈ is, i.table = (r.cell w).projection.table) ∧
      (∀ w, r'.cell w =
        if w ∈ r.watchers ∧ ∃ i ∈ is, i.table = (r.cell w).projection.table
        then (r.cell w).endedFor .schemaChanged else r.cell w) := by
  induction is with
  | nil =>
    intro r h
    exact ⟨h, rfl, fun w => by simp, fun w => by simp⟩
  | cons i is ih =>
    intro r h
    obtain ⟨hidx₁, hsize₁, hmem₁, hcell₁⟩ := Registry.endTable_spec h i.table
    obtain ⟨hidx, hsize, hmem, hcell⟩ := ih hidx₁
    -- ending a watcher leaves its projection alone
    have hproj : ∀ w, ((r.endTable i.table).cell w).projection = (r.cell w).projection := by
      intro w
      rw [hcell₁]
      split <;> rfl
    refine ⟨hidx, hsize.trans hsize₁, fun w => ?_, fun w => ?_⟩
    · rw [List.foldl_cons, hmem, hmem₁, hproj, List.exists_mem_cons_iff, not_or, and_assoc,
        eq_comm (a := i.table)]
    · rw [List.foldl_cons, hcell]
      simp only [hmem₁, List.exists_mem_cons_iff, hcell₁]
      by_cases hw : w ∈ r.watchers
      · by_cases ht : (r.cell w).projection.table = i.table
        · simp [hw, ht]
        · simp [hw, ht, Ne.symm ht]
      · simp [hw]

/-! ## The outcome -/

/-- What accepting `t` as new does to a registered watcher. -/
inductive Outcome (size : Nat) (t : Transaction) (c : Watcher) : Watcher × Bool → Prop
  | schemaChanged (h : reports t c.projection.table) :
    Outcome size t c (c.endedFor .schemaChanged, false)
  | unconcerned (h : ¬reports t c.projection.table) (hc : c.changesOf t = []) :
    Outcome size t c (c, true)
  | queued (h : ¬reports t c.projection.table) (hc : c.changesOf t ≠ [])
      (hroom : c.queue.length < size) (memo : Option MemoId) :
    Outcome size t c ({ c with queue := c.queue ++ [⟨t, c.changesOf t, memo⟩] }, true)
  | slow (h : ¬reports t c.projection.table) (hc : c.changesOf t ≠ [])
      (hfull : size ≤ c.queue.length) : Outcome size t c (c.endedFor .slowWatcher, false)

/-- Accepting a transaction never moves a watcher to another projection or scope. -/
theorem Outcome.static {size : Nat} {t : Transaction} {c : Watcher} {v : Watcher × Bool}
    (h : Outcome size t c v) : v.1.projection = c.projection ∧ v.1.scope = c.scope := by
  cases h <;> exact ⟨rfl, rfl⟩

/-- What `Accept` does with the watchers once the changed tables' watchers have been ended. -/
theorem Indexed.deliver_collected {h : Hub} (hidx : Indexed h.registry) (t : Transaction) :
    let h' := (Scratch.collect h.registry {} t).deliveries.foldl (Hub.deliver t) h
    Indexed h'.registry ∧ h'.registry.queueSize = h.registry.queueSize ∧
    (∀ w, w ∉ h.registry.watchers ∨ (h.registry.cell w).changesOf t = [] →
      h'.registry.view w = h.registry.view w) ∧
    (∀ w ∈ h.registry.watchers, (h.registry.cell w).changesOf t ≠ [] →
      ∃ memo, Offered h.registry.queueSize ⟨t, (h.registry.cell w).changesOf t, memo⟩
        (h.registry.cell w) (h'.registry.view w)) := by
  have hholds := Scratch.Holds.collect h.registry t
  set gs := group (t.changes.flatMap h.registry.routed) with hgs
  have hnd : ∀ d ∈ gs.map (fun g => (⟨h.registry.watchersAt g.1, g.2⟩ : Delivery)),
      d.watchers.Nodup := by
    intro d hd
    obtain ⟨g, -, rfl⟩ := List.mem_map.1 hd
    exact hidx.watchersAt_nodup g.1
  obtain ⟨hidx', hsize, hout⟩ := hidx.foldl_deliver (t := t) hnd
  simp only [hholds.deliveries]
  refine ⟨hidx', hsize, fun w hw => hout w ?_, fun w hw hc => ?_⟩
  · intro d hd hmem
    obtain ⟨g, hg, rfl⟩ := List.mem_map.1 hd
    have hreg := hidx.mem_watchers_of_watchersAt hmem
    obtain ⟨key, -, huniq, hval⟩ := hidx.exists_key hreg
    obtain ⟨hvs, hne⟩ := mem_group.1 hg
    rw [huniq g.1 hmem, hval] at hvs
    exact hw.elim (fun hn => hn hreg) fun hnil => hne (hvs.trans hnil)
  · obtain ⟨key, hkey, huniq, hval⟩ := hidx.exists_key hw
    have hmem : (key, (h.registry.cell w).changesOf t) ∈ gs :=
      mem_group.2 ⟨(hval t).symm, hc⟩
    obtain ⟨before, after, hsplit⟩ := List.append_of_mem hmem
    -- no other group has the watcher's key
    have hkeys := keys_group_nodup (t.changes.flatMap h.registry.routed)
    rw [← hgs, hsplit, List.map_append, List.map_cons, List.nodup_append] at hkeys
    obtain ⟨-, hafter, hdisj⟩ := hkeys
    rw [List.nodup_cons] at hafter
    rw [hsplit, List.map_append, List.map_cons] at hnd ⊢
    refine hidx.foldl_deliver_mem hnd hw hkey ?_ ?_
    · intro d hd hmem
      obtain ⟨g, hg, rfl⟩ := List.mem_map.1 hd
      exact hdisj g.1 (List.mem_map_of_mem hg) key List.mem_cons_self (huniq g.1 hmem)
    · intro d hd hmem
      obtain ⟨g, hg, rfl⟩ := List.mem_map.1 hd
      have hfst : g.1 ∈ after.map Prod.fst := List.mem_map_of_mem hg
      rw [huniq g.1 hmem] at hfst
      exact hafter.1 hfst

namespace Hub

/-- The parts of the hub `Accept` changes. -/
theorem acceptNew_eq (h : Hub) (t : Transaction) :
    ∃ registry memos, h.acceptNew t =
      { h.advance t with registry := registry, memos := memos, scratch := {} } := by
  obtain ⟨registry, memos, heq⟩ := foldl_deliver_eq t
    ((h.advance t).scratch.collect (h.advance t).registry t).deliveries (h.advance t)
  exact ⟨registry, memos, by simp only [acceptNew, heq]⟩

variable {h : Hub} (hidx : Indexed h.registry) (hscratch : h.scratch = {}) (t : Transaction)

include hidx hscratch

/-- **Accepting a transaction**, watcher by watcher. -/
theorem acceptNew_outcome :
    Indexed (h.acceptNew t).registry ∧
    (h.acceptNew t).registry.queueSize = h.registry.queueSize ∧
    (∀ w, w ∉ h.registry.watchers → (h.acceptNew t).registry.view w = h.registry.view w) ∧
    (∀ w ∈ h.registry.watchers, Outcome h.registry.queueSize t (h.registry.cell w)
      ((h.acceptNew t).registry.view w)) := by
  obtain ⟨hidx₁, hsize₁, hmem₁, hcell₁⟩ := hidx.foldl_endTable t.incompatible
  have hreg₁ : (h.advance t).registry =
      t.incompatible.foldl (fun r i => r.endTable i.table) h.registry := by rw [advance_eq]
  have hscratch₁ : (h.advance t).scratch = {} := by rw [advance_eq]; exact hscratch
  rw [← hreg₁] at hidx₁ hsize₁ hmem₁ hcell₁
  obtain ⟨hidx₂, hsize₂, hout₂, hin₂⟩ := hidx₁.deliver_collected t
  have hreg₂ : (h.acceptNew t).registry =
      ((Scratch.collect (h.advance t).registry {} t).deliveries.foldl (deliver t)
        (h.advance t)).registry := by rw [acceptNew, hscratch₁]
  rw [hreg₂]
  refine ⟨hidx₂, hsize₂.trans hsize₁, fun w hw => ?_, fun w hw => ?_⟩
  · have hw₁ : w ∉ (h.advance t).registry.watchers := fun hm => hw ((hmem₁ w).1 hm).1
    rw [hout₂ w (.inl hw₁)]
    exact Registry.view_congr (by rw [hcell₁]; simp [hw]) (by simp [hw, hw₁])
  · by_cases hrep : reports t (h.registry.cell w).projection.table
    · have hw₁ : w ∉ (h.advance t).registry.watchers := fun hm => ((hmem₁ w).1 hm).2 hrep
      have hview : (h.advance t).registry.view w =
          ((h.registry.cell w).endedFor .schemaChanged, false) := by
        rw [Registry.view_eq, hcell₁]
        exact ⟨if_pos ⟨hw, hrep⟩, decide_eq_false hw₁⟩
      rw [hout₂ w (.inl hw₁), hview]
      exact .schemaChanged hrep
    · have hw₁ : w ∈ (h.advance t).registry.watchers := (hmem₁ w).2 ⟨hw, hrep⟩
      have hcell : (h.advance t).registry.cell w = h.registry.cell w := by
        rw [hcell₁]
        exact if_neg fun hh => hrep hh.2
      by_cases hc : (h.registry.cell w).changesOf t = []
      · rw [hout₂ w (.inr (by rw [hcell]; exact hc)),
          Registry.view_eq.2 ⟨hcell, decide_eq_true hw₁⟩]
        exact .unconcerned hrep hc
      · obtain ⟨memo, hoff⟩ := hin₂ w hw₁ (by rw [hcell]; exact hc)
        rw [hcell, hsize₁] at hoff
        generalize Registry.view _ w = v at hoff ⊢
        cases hoff with
        | room hroom => exact .queued hrep hc hroom memo
        | full hfull => exact .slow hrep hc hfull

end Hub

end Watchd.Watch
