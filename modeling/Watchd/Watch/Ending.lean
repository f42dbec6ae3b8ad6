import Watchd.Watch.Index

/-!
# Ending watchers

What `endLocked`, `invalidateLocked` and `unregister` do to a watcher: the ended
one is out of the registry with its overflow channel closed and its reason set,
every other one is untouched.

`endTable_spec` is the loop over a table's watchers.
-/

namespace Watchd.Watch

open Watchd.Cdc

/-- A watcher the hub has ended for `reason`. -/
def Watcher.endedFor (c : Watcher) (reason : ResyncReason) : Watcher :=
  { c with reason := reason, overflow := true }

namespace Registry

theorem removeLocked_watchers (r : Registry) (w : WatcherId) :
    (r.removeLocked w).1.watchers = r.watchers.erase w := by
  unfold removeLocked
  split
  · simp
  · next h => rw [List.erase_of_not_mem h]

theorem removeLocked_cell (r : Registry) (w : WatcherId) :
    (r.removeLocked w).1.cell = r.cell := by
  unfold removeLocked
  split <;> simp

theorem removeLocked_queueSize (r : Registry) (w : WatcherId) :
    (r.removeLocked w).1.queueSize = r.queueSize := by
  unfold removeLocked
  split <;> simp

theorem endLocked_of_mem {r : Registry} {w : WatcherId} (h : w ∈ r.watchers)
    (reason : ResyncReason) :
    r.endLocked w reason =
      (r.removeLocked w).1.setCell w ((r.cell w).endedFor reason) := by
  have hcell := congrFun (removeLocked_cell r w) w
  unfold endLocked
  cases hr : r.removeLocked w with
  | mk r' b =>
    have hcell' : r'.cell w = r.cell w := by rw [← hcell, hr]
    have hb : b = true := by
      unfold removeLocked at hr
      rw [if_pos h] at hr
      exact (congrArg Prod.snd hr).symm
    subst hb
    simp only [hcell', Watcher.endedFor]

theorem endLocked_of_not_mem {r : Registry} {w : WatcherId} (h : w ∉ r.watchers)
    (reason : ResyncReason) : r.endLocked w reason = r := by
  unfold endLocked removeLocked
  rw [if_neg h]

theorem endLocked_watchers (r : Registry) (w : WatcherId) (reason : ResyncReason) :
    (r.endLocked w reason).watchers = r.watchers.erase w := by
  by_cases h : w ∈ r.watchers
  · rw [endLocked_of_mem h]
    exact removeLocked_watchers r w
  · rw [endLocked_of_not_mem h, List.erase_of_not_mem h]

theorem endLocked_cell (r : Registry) (w : WatcherId) (reason : ResyncReason) (w' : WatcherId) :
    (r.endLocked w reason).cell w' =
      if w' = w ∧ w ∈ r.watchers then (r.cell w).endedFor reason else r.cell w' := by
  by_cases h : w ∈ r.watchers
  · rw [endLocked_of_mem h, setCell]
    by_cases hw : w' = w
    · subst hw
      simp [h]
    · simp [hw, removeLocked_cell]
  · rw [endLocked_of_not_mem h]
    simp [h]

@[simp] theorem endLocked_queueSize (r : Registry) (w : WatcherId) (reason : ResyncReason) :
    (r.endLocked w reason).queueSize = r.queueSize := by
  by_cases h : w ∈ r.watchers
  · rw [endLocked_of_mem h]
    exact removeLocked_queueSize r w
  · rw [endLocked_of_not_mem h]

end Registry

theorem Indexed.removeLocked {r : Registry} (h : Indexed r) (w : WatcherId) :
    Indexed (r.removeLocked w).1 := by
  unfold Registry.removeLocked
  split
  · exact h.remove w
  · exact h

theorem Indexed.endLocked {r : Registry} (h : Indexed r) (w : WatcherId) (reason : ResyncReason) :
    Indexed (r.endLocked w reason) := by
  by_cases hw : w ∈ r.watchers
  · rw [Registry.endLocked_of_mem hw]
    have hcell := congrFun (Registry.removeLocked_cell r w) w
    exact (h.removeLocked w).setCell (by rw [hcell]; rfl) (by rw [hcell]; rfl)
  · rw [Registry.endLocked_of_not_mem hw]
    exact h

/-! ## Ending every watcher of a table -/

namespace Registry

/-- One round of the loop of `invalidateLocked` over the watchers. -/
def endIfOf (table : String) (r : Registry) (w : WatcherId) : Registry :=
  if (r.cell w).projection.table = table then r.endLocked w .schemaChanged else r

theorem endTable_eq (r : Registry) (table : String) :
    r.endTable table = r.watchers.foldl (endIfOf table) r := rfl

@[simp] theorem endIfOf_queueSize (table : String) (r : Registry) (w : WatcherId) :
    (endIfOf table r w).queueSize = r.queueSize := by
  unfold endIfOf
  split <;> simp

theorem endIfOf_projection (table : String) (r : Registry) (w w' : WatcherId) :
    ((endIfOf table r w).cell w').projection = (r.cell w').projection := by
  unfold endIfOf
  split
  · rw [endLocked_cell]
    split
    · next h => rw [h.1]; rfl
    · rfl
  · rfl

theorem mem_endIfOf {table : String} {r : Registry} (hnd : r.watchers.Nodup)
    {w w' : WatcherId} :
    w' ∈ (endIfOf table r w).watchers ↔
      w' ∈ r.watchers ∧ ¬(w' = w ∧ (r.cell w).projection.table = table) := by
  unfold endIfOf
  split
  · next h =>
    rw [endLocked_watchers, hnd.mem_erase_iff]
    simp [h, and_comm]
  · next h => simp [h]

theorem endIfOf_cell (table : String) (r : Registry) (w w' : WatcherId) :
    (endIfOf table r w).cell w' =
      if w' = w ∧ w ∈ r.watchers ∧ (r.cell w).projection.table = table
      then (r.cell w).endedFor .schemaChanged else r.cell w' := by
  unfold endIfOf
  split
  · next h => rw [endLocked_cell]; simp [h]
  · next h => simp [h]

end Registry

theorem Indexed.endIfOf {r : Registry} (h : Indexed r) (table : String) (w : WatcherId) :
    Indexed (Registry.endIfOf table r w) := by
  unfold Registry.endIfOf
  split
  · exact h.endLocked w _
  · exact h

namespace Registry

/-- The loop of `invalidateLocked` over any list of distinct watchers. -/
theorem foldl_endIfOf (table : String) {ws : List WatcherId} (hws : ws.Nodup) :
    ∀ {r : Registry}, Indexed r →
      let r' := ws.foldl (endIfOf table) r
      Indexed r' ∧ r'.queueSize = r.queueSize ∧
      (∀ w, w ∈ r'.watchers ↔
        w ∈ r.watchers ∧ ¬(w ∈ ws ∧ (r.cell w).projection.table = table)) ∧
      (∀ w, r'.cell w =
        if w ∈ ws ∧ w ∈ r.watchers ∧ (r.cell w).projection.table = table
        then (r.cell w).endedFor .schemaChanged else r.cell w) := by
  induction ws with
  | nil =>
    intro r h
    exact ⟨h, rfl, fun w => by simp, fun w => by simp⟩
  | cons w₀ ws ih =>
    intro r h
    obtain ⟨hw₀, hws⟩ := List.nodup_cons.1 hws
    obtain ⟨hidx, hsize, hmem, hcell⟩ := ih hws (h.endIfOf table w₀)
    refine ⟨hidx, by rw [List.foldl_cons, hsize, endIfOf_queueSize], fun w => ?_, fun w => ?_⟩
    · rw [List.foldl_cons, hmem, mem_endIfOf h.watchers_nodup, endIfOf_projection,
        List.mem_cons]
      by_cases hw : w = w₀
      · subst hw
        simp [hw₀]
      · simp [hw]
    · rw [List.foldl_cons, hcell]
      simp only [mem_endIfOf h.watchers_nodup, endIfOf_cell, List.mem_cons]
      by_cases hw : w = w₀
      · subst hw
        simp [hw₀]
      · simp [hw]

/-- **Invalidating a table** ends exactly its registered watchers. -/
theorem endTable_spec {r : Registry} (h : Indexed r) (table : String) :
    Indexed (r.endTable table) ∧ (r.endTable table).queueSize = r.queueSize ∧
    (∀ w, w ∈ (r.endTable table).watchers ↔
      w ∈ r.watchers ∧ (r.cell w).projection.table ≠ table) ∧
    (∀ w, (r.endTable table).cell w =
      if w ∈ r.watchers ∧ (r.cell w).projection.table = table
      then (r.cell w).endedFor .schemaChanged else r.cell w) := by
  obtain ⟨hidx, hsize, hmem, hcell⟩ := foldl_endIfOf table h.watchers_nodup h
  rw [endTable_eq]
  refine ⟨hidx, hsize, fun w => ?_, fun w => ?_⟩
  · rw [hmem]
    tauto
  · rw [hcell]
    simp

end Registry

end Watchd.Watch
