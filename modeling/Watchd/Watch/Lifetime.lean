import Watchd.Watch.Reachable

/-!
# The lifetime of a watcher

A Watch call registers its watcher at most once: a watcher that has been taken
out of the registry never comes back, and its projection never changes.

`System.Stepped.unregistered` and `System.Stepped.projection_eq` say so of a step.
-/

namespace Watchd.Watch

open Watchd.Cdc

/-- Watch `w` is past its registration. -/
def System.Started (s : System) (w : WatcherId) : Prop :=
  ∃ ws, s.watches[w]? = some ws ∧ ws.phase.unstarted = false

theorem Inv.started_of_registered {s : System} (h : Inv s) {w : WatcherId}
    (hw : w ∈ s.hub.registry.watchers) : s.Started w := by
  have hview : (s.hub.registry.view w).2 = true := decide_eq_true hw
  cases hws : s.watches[w]? with
  | none =>
    rw [h.fresh w (List.getElem?_eq_none_iff.1 hws)] at hview
    cases hview
  | some ws =>
    have hreg := (h.watch w ws hws).books.registered
    rw [hview] at hreg
    exact ⟨ws, hws, Phase.unstarted_of_registered (Bool.and_eq_true_iff.1 hreg.symm).1⟩

namespace Moves

variable {h : Hub} {id : WatcherId} {p : Phase} {m : Move}

theorem started (hm : Moves h id p m) (hp : p.unstarted = false) : m.phase.unstarted = false := by
  cases hm with
  | parsed _ _ => cases hp
  | scratch => cases hp
  | turnedAway p p' h h' => rcases h' with ⟨_, rfl⟩ | ⟨_, rfl⟩ <;> rfl
  | leaves p p' stale h h' => cases p' <;> first | rfl | cases h'
  | _ => rfl

theorem mem_watchers (hm : Moves h id p m) (hp : p.unstarted = false)
    {w : WatcherId} (hw : w ∈ m.hub.registry.watchers) : w ∈ h.registry.watchers := by
  cases hm with
  | resumed _ _ _ _ => cases hp
  | registered => cases hp
  | unregistered result =>
    rw [show (h.registry.unregister id).watchers = h.registry.watchers.erase id from
      Registry.removeLocked_watchers h.registry id] at hw
    exact List.mem_of_mem_erase hw
  | _ => exact hw

theorem projection_eq (hm : Moves h id p m) (w : WatcherId) :
    (m.hub.registry.cell w).projection = (h.registry.cell w).projection := by
  by_cases hw : w = id
  · subst hw
    cases hm with
    | received _ _ _ _ _ queue _ _ => rw [Hub.pop_cell_self]
    | skipped _ _ _ _ _ queue _ _ => rw [Hub.pop_cell_self]
    | incomparable _ _ _ _ _ queue _ _ => rw [Hub.pop_cell_self]
    | resumed _ _ _ _ => rw [Hub.register_cell]
    | registered => rw [Hub.register_cell]
    | unregistered result =>
      rw [show (h.registry.unregister w).cell = h.registry.cell from
        Registry.removeLocked_cell h.registry w]
    | _ => rfl
  · rw [(Registry.view_eq.1 (hm.view_of_ne hw)).1]

end Moves

namespace System.Stepped

variable {s s' : System} {l : Label} {w : WatcherId}

theorem started (hs : s.Stepped l s') (h : s.Started w) : s'.Started w := by
  obtain ⟨ws, hws, hp⟩ := h
  have hlt := (List.getElem?_eq_some_iff.1 hws).1
  cases hs with
  | accepted t hnew closing =>
    obtain ⟨ended, heq, -⟩ := ws.noteAccept_eq s t (s.hub.acceptNew t) w
    refine ⟨ws.noteAccept s t (s.hub.acceptNew t) w, ?_, ?_⟩
    · rw [List.getElem?_mapIdx, hws, Option.map_some]
    · rw [heq]
      exact hp
  | idle l stopped closing closed => exact ⟨ws, hws, hp⟩
  | unknown req err hproj => exact ⟨ws, by rw [List.getElem?_append_left hlt, hws], hp⟩
  | opened req p hproj => exact ⟨ws, by rw [List.getElem?_append_left hlt, hws], hp⟩
  | moved id act ws' m hws' hm =>
    by_cases hw : id = w
    · subst hw
      cases hws.symm.trans hws'
      refine ⟨ws.moved s id m, ?_, hm.started hp⟩
      simp [System.moved, hlt]
    · exact ⟨ws, by simp only [System.moved]; rw [List.getElem?_set_ne hw, hws], hp⟩

theorem projection_eq (hinv : Inv s) (hs : s.Stepped l s') (h : s.Started w) :
    (s'.hub.registry.cell w).projection = (s.hub.registry.cell w).projection := by
  obtain ⟨ws, hws, -⟩ := h
  have hlt := (List.getElem?_eq_some_iff.1 hws).1
  cases hs with
  | accepted t hnew closing =>
    obtain ⟨-, -, hout, hin⟩ := s.hub.acceptNew_outcome hinv.indexed hinv.scratch t
    by_cases hw : w ∈ s.hub.registry.watchers
    · exact (hin w hw).static.1
    · rw [(Registry.view_eq.1 (hout w hw)).1]
  | idle l stopped closing closed => rfl
  | unknown req err hproj => rfl
  | opened req p hproj =>
    have hne : w ≠ s.watches.length := hlt.ne
    simp [Registry.setCell, hne]
  | moved id act ws' m hws' hm => exact hm.projection_eq w

/-- A watcher that has been taken out of the registry stays out. -/
theorem unregistered (hinv : Inv s) (hs : s.Stepped l s') (h : s.Started w)
    (hw : w ∉ s.hub.registry.watchers) : w ∉ s'.hub.registry.watchers := by
  cases hs with
  | accepted t hnew closing =>
    obtain ⟨-, -, hout, -⟩ := s.hub.acceptNew_outcome hinv.indexed hinv.scratch t
    have hview := congrArg Prod.snd (hout w hw)
    exact fun hmem => hw (of_decide_eq_true (hview.symm.trans (decide_eq_true hmem)))
  | idle l stopped closing closed => exact hw
  | unknown req err hproj => exact hw
  | opened req p hproj => exact hw
  | moved id act ws m hws hm =>
    by_cases hid : w = id
    · subst hid
      obtain ⟨ws', hws', hp⟩ := h
      cases hws.symm.trans hws'
      exact fun hmem => hw (hm.mem_watchers hp hmem)
    · have hview := congrArg Prod.snd (hm.view_of_ne hid)
      exact fun hmem => hw (of_decide_eq_true (hview.symm.trans (decide_eq_true hmem)))

end System.Stepped

end Watchd.Watch
