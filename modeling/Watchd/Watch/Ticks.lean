import Watchd.Watch.Delivery

/-!
# Ticks

`live` waits on the tick it read together with the hub's position.  A tick is
current, or an `Accept` has taken it to close it, or it is closed; the hub swaps
its tick only when some watcher has read it, and every watcher that holds the
current tick has seen everything the hub accepted.

So no wakeup is missed (`no_missed_wakeup`).
-/

namespace Watchd.Watch

open Watchd.Cdc Watchd.Lib

/-- The tick a Watch call holds. -/
def Phase.tick? : Phase → Option TickId
  | .drain _ _ _ tick | .deliver _ _ _ tick _ | .progress _ _ _ tick | .select _ _ tick => some tick
  | _ => none

theorem Phase.tick?_of_leaving {p : Phase} (hp : p.leaving = true) : p.tick? = none := by
  cases p <;> first | rfl | cases hp

/-- A watch that holds `tick` since the hub had accepted `readAt` of its `accepted` transactions. -/
def System.Holds (s : System) (tick : TickId) (readAt : Nat) : Prop :=
  ∃ (id : WatcherId) (ws : WatchState), s.watches[id]? = some ws ∧ ws.phase.tick? = some tick ∧
    ws.history.readAt = readAt

/-- Ticks are closed once, and whoever waits on one is woken by the next transaction. -/
structure Ticks (s : System) : Prop where
  nodup : (s.closing ++ s.closed).Nodup
  past : ∀ tick ∈ s.closing ++ s.closed, tick < s.hub.tick
  /-- who holds a tick has seen everything and holds the current one, or holds an older one -/
  held : ∀ tick readAt, s.Holds tick readAt →
    (readAt = s.accepted.length ∧ tick = s.hub.tick ∧ s.hub.tickTaken = true) ∨
      tick ∈ s.closing ++ s.closed

/-! ## Steps of a watch -/

namespace Moves

variable {h : Hub} {id : WatcherId} {p : Phase} {m : Move}

theorem tick_eq (hm : Moves h id p m) :
    m.hub.tick = h.tick ∧ (h.tickTaken = true → m.hub.tickTaken = true) := by
  cases hm with
  | positioned args round => exact ⟨rfl, fun _ => rfl⟩
  | _ => exact ⟨rfl, fun ht => ht⟩

/-- A Watch call gets a tick only where it reads the position. -/
theorem tick_cases (hm : Moves h id p m) {tick : TickId} (ht : m.phase.tick? = some tick)
    (hist : History) (s : System) :
    (p.tick? = some tick ∧ (hist.note s id p m.phase).readAt = hist.readAt) ∨
      (tick = h.tick ∧ m.hub.tickTaken = true ∧
        (hist.note s id p m.phase).readAt = s.accepted.length) := by
  cases hm with
  | positioned args round =>
    cases ht
    exact .inr ⟨rfl, rfl, rfl⟩
  | drained args round pos tick' hqueue => exact .inl ⟨ht, rfl⟩
  | received args round pos tick' item queue hqueue hneed => exact .inl ⟨ht, rfl⟩
  | skipped args round pos tick' item queue hqueue hneed => exact .inl ⟨ht, rfl⟩
  | delivered args round pos tick' item => exact .inl ⟨ht, rfl⟩
  | progressed args round pos tick' hdue => exact .inl ⟨ht, rfl⟩
  | unchanged args round pos tick' => exact .inl ⟨ht, rfl⟩
  | turnedAway p p' hp hp' =>
    rcases hp' with ⟨reason, rfl⟩ | ⟨err, rfl⟩ <;> cases ht
  | leaves p p' stale hp hp' =>
    exact absurd ht (by simp [Phase.tick?_of_leaving hp'])
  | _ => cases ht

end Moves

/-! ## Steps of the system -/

namespace Ticks

variable {s : System}

theorem initial (hub : Hub) : Ticks { hub := hub } := by
  refine ⟨List.nodup_nil, fun tick ht => by simp at ht, ?_⟩
  rintro tick readAt ⟨id, ws, hws, -⟩
  simp at hws

/-- `Accept` takes the tick if somebody may hold it; everybody who held the current tick now holds
one that is about to be closed. -/
theorem accepted (h : Ticks s) {t : Transaction} (hnew : s.hub.isNew t = .ok true) :
    Ticks (s.accept t) := by
  obtain ⟨registry, memos, heq⟩ := Hub.acceptNew_eq s.hub t
  have htick : (s.hub.acceptNew t).tick =
      if s.hub.tickTaken then s.hub.tick + 1 else s.hub.tick := by
    rw [heq, Hub.advance_eq]
  have hholds : ∀ tick readAt, (s.accept t).Holds tick readAt → s.Holds tick readAt := by
    rintro tick readAt ⟨id, ws', hws', ht, hread⟩
    rw [(System.accept_of_new hnew).2.1, List.getElem?_mapIdx, Option.map_eq_some_iff] at hws'
    obtain ⟨ws, hws, rfl⟩ := hws'
    obtain ⟨ended, heq, -⟩ := ws.noteAccept_eq s t (s.hub.acceptNew t) id
    rw [heq] at ht hread
    exact ⟨id, ws, hws, ht, hread⟩
  cases htaken : s.hub.tickTaken with
  | false =>
    rw [htaken] at htick
    have hcur : s.hub.tick ∉ s.closing ++ s.closed := fun hmem => Nat.lt_irrefl _ (h.past _ hmem)
    refine ⟨?_, ?_, ?_⟩
    · simpa [System.accept, hnew, Hub.accept, htaken] using h.nodup
    · intro tick hmem
      have hmem' : tick ∈ s.closing ++ s.closed := by
        simpa [System.accept, hnew, Hub.accept, htaken] using hmem
      have hlt := h.past tick hmem'
      simpa [System.accept, hnew, Hub.accept, htick] using hlt
    · intro tick readAt hh
      rcases h.held tick readAt (hholds tick readAt hh) with ⟨-, -, ht⟩ | hmem
      · rw [htaken] at ht
        cases ht
      · right
        simpa [System.accept, hnew, Hub.accept, htaken] using hmem
  | true =>
    rw [htaken] at htick
    have hclosing : (s.accept t).closing ++ (s.accept t).closed =
        s.closing ++ s.hub.tick :: s.closed := by
      simp [System.accept, hnew, Hub.accept, htaken]
    have hmem_iff : ∀ tick, tick ∈ (s.accept t).closing ++ (s.accept t).closed ↔
        tick = s.hub.tick ∨ tick ∈ s.closing ++ s.closed := by
      intro tick
      rw [hclosing, List.mem_append, List.mem_cons, List.mem_append]
      exact or_left_comm
    refine ⟨?_, ?_, ?_⟩
    · rw [hclosing, List.nodup_middle, List.nodup_cons]
      exact ⟨fun hmem => Nat.lt_irrefl _ (h.past _ hmem), h.nodup⟩
    · intro tick hmem
      have hle : tick < s.hub.tick + 1 := by
        rcases (hmem_iff tick).1 hmem with rfl | hold
        · exact Nat.lt_succ_self _
        · exact Nat.lt_succ_of_lt (h.past tick hold)
      simpa [System.accept, hnew, Hub.accept, htick] using hle
    · intro tick readAt hh
      right
      rw [hmem_iff]
      rcases h.held tick readAt (hholds tick readAt hh) with ⟨-, ht, -⟩ | hmem
      · exact .inl ht
      · exact .inr hmem

theorem moved (h : Ticks s) {id : WatcherId} {ws : WatchState} {m : Move}
    (hws : s.watches[id]? = some ws) (hm : Moves s.hub id ws.phase m) :
    Ticks (s.moved id ws m) := by
  obtain ⟨htick, htaken⟩ := hm.tick_eq
  refine ⟨h.nodup, ?_, ?_⟩
  · intro tick hmem
    have hlt := h.past tick hmem
    rw [← htick] at hlt
    exact hlt
  · rintro tick readAt ⟨id', ws', hws', ht, hread⟩
    have keep : s.Holds tick readAt →
        (readAt = s.accepted.length ∧ tick = m.hub.tick ∧ m.hub.tickTaken = true) ∨
          tick ∈ s.closing ++ s.closed := by
      intro hh
      rcases h.held tick readAt hh with ⟨hr, hcur, htk⟩ | hmem
      · exact .inl ⟨hr, hcur.trans htick.symm, htaken htk⟩
      · exact .inr hmem
    simp only [System.moved, List.getElem?_set] at hws'
    split at hws'
    · next heq =>
      subst heq
      rw [if_pos (List.getElem?_eq_some_iff.1 hws).1] at hws'
      cases hws'
      rcases hm.tick_cases ht ws.history s with ⟨hold, hr⟩ | ⟨hcur, htk, hr⟩
      · exact keep ⟨id, ws, hws, hold, hr.symm.trans hread⟩
      · exact .inl ⟨hread.symm.trans hr, hcur.trans htick.symm, htk⟩
    · exact keep ⟨id', ws', hws', ht, hread⟩

/-- An `Accept` that has released the lock closes the tick it took. -/
theorem closed (h : Ticks s) {tick : TickId} (hmem : tick ∈ s.closing) :
    Ticks { s with closing := s.closing.erase tick, closed := tick :: s.closed } := by
  have hperm : (s.closing.erase tick ++ tick :: s.closed).Perm (s.closing ++ s.closed) :=
    List.perm_middle.trans ((List.perm_cons_erase hmem).symm.append_right s.closed)
  refine ⟨hperm.nodup_iff.2 h.nodup, fun x hx => h.past x (hperm.mem_iff.1 hx), ?_⟩
  intro x readAt hh
  rcases h.held x readAt hh with hcur | hx
  · exact .inl hcur
  · exact .inr (hperm.mem_iff.2 hx)

/-- A new Watch call holds no tick. -/
theorem joined (h : Ticks s) {r : Registry} {ws : WatchState} (hws : ws.phase.tick? = none) :
    Ticks { s with hub := { s.hub with registry := r }, watches := s.watches ++ [ws] } := by
  refine ⟨h.nodup, h.past, ?_⟩
  rintro tick readAt ⟨id, ws', hws', ht, hread⟩
  rcases getElem?_append_singleton hws' with hold | ⟨-, rfl⟩
  · exact h.held tick readAt ⟨id, ws', hold, ht, hread⟩
  · rw [hws] at ht
    cases ht

theorem step (h : Ticks s) {l : Label} {s' : System} (hs : s.step l = some s') : Ticks s' := by
  cases l with
  | accept t =>
    simp only [System.step, Option.some.injEq] at hs
    subst hs
    cases hnew : s.hub.isNew t with
    | error err => simpa only [System.accept, hnew] using h
    | ok new =>
      cases new with
      | false => simpa only [System.accept, hnew] using h
      | true => exact h.accepted hnew
  | close tick =>
    simp only [System.step] at hs
    split at hs
    · next hmem =>
      cases hs
      exact h.closed hmem
    · cases hs
  | stop =>
    cases hs
    exact ⟨h.nodup, h.past, h.held⟩
  | open_ req =>
    simp only [System.step, System.openWatch, Option.some.injEq] at hs
    subst hs
    split
    · exact h.joined rfl
    · exact h.joined rfl
  | watch id act =>
    simp only [System.step] at hs
    obtain ⟨ws, hws, hmap⟩ := Option.bind_eq_some_iff.1 hs
    obtain ⟨m, hm, rfl⟩ := Option.map_eq_some_iff.1 hmap
    exact h.moved hws (Phase.step_moves hm)

end Ticks

/-- **No watcher sleeps through a transaction.**  A watch that read its tick before the hub accepted
its newest transaction holds a tick that is no longer the hub's, and that is closed or about to be
closed by an `Accept`; and no tick is closed twice. -/
theorem no_missed_wakeup {s : System} (h : Reaches machine anyStep s) :
    (∀ (id : WatcherId) (ws : WatchState) (tick : TickId), s.watches[id]? = some ws →
      ws.phase.tick? = some tick → ws.history.readAt < s.accepted.length →
        tick ≠ s.hub.tick ∧ (tick ∈ s.closed ∨ tick ∈ s.closing)) ∧
    s.closed.Nodup ∧ s.closing.Nodup ∧ ∀ tick ∈ s.closing, tick ∉ s.closed := by
  have hticks : Ticks s := by
    refine Reaches.invariant (I := Ticks) ?_ (fun _ _ _ _ hI _ hs => hI.step hs) h
    rintro _ ⟨parseLSN, cfg, hub, -, rfl⟩
    exact Ticks.initial hub
  refine ⟨?_, ?_⟩
  · intro id ws tick hws ht hread
    rcases hticks.held tick _ ⟨id, ws, hws, ht, rfl⟩ with ⟨hr, -, -⟩ | hmem
    · omega
    · have hlt := hticks.past tick hmem
      exact ⟨Nat.ne_of_lt hlt, (List.mem_append.1 hmem).symm⟩
  · obtain ⟨hclosing, hclosed, hdisjoint⟩ := List.nodup_append.1 hticks.nodup
    exact ⟨hclosed, hclosing, fun tick hmem hmem' => hdisjoint tick hmem tick hmem' rfl⟩

/-- A watch waits on tick 0 while an `Accept` has swapped it and not closed it yet. -/
theorem no_missed_wakeup_in_gap : ∃ s ws, Reaches machine anyStep s ∧ s.watches[0]? = some ws ∧
    ws.phase.tick? = some 0 ∧ s.closed = [] ∧
      (0 ≠ s.hub.tick ∧ (0 ∈ s.closed ∨ 0 ∈ s.closing)) := by
  obtain ⟨s, ws, hr, hws, htick, hread, hclosed⟩ := Demo.exists_of_run anyStep 10 1
    (Demo.openSnapshot ++ Demo.readSnapshot 500 ++ List.replicate 4 (Demo.go .run) ++
      [.accept (Demo.transaction 300 15)]) 0
    (fun s ws => ws.phase.tick? = some 0 ∧ ws.history.readAt < s.accepted.length ∧ s.closed = [])
    (by decide)
  exact ⟨s, ws, hr, hws, htick, hclosed, (no_missed_wakeup hr).1 0 ws 0 hws htick hread⟩

end Watchd.Watch
