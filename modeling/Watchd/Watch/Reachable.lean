import Watchd.Watch.Invariant

/-!
# The invariant holds in every reachable state

What one step of the system does to a watch (`System.Stepped.origin`), the
invariant of every run (`Reaches.inv`), and the induction rules the later results use
(`Reaches.watch_rule`, `Reaches.step_rule`).
-/

namespace Watchd.Watch

open Watchd.Cdc Watchd.Lib

theorem getElem?_append_singleton {α : Type*} {l : List α} {a b : α} {i : Nat}
    (h : (l ++ [a])[i]? = some b) : l[i]? = some b ∨ (i = l.length ∧ b = a) := by
  rcases Nat.lt_trichotomy i l.length with hlt | heq | hgt
  · rw [List.getElem?_append_left hlt] at h
    exact .inl h
  · subst heq
    exact .inr ⟨rfl, by simpa using h.symm⟩
  · rw [List.getElem?_eq_none (by simp; omega)] at h
    cases h

/-! ## What a watch's step leaves alone -/

namespace Moves

variable {h : Hub} {id : WatcherId} {p : Phase} {m : Move}

theorem register_view_of_ne {id' : WatcherId} (hne : id' ≠ id) :
    (h.register id).registry.view id' = h.registry.view id' := by
  refine Registry.view_congr (by rw [Hub.register_cell]) ?_
  rw [Hub.register, Registry.registerLocked, Registry.updateRoute_watchers]
  simp [hne]

theorem pop_view_of_ne {id' : WatcherId} (hne : id' ≠ id) (queue : List Queued) :
    (h.pop id queue).registry.view id' = h.registry.view id' :=
  Registry.view_congr (by simp [Hub.pop, Registry.setCell, hne]) Iff.rfl

theorem unregister_view_of_ne {id' : WatcherId} (hne : id' ≠ id) :
    (h.registry.unregister id).view id' = h.registry.view id' := by
  refine Registry.view_congr (congrFun (Registry.removeLocked_cell ..) id') ?_
  rw [Registry.unregister, Registry.removeLocked_watchers, List.mem_erase_of_ne hne]

theorem view_of_ne (hm : Moves h id p m) {id' : WatcherId} (hne : id' ≠ id) :
    m.hub.registry.view id' = h.registry.view id' := by
  cases hm with
  | resumed cursor batches hfloor hbatches => exact register_view_of_ne hne
  | registered => exact register_view_of_ne hne
  | received args round pos tick item queue hqueue hneed => exact pop_view_of_ne hne queue
  | skipped args round pos tick item queue hqueue hneed => exact pop_view_of_ne hne queue
  | incomparable args round pos tick item queue hqueue err => exact pop_view_of_ne hne queue
  | unregistered result => exact unregister_view_of_ne hne
  | _ => rfl

theorem indexed (hm : Moves h id p m) (hidx : Indexed h.registry)
    (hreg : p.unstarted = true → id ∉ h.registry.watchers) : Indexed m.hub.registry := by
  cases hm with
  | resumed cursor batches hfloor hbatches => exact hidx.registerLocked (hreg rfl)
  | registered => exact hidx.registerLocked (hreg rfl)
  | received args round pos tick item queue hqueue hneed => exact hidx.setCell rfl rfl
  | skipped args round pos tick item queue hqueue hneed => exact hidx.setCell rfl rfl
  | incomparable args round pos tick item queue hqueue err => exact hidx.setCell rfl rfl
  | unregistered result => exact hidx.removeLocked id
  | _ => exact hidx

theorem window (hm : Moves h id p m) :
    m.hub.window = h.window ∨ ∃ cursor, m.hub.window = h.window.recordSnapshotLocked cursor := by
  cases hm with
  | recorded batches snap => exact .inr ⟨snap.cursor, rfl⟩
  | _ => exact .inl rfl

theorem scratch_eq (hm : Moves h id p m) : m.hub.scratch = h.scratch := by
  cases hm <;> rfl

end Moves

theorem Window.recordSnapshotLocked_ring (w : Window) (cursor : Cursor) :
    (w.recordSnapshotLocked cursor).ring = w.ring ∧
      (w.recordSnapshotLocked cursor).maxReplay = w.maxReplay := by
  unfold recordSnapshotLocked
  split
  · exact ⟨rfl, rfl⟩
  · split <;> exact ⟨rfl, rfl⟩

theorem Moves.ring_eq {h : Hub} {id : WatcherId} {p : Phase} {m : Move} (hm : Moves h id p m) :
    m.hub.window.ring = h.window.ring ∧ m.hub.window.maxReplay = h.window.maxReplay := by
  rcases hm.window with hw | ⟨cursor, hw⟩
  · rw [hw]
    exact ⟨rfl, rfl⟩
  · rw [hw]
    exact Window.recordSnapshotLocked_ring _ _

theorem Window.Retains.moves {h : Hub} {id : WatcherId} {p : Phase} {m : Move}
    {evicted : List Transaction} (hw : h.window.Retains evicted) (hm : Moves h id p m) :
    m.hub.window.Retains evicted := by
  rcases hm.window with heq | ⟨cursor, heq⟩
  · rw [heq]
    exact hw
  · rw [heq]
    exact hw.recordSnapshotLocked cursor

theorem Hub.acceptNew_maxReplay (h : Hub) (t : Transaction) :
    (h.acceptNew t).window.maxReplay = h.window.maxReplay := by
  have hevict : ∀ (n : Nat) (w : Window), (Window.evictLocked^[n] w).maxReplay = w.maxReplay := by
    intro n
    induction n with
    | zero => exact fun _ => rfl
    | succ n ih =>
      intro w
      rw [Function.iterate_succ_apply, ih]
      unfold Window.evictLocked
      split <;> rfl
  have hinv : ∀ (is : List IncompatibleRelationError) (w : Window),
      (is.foldl (fun w _ => w.invalidate t.cursor) w).maxReplay = w.maxReplay := by
    intro is
    induction is with
    | nil => exact fun _ => rfl
    | cons i is ih => exact fun w => ih _
  rw [Hub.acceptNew_window]
  simp only [hinv, Window.append, hevict]

theorem History.note_ended (hist : History) (s : System) (id : WatcherId) (p p' : Phase) :
    (hist.note s id p p').ended = hist.ended := by
  unfold History.note
  split <;> rfl

/-- A watcher keeps its projection and its scope. -/
def Watcher.Static (c c' : Watcher) : Prop := c.projection = c'.projection ∧ c.scope = c'.scope

/-- A watcher sends what its projection and its scope say. -/
theorem Watcher.Static.owed_eq {c c' : Watcher} (h : c.Static c') (need : Need)
    (ts : List Transaction) : c.owed need ts = c'.owed need ts := by
  unfold Watcher.owed Watcher.wants Watcher.concerns Watcher.batchOf Watcher.changesOf
  rw [h.1, h.2]

theorem Moves.static {h : Hub} {id : WatcherId} {p : Phase} {m : Move} (hm : Moves h id p m) :
    (m.hub.registry.cell id).Static (h.registry.cell id) := by
  cases hm with
  | resumed cursor batches hfloor hbatches => simp [Watcher.Static, Hub.register_cell]
  | registered => simp [Watcher.Static, Hub.register_cell]
  | received args round pos tick item queue hqueue hneed =>
    simp [Watcher.Static, Hub.pop, Registry.setCell]
  | skipped args round pos tick item queue hqueue hneed =>
    simp [Watcher.Static, Hub.pop, Registry.setCell]
  | incomparable args round pos tick item queue hqueue err =>
    simp [Watcher.Static, Hub.pop, Registry.setCell]
  | unregistered result =>
    simp [Watcher.Static, Registry.unregister, Registry.removeLocked_cell]
  | _ => exact ⟨rfl, rfl⟩

theorem Moves.fixed {h : Hub} {id : WatcherId} {p : Phase} {m : Move} (hm : Moves h id p m) :
    m.hub.sourceID = h.sourceID ∧ m.hub.parseLSN = h.parseLSN ∧ m.hub.stopped = h.stopped ∧
      m.hub.projections = h.projections ∧ m.hub.registry.queueSize = h.registry.queueSize := by
  cases hm with
  | resumed cursor batches hfloor hbatches =>
    exact ⟨rfl, rfl, rfl, rfl, by simp [Hub.register, Registry.registerLocked]⟩
  | registered => exact ⟨rfl, rfl, rfl, rfl, by simp [Hub.register, Registry.registerLocked]⟩
  | unregistered result => exact ⟨rfl, rfl, rfl, rfl, Registry.removeLocked_queueSize ..⟩
  | _ => exact ⟨rfl, rfl, rfl, rfl, rfl⟩

theorem Moves.not_returned {h : Hub} {id : WatcherId} {err : Option GoError} {m : Move} :
    ¬Moves h id (.returned err) m := by
  intro hm
  cases hm with
  | turnedAway p p' hp hp' => rcases hp with hp | ⟨c, hp⟩ <;> cases hp
  | leaves p p' stale hp hp' => cases hp

/-- `Accept` changes nothing about a watch but the note that it was ended, which is never taken
back. -/
theorem WatchState.noteAccept_eq (s : System) (t : Transaction) (h' : Hub) (id : WatcherId)
    (ws : WatchState) :
    ∃ ended, ws.noteAccept s t h' id = { ws with history := { ws.history with ended := ended } } ∧
      (ws.history.ended ≠ none → ended ≠ none) := by
  unfold WatchState.noteAccept
  split
  · exact ⟨_, rfl, fun _ => Option.some_ne_none _⟩
  · exact ⟨ws.history.ended, rfl, fun hn => hn⟩

theorem Hub.acceptNew_static {h : Hub} {id : WatcherId} (hidx : Indexed h.registry)
    (hscratch : h.scratch = {})
    (t : Transaction) : ((h.acceptNew t).registry.cell id).Static (h.registry.cell id) := by
  obtain ⟨-, -, hout, hin⟩ := Hub.acceptNew_outcome hidx hscratch t
  by_cases hmem : id ∈ h.registry.watchers
  · exact (hin id hmem).static
  · rw [(Registry.view_eq.1 (hout id hmem)).1]
    exact ⟨rfl, rfl⟩

theorem Hub.acceptNew_fixed (h : Hub) (t : Transaction) :
    (h.acceptNew t).sourceID = h.sourceID ∧ (h.acceptNew t).parseLSN = h.parseLSN ∧
      (h.acceptNew t).stopped = h.stopped ∧ (h.acceptNew t).projections = h.projections := by
  obtain ⟨registry, memos, heq⟩ := Hub.acceptNew_eq h t
  rw [heq, Hub.advance_eq]
  exact ⟨rfl, rfl, rfl, rfl⟩

/-! ## Steps of the system -/

theorem System.accept_of_new {s : System} {t : Transaction} (hnew : s.hub.isNew t = .ok true) :
    (s.accept t).hub = s.hub.acceptNew t ∧
      (s.accept t).watches = s.watches.mapIdx (WatchState.noteAccept s t (s.hub.acceptNew t)) ∧
      (s.accept t).accepted = s.accepted ++ [t] := by
  simp [System.accept, Hub.accept, hnew]

/-- What a step of the system can do. -/
inductive System.Stepped (s : System) : Label → System → Prop
  | accepted (t : Transaction) (hnew : s.hub.isNew t = .ok true) (closing : List TickId) :
    Stepped s (.accept t)
      { s with
        hub := s.hub.acceptNew t
        watches := s.watches.mapIdx (WatchState.noteAccept s t (s.hub.acceptNew t))
        closing := closing
        accepted := s.accepted ++ [t] }
  /-- a discarded transaction, a closed tick, or `Stop` -/
  | idle (l : Label) (stopped : Bool) (closing closed : List TickId) :
    Stepped s l
      { s with hub := { s.hub with stopped := stopped }, closing := closing, closed := closed }
  | unknown (req : Request) (err : GoError)
      (hp : s.hub.projections.lookup req.projection = none) :
    Stepped s (.open_ req) { s with watches := s.watches ++ [⟨req, .returned (some err), [], {}⟩] }
  | opened (req : Request) (p : Projection)
      (hp : s.hub.projections.lookup req.projection = some p) :
    Stepped s (.open_ req)
      { s with
        hub := { s.hub with
          registry := s.hub.registry.setCell s.watches.length ⟨p, req.scope, [], false, .unset⟩ }
        watches := s.watches ++ [⟨req, .start, [], {}⟩] }
  | moved (id : WatcherId) (act : Act) (ws : WatchState) (m : Move)
      (hws : s.watches[id]? = some ws) (hm : Moves s.hub id ws.phase m) :
    Stepped s (.watch id act) (s.moved id ws m)

theorem System.step_stepped {s s' : System} {l : Label} (h : s.step l = some s') :
    s.Stepped l s' := by
  cases l with
  | accept t =>
    simp only [System.step, System.accept, Hub.accept, Option.some.injEq] at h
    subst h
    cases hnew : s.hub.isNew t with
    | error err => exact .idle _ s.hub.stopped s.closing s.closed
    | ok new =>
      cases new with
      | false => exact .idle _ s.hub.stopped s.closing s.closed
      | true => exact .accepted t hnew _
  | close tick =>
    simp only [System.step] at h
    split at h
    · cases h
      exact .idle _ s.hub.stopped _ _
    · cases h
  | stop =>
    simp only [System.step] at h
    cases h
    exact .idle _ true s.closing s.closed
  | open_ req =>
    simp only [System.step, System.openWatch, Option.some.injEq] at h
    subst h
    cases hp : s.hub.projections.lookup req.projection with
    | none => exact .unknown req _ hp
    | some p => exact .opened req p hp
  | watch id act =>
    simp only [System.step] at h
    obtain ⟨ws, hws, hmap⟩ := Option.bind_eq_some_iff.1 h
    obtain ⟨m, hm, rfl⟩ := Option.map_eq_some_iff.1 hmap
    exact .moved id act ws m hws (Phase.step_moves hm)

/-- Where a watch comes from that is there after the step `l` from `s` to `s'`. -/
inductive System.Origin (s : System) (l : Label) (s' : System) (id : WatcherId) : WatchState → Prop
  /-- it did not move; `Accept` may have noted that it ended the watch -/
  | kept (ws : WatchState) (ended : Option Ended) (hws : s.watches[id]? = some ws)
      (hended : ws.history.ended ≠ none → ended ≠ none) :
    Origin s l s' id { ws with history := { ws.history with ended := ended } }
  | opened (req : Request) (p : Phase) (hl : l = .open_ req) (hid : id = s.watches.length)
      (hp : p = .start ∨ ∃ err, p = .returned err) :
    Origin s l s' id ⟨req, p, [], {}⟩
  | moved (act : Act) (ws : WatchState) (m : Move) (hl : l = .watch id act)
      (hws : s.watches[id]? = some ws) (hm : Moves s.hub id ws.phase m)
      (hs' : s' = s.moved id ws m) :
    Origin s l s' id (ws.moved s id m)

theorem System.Stepped.origin {s s' : System} {l : Label} (h : s.Stepped l s') {id : WatcherId}
    {ws : WatchState} (hws : s'.watches[id]? = some ws) : s.Origin l s' id ws := by
  have hsame : ∀ {ws}, s.watches[id]? = some ws → s.Origin l s' id ws := fun {ws} hws =>
    .kept ws ws.history.ended hws fun hn => hn
  cases h with
  | accepted t hnew closing =>
    rw [List.getElem?_mapIdx, Option.map_eq_some_iff] at hws
    obtain ⟨ws₀, hws₀, rfl⟩ := hws
    obtain ⟨ended, heq, hended⟩ := ws₀.noteAccept_eq s t (s.hub.acceptNew t) id
    exact heq ▸ .kept ws₀ ended hws₀ hended
  | idle l stopped closing closed => exact hsame hws
  | unknown req err hp =>
    rcases getElem?_append_singleton hws with hold | ⟨hid, rfl⟩
    · exact hsame hold
    · exact .opened req _ rfl hid (.inr ⟨_, rfl⟩)
  | opened req p hp =>
    rcases getElem?_append_singleton hws with hold | ⟨hid, rfl⟩
    · exact hsame hold
    · exact .opened req _ rfl hid (.inl rfl)
  | moved id' act ws' m hws' hm =>
    rw [System.moved, List.getElem?_set, if_pos (List.getElem?_eq_some_iff.1 hws').1] at hws
    split at hws
    · next heq =>
      subst heq
      cases hws
      exact .moved act ws' m rfl hws' hm rfl
    · exact hsame hws

theorem System.Stepped.length_le {s s' : System} {l : Label} (h : s.Stepped l s') :
    s.watches.length ≤ s'.watches.length := by
  cases h <;> simp [System.moved]

/-- What `New` sets stays. -/
theorem System.step_fixed {s s' : System} {l : Label} (h : s.step l = some s') :
    s'.hub.sourceID = s.hub.sourceID ∧ s'.hub.parseLSN = s.hub.parseLSN ∧
      s'.hub.projections = s.hub.projections := by
  cases System.step_stepped h with
  | accepted t hnew closing =>
    obtain ⟨hsource, hparse, -, hprojections⟩ := s.hub.acceptNew_fixed t
    exact ⟨hsource, hparse, hprojections⟩
  | moved id act ws m hws hm =>
    obtain ⟨hsource, hparse, -, hprojections, -⟩ := hm.fixed
    exact ⟨hsource, hparse, hprojections⟩
  | _ => exact ⟨rfl, rfl, rfl⟩

/-! ## The invariant -/

/-- What holds of the hub and its watches in every run. -/
structure Inv (s : System) : Prop where
  scratch : s.hub.scratch = {}
  indexed : Indexed s.hub.registry
  fresh : ∀ id, s.watches.length ≤ id → s.hub.registry.view id = (.blank, false)
  retains : ∃ evicted, s.accepted = evicted ++ s.hub.window.ring ∧ s.hub.window.Retains evicted
  watch : ∀ id ws, s.watches[id]? = some ws →
    WatchInv s.hub.window.maxReplay s.accepted (s.hub.registry.view id) ws

theorem WatchInv.opened {maxReplay : Nat} {accepted : List Transaction} {c : Watcher}
    (hqueue : c.queue = []) (hover : c.overflow = false) (req : Request) {p : Phase}
    (hp : p = .start ∨ ∃ err, p = .returned err) :
    WatchInv maxReplay accepted (c, false) ⟨req, p, [], {}⟩ := by
  have hbooks : Books maxReplay accepted (c, false) p {} := by
    refine ⟨?_, hover, fun _ => ⟨rfl, rfl⟩, Nat.zero_le _, Nat.le_refl _, nofun, ?_, ?_⟩
    · rcases hp with rfl | ⟨err, rfl⟩ <;> rfl
    · exact ⟨[], rfl, Nat.zero_le _, fun hne => absurd rfl hne, nofun⟩
    · intro item hitem
      rw [hqueue] at hitem
      cases hitem
  refine ⟨hbooks, ?_⟩
  rcases hp with rfl | ⟨err, rfl⟩
  · exact ⟨rfl, hqueue, rfl⟩
  · exact .inl rfl

/-- A new hub has accepted nothing and has no watchers. -/
theorem Hub.new_ok {parseLSN : String → Option Nat} {cfg : Config} {h : Hub}
    (hnew : Hub.new parseLSN cfg = .ok h) :
    ∃ projections maxReplay queueSize, h = {
      sourceID := cfg.sourceID
      projections := projections
      parseLSN := parseLSN
      window := { maxReplay := maxReplay }
      registry := { queueSize := queueSize, cell := fun _ => .blank } } := by
  unfold Hub.new at hnew
  split at hnew
  · cases hnew
  · extract_lets maxReplay queue at hnew
    split at hnew
    · cases hnew
    · split at hnew
      · cases hnew
      · cases hnew
        exact ⟨_, _, _, rfl⟩

theorem Inv.initial {parseLSN : String → Option Nat} {cfg : Config} {h : Hub}
    (hnew : Hub.new parseLSN cfg = .ok h) : Inv { hub := h } := by
  obtain ⟨projections, maxReplay, queueSize, rfl⟩ := Hub.new_ok hnew
  refine ⟨rfl, Indexed.empty _ _, ?_, ⟨[], rfl, Window.Retains.initial _⟩, ?_⟩
  · intro id _
    simp [Registry.view]
  · intro id ws hws
    simp at hws

theorem Inv.accepted {s : System} (h : Inv s) {t : Transaction} (hnew : s.hub.isNew t = .ok true)
    (closing : List TickId) :
    Inv { s with
      hub := s.hub.acceptNew t
      watches := s.watches.mapIdx (WatchState.noteAccept s t (s.hub.acceptNew t))
      closing := closing
      accepted := s.accepted ++ [t] } := by
  obtain ⟨evicted, hacc, hret⟩ := h.retains
  obtain ⟨hidx, -, hout, hin⟩ := Hub.acceptNew_outcome h.indexed h.scratch t
  obtain ⟨evicted', hsplit, hret'⟩ := hret.acceptNew hnew
  refine ⟨?_, hidx, ?_, ⟨evicted', by rw [← hsplit, ← hacc], hret'⟩, ?_⟩
  · obtain ⟨registry, memos, heq⟩ := Hub.acceptNew_eq s.hub t
    rw [heq]
  · intro id hid
    rw [List.length_mapIdx] at hid
    have hview := h.fresh id hid
    have hunreg : id ∉ s.hub.registry.watchers := by
      simpa using (Registry.view_eq.1 hview).2
    exact (hout id hunreg).trans hview
  · intro id ws hws
    rw [List.getElem?_mapIdx, Option.map_eq_some_iff] at hws
    obtain ⟨ws₀, hws₀, rfl⟩ := hws
    have hinv := h.watch id ws₀ hws₀
    simp only [Hub.acceptNew_maxReplay]
    unfold WatchState.noteAccept
    by_cases hreg : id ∈ s.hub.registry.watchers
    · have hview : s.hub.registry.view id = (s.hub.registry.cell id, true) := by
        simp [Registry.view, hreg]
      rw [hview] at hinv
      have hacc' := hinv.accept_registered t (hin id hreg)
      by_cases hreg' : id ∈ (s.hub.acceptNew t).registry.watchers
      · rw [if_neg fun hh => hh.2 hreg']
        simpa [Registry.view, hreg'] using hacc'
      · rw [if_pos ⟨hreg, hreg'⟩]
        simpa [Registry.view, hreg'] using hacc'
    · have hview : s.hub.registry.view id = (s.hub.registry.cell id, false) := by
        simp [Registry.view, hreg]
      rw [if_neg fun hh => hreg hh.1, hout id hreg, hview]
      rw [hview] at hinv
      exact hinv.accept_unregistered t

theorem WatchInv.moves {s : System} {id : WatcherId} {ws : WatchState} {m : Move}
    {evicted : List Transaction} (hm : Moves s.hub id ws.phase m)
    (hret : s.hub.window.Retains evicted) (hacc : s.accepted = evicted ++ s.hub.window.ring)
    (hidx : s.hub.registry.watchers.Nodup)
    (h : WatchInv s.hub.window.maxReplay s.accepted (s.hub.registry.view id) ws) :
    WatchInv s.hub.window.maxReplay s.accepted (m.hub.registry.view id) (ws.moved s id m) := by
  refine ⟨h.books.moves hm hret hacc h.handoff hidx, h.handoff.moves hm ?_ ?_ ?_⟩
  · rintro (hp | ⟨cursor, hp⟩) <;> exact (h.books.unstarted (by rw [hp]; rfl)).1
  · exact fun item hitem => (h.books.items item hitem).1
  · exact fun item hitem => (h.books.items item hitem).2.1

theorem Inv.moved {s : System} (h : Inv s) {id : WatcherId} {ws : WatchState} {m : Move}
    (hws : s.watches[id]? = some ws) (hm : Moves s.hub id ws.phase m) :
    Inv (s.moved id ws m) := by
  obtain ⟨evicted, hacc, hret⟩ := h.retains
  have hinv := h.watch id ws hws
  have hunreg : ws.phase.unstarted = true → id ∉ s.hub.registry.watchers := by
    intro hu hmem
    have hreg := hinv.books.registered
    have hp : ws.phase.registered = true := by
      simp only [Registry.view, hmem, decide_true] at hreg
      exact (Bool.and_eq_true_iff.1 hreg.symm).1
    rw [Phase.unstarted_of_registered hp] at hu
    cases hu
  have hlt : id < s.watches.length := (List.getElem?_eq_some_iff.1 hws).1
  refine ⟨hm.scratch_eq.trans h.scratch, hm.indexed h.indexed hunreg, ?_,
    ⟨evicted, by rw [System.moved, hm.ring_eq.1]; exact hacc, hret.moves hm⟩, ?_⟩
  · intro id' hid'
    simp only [System.moved, List.length_set] at hid'
    have hne : id' ≠ id := (Nat.lt_of_lt_of_le hlt hid').ne'
    rw [System.moved, hm.view_of_ne hne]
    exact h.fresh id' hid'
  · intro id' ws' hws'
    simp only [System.moved, hm.ring_eq.2]
    simp only [System.moved, List.getElem?_set] at hws'
    rw [if_pos hlt] at hws'
    split at hws'
    · next heq =>
      subst heq
      cases hws'
      exact hinv.moves hm hret hacc h.indexed.watchers_nodup
    · next hne =>
      rw [hm.view_of_ne (Ne.symm hne)]
      exact h.watch id' ws' hws'

/-- A new Watch call joins the others. -/
theorem Inv.joined {s : System} (h : Inv s) {r : Registry} (hidx : Indexed r)
    (hview : ∀ id, id ≠ s.watches.length → r.view id = s.hub.registry.view id) {ws : WatchState}
    (hnew : WatchInv s.hub.window.maxReplay s.accepted (r.view s.watches.length) ws) :
    Inv { s with hub := { s.hub with registry := r }, watches := s.watches ++ [ws] } := by
  refine ⟨h.scratch, hidx, ?_, h.retains, ?_⟩
  · intro id hid
    simp only [List.length_append, List.length_singleton] at hid
    rw [hview id (by omega)]
    exact h.fresh id (by omega)
  · intro id ws' hws'
    rcases getElem?_append_singleton hws' with hold | ⟨rfl, rfl⟩
    · rw [hview id (List.getElem?_eq_some_iff.1 hold).1.ne]
      exact h.watch id ws' hold
    · exact hnew

theorem Inv.stepped {s s' : System} {l : Label} (h : Inv s) (hs : s.Stepped l s') : Inv s' := by
  cases hs with
  | accepted t hnew closing => exact h.accepted hnew closing
  | idle l stopped closing closed => exact ⟨h.scratch, h.indexed, h.fresh, h.retains, h.watch⟩
  | unknown req err hp =>
    refine h.joined h.indexed (fun _ _ => rfl) ?_
    rw [h.fresh _ (Nat.le_refl _)]
    exact .opened rfl rfl req (.inr ⟨_, rfl⟩)
  | opened req p hp =>
    have hfresh := Registry.view_eq.1 (h.fresh s.watches.length (Nat.le_refl _))
    have hunreg : s.watches.length ∉ s.hub.registry.watchers := by simpa using hfresh.2
    refine h.joined (h.indexed.setCell_of_not_mem hunreg _) ?_ ?_
    · intro id hne
      exact Registry.view_congr (by simp [Registry.setCell, hne]) Iff.rfl
    · have hview : ∀ c, (s.hub.registry.setCell s.watches.length c).view s.watches.length =
          (c, false) := by
        intro c
        simp [Registry.view, Registry.setCell, hunreg]
      rw [hview]
      exact .opened rfl rfl req (.inl rfl)
  | moved id act ws m hws hm => exact h.moved hws hm

/-- **The invariant** holds in every reachable state. -/
theorem Reaches.inv {ok : System → Label → Prop} {s : System}
    (h : Reaches machine ok s) : Inv s := by
  refine h.invariant ?_ ?_
  · rintro s ⟨parseLSN, cfg, hub, hnew, rfl⟩
    exact .initial hnew
  · intro s l s' _ hinv _ hstep
    exact hinv.stepped (System.step_stepped hstep)

/-- What other steps leave of a watch: all but the note that it was ended. -/
theorem Inv.step_others {s s' : System} {l : Label} (hinv : Inv s) (h : s.step l = some s')
    {id : WatcherId} {ws : WatchState} (hws : s.watches[id]? = some ws)
    (hl : ∀ act, l ≠ .watch id act) :
    (∃ ended, s'.watches[id]? = some { ws with history := { ws.history with ended := ended } }) ∧
      (s'.hub.registry.cell id).Static (s.hub.registry.cell id) ∧ s.accepted <+: s'.accepted := by
  have hlt : id < s.watches.length := (List.getElem?_eq_some_iff.1 hws).1
  cases System.step_stepped h with
  | accepted t hnew closing =>
    refine ⟨?_, Hub.acceptNew_static hinv.indexed hinv.scratch t, List.prefix_append ..⟩
    obtain ⟨ended, heq, -⟩ := ws.noteAccept_eq s t (s.hub.acceptNew t) id
    exact ⟨ended, by rw [List.getElem?_mapIdx, hws, Option.map_some, heq]⟩
  | idle l stopped closing closed =>
    exact ⟨⟨ws.history.ended, hws⟩, ⟨rfl, rfl⟩, List.prefix_refl _⟩
  | unknown req err hp =>
    exact ⟨⟨ws.history.ended, by rw [List.getElem?_append_left hlt]; exact hws⟩, ⟨rfl, rfl⟩,
      List.prefix_refl _⟩
  | opened req p hp =>
    refine ⟨⟨ws.history.ended, by rw [List.getElem?_append_left hlt]; exact hws⟩, ?_,
      List.prefix_refl _⟩
    simp [Watcher.Static, Registry.setCell, hlt.ne]
  | moved id' act ws' m hws' hm =>
    have hne : id ≠ id' := fun heq => hl act (by rw [heq])
    have hcell := (Registry.view_eq.1 (hm.view_of_ne hne)).1
    refine ⟨⟨ws.history.ended, ?_⟩, ?_, List.prefix_refl _⟩
    · rw [System.moved, List.getElem?_set_ne (Ne.symm hne)]
      exact hws
    · rw [System.moved, hcell]
      exact ⟨rfl, rfl⟩

/-! ## The induction rule for one watch -/

section WatchRule

variable {ok : System → Label → Prop} {P : WatcherId → Watcher → List Transaction →
  WatchState → Prop}

/-- A property of one watch, its watcher and what the hub has accepted holds in every reachable
state if it holds of a new Watch call, and accepting a transaction and the watch's own steps keep
it. -/
theorem Reaches.step_rule
    (hopen : ∀ id c accepted req p, c.queue = [] → p = .start ∨ (∃ err, p = .returned err) →
      P id c accepted ⟨req, p, [], {}⟩)
    (haccept : ∀ s t id ws, Reaches machine ok s → ok s (.accept t) → s.hub.isNew t = .ok true →
      s.watches[id]? = some ws → P id (s.hub.registry.cell id) s.accepted ws →
      P id ((s.hub.acceptNew t).registry.cell id) (s.accepted ++ [t])
        (ws.noteAccept s t (s.hub.acceptNew t) id))
    (hmove : ∀ s id ws act m, Reaches machine ok s → s.watches[id]? = some ws →
      ws.phase.step ws.request (fun tick => decide (tick ∈ s.closed)) s.hub id act = some m →
      P id (s.hub.registry.cell id) s.accepted ws →
      P id (m.hub.registry.cell id) s.accepted (ws.moved s id m))
    {s : System} (h : Reaches machine ok s) :
    ∀ id ws, s.watches[id]? = some ws → P id (s.hub.registry.cell id) s.accepted ws := by
  refine Reaches.invariant (I := fun s => ∀ id ws, s.watches[id]? = some ws →
    P id (s.hub.registry.cell id) s.accepted ws) ?_ ?_ h
  · rintro s ⟨parseLSN, cfg, hub, -, rfl⟩ id ws hws
    simp at hws
  · intro s l s' hreach hP hok hstep
    have hinv := Reaches.inv hreach
    intro id' ws' hws'
    by_cases hlabel : ∃ id act, l = .watch id act
    · obtain ⟨id, act, rfl⟩ := hlabel
      obtain ⟨ws, hws, hmap⟩ := Option.bind_eq_some_iff.1 hstep
      obtain ⟨m, hm, rfl⟩ := Option.map_eq_some_iff.1 hmap
      simp only [System.moved, List.getElem?_set] at hws'
      rw [if_pos (List.getElem?_eq_some_iff.1 hws).1] at hws'
      split at hws'
      · next heq =>
        subst heq
        cases hws'
        exact hmove s id ws act m hreach hws hm (hP id ws hws)
      · next hne =>
        have hcell := (Registry.view_eq.1 ((Phase.step_moves hm).view_of_ne (Ne.symm hne))).1
        show P id' (m.hub.registry.cell id') _ _
        rw [hcell]
        exact hP id' ws' hws'
    · cases System.step_stepped hstep with
      | accepted t hnew closing =>
        rw [List.getElem?_mapIdx, Option.map_eq_some_iff] at hws'
        obtain ⟨ws, hws, rfl⟩ := hws'
        exact haccept s t id' ws hreach hok hnew hws (hP id' ws hws)
      | idle l stopped closing closed => exact hP id' ws' hws'
      | unknown req err hp =>
        rcases getElem?_append_singleton hws' with hold | ⟨rfl, rfl⟩
        · exact hP id' ws' hold
        · have hfresh := (Registry.view_eq.1 (hinv.fresh s.watches.length (Nat.le_refl _))).1
          exact hopen _ _ _ _ _ (by rw [hfresh]; rfl) (.inr ⟨_, rfl⟩)
      | opened req p hp =>
        rcases getElem?_append_singleton hws' with hold | ⟨rfl, rfl⟩
        · have hne : id' ≠ s.watches.length := (List.getElem?_eq_some_iff.1 hold).1.ne
          simpa [Registry.setCell, hne] using hP id' ws' hold
        · exact hopen _ _ _ _ _ (by simp [Registry.setCell]) (.inl rfl)
      | moved id act ws m hws hm => exact absurd ⟨id, act, rfl⟩ hlabel

/-- `step_rule` for what follows from a step being one of the listed moves. -/
theorem Reaches.watch_rule
    (hopen : ∀ id c accepted req p, c.queue = [] → p = .start ∨ (∃ err, p = .returned err) →
      P id c accepted ⟨req, p, [], {}⟩)
    (haccept : ∀ s t id ws, Reaches machine ok s → ok s (.accept t) → s.hub.isNew t = .ok true →
      s.watches[id]? = some ws → P id (s.hub.registry.cell id) s.accepted ws →
      P id ((s.hub.acceptNew t).registry.cell id) (s.accepted ++ [t])
        (ws.noteAccept s t (s.hub.acceptNew t) id))
    (hmove : ∀ s id ws m, Reaches machine ok s → s.watches[id]? = some ws →
      Moves s.hub id ws.phase m → P id (s.hub.registry.cell id) s.accepted ws →
      P id (m.hub.registry.cell id) s.accepted (ws.moved s id m))
    {s : System} (h : Reaches machine ok s) :
    ∀ id ws, s.watches[id]? = some ws → P id (s.hub.registry.cell id) s.accepted ws :=
  Reaches.step_rule hopen haccept
    (fun s id ws _ m hreach hws hm hP => hmove s id ws m hreach hws (Phase.step_moves hm) hP) h

end WatchRule

end Watchd.Watch
