import Watchd.Lib.Observed
import Watchd.Watch.Alike

/-!
# One scope's traffic reveals nothing about another's

Two runs of the hub are compared through what one watch can see: its own steps,
Stop, the position and the scope's part of every accepted transaction, and the
two things other watches do that bear on it (recording the first snapshot,
clearing its stale table).  Runs that show the same send the same.

This is `sent_of_shown`.
-/

namespace Watchd.Watch

open Watchd.Cdc Watchd.Lib

/-! ## What a watch can see of a step -/

/-- What a step is to one watch. -/
inductive Obs
  /-- Accept of a transaction, as the watch sees it -/
  | accept (t : Transaction)
  | stop
  /-- the watch is opened -/
  | opened
  /-- a step of the watch -/
  | act (act : Act)
  /-- another watch records the hub's first snapshot -/
  | recorded (cursor : Cursor)
  /-- another watch takes the watch's table out of `stale` -/
  | cleared

deriving instance DecidableEq for Act, Obs

/-- What the watch `id`, opened with `req`, can see of a step. -/
def observe (req : Request) (id : WatcherId) (s : System) : Label → Option Obs
  | .accept t => some (.accept (seen (s.hub.projections.lookup req.projection) req.scope t))
  | .stop => some .stop
  | .close _ => none
  | .open_ _ => if s.watches.length = id then some .opened else none
  | .watch other act =>
    if other = id then some (.act act)
    else
      s.watches[other]?.bind fun ws =>
        if ws.phase.clearing = true ∧ ∃ p ∈ s.hub.projections.lookup req.projection,
            p.table = (s.hub.registry.cell other).projection.table ∧ p.table ∈ s.hub.stale then
          some .cleared
        else if s.hub.window.floor.isNone then ws.phase.recording?.map .recorded else none

/-- The watch `id` is opened with `req`. -/
def opensWith (req : Request) (id : WatcherId) (s : System) : Label → Prop
  | .open_ r => s.watches.length = id → r = req
  | _ => True

instance (req : Request) (id : WatcherId) (s : System) :
    (l : Label) → Decidable (opensWith req id s l)
  | .open_ r => inferInstanceAs (Decidable (s.watches.length = id → r = req))
  | .accept _ | .close _ | .stop | .watch _ _ => .isTrue trivial

/-! ## Steps of others -/

section Others

variable {h : Hub} {id other : WatcherId} {m : Move} {a : Phase}

/-- What a step of another watch does to the sight of a watch. -/
theorem sight_of_other {p : Option Projection} {scope : Text} {req : Request}
    {closed : TickId → Bool} {act : Act} (hm : a.step req closed h other act = some m)
    (hne : id ≠ other) :
    m.hub.sight p scope id = { h.sight p scope id with
      window := (a.recording?.map (h.sight p scope id).window.recordSnapshotLocked).getD
        (h.sight p scope id).window
      stale := if a.clearing = true ∧ ∃ p₁ ∈ p, p₁.table = (h.registry.cell other).projection.table
        then false else (h.sight p scope id).stale } := by
  have hmoves := Phase.step_moves hm
  obtain ⟨hsource, hparse, hstopped, -, hsize⟩ := hmoves.fixed
  obtain ⟨hcell, hreg⟩ := Registry.view_eq.1 (hmoves.view_of_ne hne)
  refine Sight.ext hsource hparse hsize ?_ ?_ hstopped ?_ hreg
  · have hwindow := Phase.step_window hm
    show m.hub.window.seen p scope = _
    cases hrec : a.recording? with
    | none =>
      rw [hrec] at hwindow
      rw [show m.hub.window = h.window from hwindow]
      rfl
    | some c =>
      rw [hrec] at hwindow
      rw [show m.hub.window = h.window.recordSnapshotLocked c from hwindow,
        Window.seen_recordSnapshotLocked]
      rfl
  · show (p.any fun p => decide (p.table ∈ m.hub.stale)) = _
    rw [Phase.step_stale hm]
    cases p with
    | none => simp [Hub.sight]
    | some p₁ =>
      by_cases hclear : a.clearing = true
      · by_cases htable : p₁.table = (h.registry.cell other).projection.table
        · simp [hclear, htable]
        · simp [hclear, htable, Hub.sight]
      · simp [hclear, Hub.sight]
  · exact congrArg (Watcher.seen p scope) hcell

end Others

theorem getElem?_append_of_ne {α : Type*} {l : List α} {a : α} {i : Nat} (h : l.length ≠ i) :
    (l ++ [a])[i]? = l[i]? := by
  rcases Nat.lt_or_gt_of_ne h with hlt | hgt
  · rw [List.getElem?_eq_none (by simp; omega), List.getElem?_eq_none (by omega)]
  · exact List.getElem?_append_left hgt

section Silent

variable {req : Request} {id : WatcherId} {s t : System}

/-- The sight of a watch does not change when a watcher is made for another. -/
theorem Hub.sight_setCell {h : Hub} {p : Option Projection} {scope : Text} {other : WatcherId}
    (hne : other ≠ id) (c : Watcher) :
    ({ h with registry := h.registry.setCell other c } : Hub).sight p scope id =
      h.sight p scope id := by
  refine Sight.ext rfl rfl rfl rfl rfl rfl ?_ rfl
  have hcell : (h.registry.setCell other c).cell id = h.registry.cell id :=
    Function.update_of_ne (Ne.symm hne) ..
  exact congrArg (Watcher.seen p scope) hcell

/-- A new watch sees its own watcher made. -/
theorem Hub.sight_openCell {h : Hub} {p : Option Projection} {scope : Text} (c : Watcher) :
    ({ h with registry := h.registry.setCell id c } : Hub).sight p scope id =
      { h.sight p scope id with watcher := c.seen p scope } := by
  refine Sight.ext rfl rfl rfl rfl rfl rfl ?_ rfl
  simp [Hub.sight, Registry.setCell]

theorem Phase.not_clearing_of_recording {a : Phase} {c : Cursor} (h : a.recording? = some c) :
    a.clearing = false := by
  cases a <;> first | rfl | cases h

theorem Phase.recording?_of_clearing {a : Phase} (h : a.clearing = true) : a.recording? = none := by
  cases a <;> first | rfl | cases h

/-- A step that shows nothing changes nothing in sight. -/
theorem sight_of_silent {l : Label} (hs : s.step l = some t) (hobs : observe req id s l = none) :
    t.hub.sight (s.hub.projections.lookup req.projection) req.scope id =
        s.hub.sight (s.hub.projections.lookup req.projection) req.scope id ∧
      t.watches[id]? = s.watches[id]? := by
  cases l with
  | accept t => cases hobs
  | stop => cases hobs
  | close tick =>
    simp only [System.step] at hs
    split at hs
    · cases hs
      exact ⟨rfl, rfl⟩
    · cases hs
  | open_ r =>
    have hne : s.watches.length ≠ id := by
      intro heq
      simp [observe, heq] at hobs
    simp only [System.step, System.openWatch, Option.some.injEq] at hs
    subst hs
    split
    · exact ⟨rfl, getElem?_append_of_ne hne⟩
    · exact ⟨Hub.sight_setCell hne _, getElem?_append_of_ne hne⟩
  | watch other act =>
    have hne : other ≠ id := by
      rintro rfl
      simp [observe] at hobs
    obtain ⟨ws, hws, hmap⟩ := Option.bind_eq_some_iff.1 hs
    obtain ⟨m, hm, rfl⟩ := Option.map_eq_some_iff.1 hmap
    simp only [observe, if_neg hne, hws, Option.bind_some] at hobs
    refine ⟨?_, List.getElem?_set_ne hne⟩
    split at hobs
    · cases hobs
    · next hclear =>
      show m.hub.sight _ _ _ = _
      rw [sight_of_other hm (Ne.symm hne)]
      refine Sight.ext rfl rfl rfl ?_ ?_ rfl rfl rfl
      · -- the floor is set already, or nothing is recorded
        cases hrec : ws.phase.recording? with
        | none => rfl
        | some c =>
          have hfloor : s.hub.window.floor.isNone = false := by
            by_contra hnone
            rw [Bool.not_eq_false] at hnone
            simp [hnone, hrec] at hobs
          exact Window.recordSnapshotLocked_of_floor hfloor
      · -- the table cleared is another one, or was not stale
        simp only
        split
        · next hcl =>
          obtain ⟨hclearing, p₁, hp₁, htable⟩ := hcl
          have hnot : p₁.table ∉ s.hub.stale := fun hmem =>
            hclear ⟨hclearing, p₁, hp₁, htable, hmem⟩
          simp only [Hub.sight, Option.mem_def.1 hp₁, Option.any_some]
          exact (decide_eq_false hnot).symm
        · rfl

end Silent

/-! ## The observed watch -/

section Tuned

variable {req : Request} {id : WatcherId} {s t : System}

theorem Watcher.Of.of_static {p : Option Projection} {scope : Text} {c c' : Watcher}
    (h : c.Of p scope) (hst : c'.Static c) : c'.Of p scope :=
  ⟨h.1.trans (congrArg some hst.1.symm), hst.2.trans h.2⟩

/-- The watch `id` is `req`'s, and so is its watcher unless its projection was unknown. -/
def Tuned (req : Request) (id : WatcherId) (s : System) : Prop :=
  ∀ ws, s.watches[id]? = some ws → ws.request = req ∧
    ((s.hub.registry.cell id).Of (s.hub.projections.lookup req.projection) req.scope ∨
      ∃ err, ws.phase = .returned err)

theorem Tuned.of_moved (h : Tuned req id s) {ws : WatchState} {m : Move}
    (hws : s.watches[id]? = some ws) (hm : Moves s.hub id ws.phase m) :
    ws.request = req ∧
      (s.hub.registry.cell id).Of (s.hub.projections.lookup req.projection) req.scope := by
  obtain ⟨hreq, hwatcher⟩ := h ws hws
  refine ⟨hreq, hwatcher.resolve_right ?_⟩
  rintro ⟨err, hret⟩
  rw [hret] at hm
  exact Moves.not_returned hm

theorem Tuned.stepped {l : Label} (h : Tuned req id s) (hinv : Inv s) (hok : opensWith req id s l)
    (hs : s.step l = some t) : Tuned req id t := by
  have hproj := (System.step_fixed hs).2.2
  intro ws hws
  rw [hproj]
  cases System.step_stepped hs with
  | accepted t hnew closing =>
    rw [List.getElem?_mapIdx, Option.map_eq_some_iff] at hws
    obtain ⟨ws₀, hws₀, rfl⟩ := hws
    obtain ⟨hreq, hwatcher⟩ := h ws₀ hws₀
    obtain ⟨ended, heq, -⟩ := ws₀.noteAccept_eq s t (s.hub.acceptNew t) id
    rw [heq]
    exact ⟨hreq, hwatcher.imp_left fun hof =>
      hof.of_static (Hub.acceptNew_static hinv.indexed hinv.scratch t)⟩
  | idle l stopped closing closed => exact h ws hws
  | unknown r err hp =>
    rcases getElem?_append_singleton hws with hold | ⟨rfl, rfl⟩
    · exact h ws hold
    · exact ⟨hok rfl, .inr ⟨_, rfl⟩⟩
  | opened r p hp =>
    rcases getElem?_append_singleton hws with hold | ⟨rfl, rfl⟩
    · have hne := (List.getElem?_eq_some_iff.1 hold).1.ne
      simpa [Registry.setCell, hne] using h ws hold
    · have hreq : r = req := hok rfl
      subst hreq
      exact ⟨rfl, .inl (by simp [Watcher.Of, Registry.setCell, hp])⟩
  | moved other act ws₀ m hws₀ hm =>
    simp only [System.moved, List.getElem?_set, if_pos (List.getElem?_eq_some_iff.1 hws₀).1] at hws
    split at hws
    · next heq =>
      subst heq
      cases hws
      obtain ⟨hreq, hof⟩ := h.of_moved hws₀ hm
      exact ⟨hreq, .inl (hof.of_static hm.static)⟩
    · next hne =>
      have hcell := (Registry.view_eq.1 (hm.view_of_ne (Ne.symm hne))).1
      show _ ∧ ((m.hub.registry.cell id).Of _ _ ∨ _)
      rw [hcell]
      exact h ws hws

theorem Tuned.of_registered (h : Tuned req id s) (hinv : Inv s)
    (hmem : id ∈ s.hub.registry.watchers) :
    (s.hub.registry.cell id).Of (s.hub.projections.lookup req.projection) req.scope := by
  cases hws : s.watches[id]? with
  | none =>
    have hfresh := Registry.view_eq.1 (hinv.fresh id (List.getElem?_eq_none_iff.1 hws))
    exact absurd hmem (by simpa using hfresh.2)
  | some ws =>
    rcases (h ws hws).2 with hof | ⟨err, hret⟩
    · exact hof
    · have hreg := (hinv.watch id ws hws).books.registered
      simp [Registry.view, hmem, hret, Phase.registered] at hreg

end Tuned

/-! ## Two runs -/

section TwoRuns

variable {req : Request} {id id' : WatcherId} {s s' t t' : System}

/-- Two Watch calls look alike. -/
structure WatchState.Alike (p : Option Projection) (scope : Text) (ws ws' : WatchState) : Prop where
  phase : Phase.Alike p scope ws.phase ws'.phase
  sent : ws.sent.map Event.bare = ws'.sent.map Event.bare

theorem WatchState.Alike.symm {p : Option Projection} {scope : Text} {ws ws' : WatchState}
    (h : ws.Alike p scope ws') : ws'.Alike p scope ws :=
  ⟨h.phase.symm, h.sent.symm⟩

theorem rel_symm {α : Type*} {r : α → α → Prop} (hr : ∀ a b, r a b → r b a) {a b : Option α}
    (h : Option.Rel r a b) : Option.Rel r b a := by
  cases h with
  | some hab => exact .some (hr _ _ hab)
  | none => exact .none

theorem rel_map {α β : Type*} {r : α → α → Prop} {q : β → β → Prop} {f g : α → β}
    (hfg : ∀ a b, r a b → q (f a) (g b)) {a b : Option α} (h : Option.Rel r a b) :
    Option.Rel q (a.map f) (b.map g) := by
  cases h with
  | some hab => exact .some (hfg _ _ hab)
  | none => exact .none

/-- The watch `id` of one run and the watch `id'` of another look alike and see the same. -/
structure Indistinct (req : Request) (id id' : WatcherId) (s s' : System) : Prop where
  inv : Inv s
  inv' : Inv s'
  tuned : Tuned req id s
  tuned' : Tuned req id' s'
  projections : s.hub.projections = s'.hub.projections
  sight : s.hub.sight (s.hub.projections.lookup req.projection) req.scope id =
    s'.hub.sight (s.hub.projections.lookup req.projection) req.scope id'
  watch : Option.Rel (WatchState.Alike (s.hub.projections.lookup req.projection) req.scope)
    s.watches[id]? s'.watches[id']?

theorem Indistinct.symm (h : Indistinct req id id' s s') : Indistinct req id' id s' s := by
  refine ⟨h.inv', h.inv, h.tuned', h.tuned, h.projections.symm, ?_, ?_⟩
  · rw [← h.projections]
    exact h.sight.symm
  · rw [← h.projections]
    exact rel_symm (fun _ _ => WatchState.Alike.symm) h.watch

/-- A step of one run that shows nothing keeps the runs indistinct. -/
theorem Indistinct.silent {l : Label} (h : Indistinct req id id' s s') (hok : opensWith req id s l)
    (hs : s.step l = some t) (hobs : observe req id s l = none) : Indistinct req id id' t s' := by
  have hproj := (System.step_fixed hs).2.2
  obtain ⟨hsight, hwatch⟩ := sight_of_silent hs hobs
  refine ⟨h.inv.stepped (System.step_stepped hs), h.inv', h.tuned.stepped h.inv hok hs, h.tuned',
    hproj.trans h.projections, ?_, ?_⟩
  · rw [hproj, hsight]
    exact h.sight
  · rw [hproj, hwatch]
    exact h.watch

/-- Steps of both runs keep them indistinct if they keep sights and watches alike. -/
theorem Indistinct.both (l l' : Label) (h : Indistinct req id id' s s') (hok : opensWith req id s l)
    (hok' : opensWith req id' s' l') (hs : s.step l = some t) (hs' : s'.step l' = some t')
    (hsight : t.hub.sight (s.hub.projections.lookup req.projection) req.scope id =
      t'.hub.sight (s.hub.projections.lookup req.projection) req.scope id')
    (hwatch : Option.Rel (WatchState.Alike (s.hub.projections.lookup req.projection) req.scope)
      t.watches[id]? t'.watches[id']?) : Indistinct req id id' t t' := by
  have hproj := (System.step_fixed hs).2.2
  refine ⟨h.inv.stepped (System.step_stepped hs), h.inv'.stepped (System.step_stepped hs'),
    h.tuned.stepped h.inv hok hs, h.tuned'.stepped h.inv' hok' hs', ?_, ?_, ?_⟩
  · rw [hproj, (System.step_fixed hs').2.2, h.projections]
  · rw [hproj]
    exact hsight
  · rw [hproj]
    exact hwatch

/-- What a step was that showed something. -/
inductive Observed (req : Request) (id : WatcherId) (s : System) : Label → Obs → Prop
  | accept (t t₀ : Transaction)
      (ht : seen (s.hub.projections.lookup req.projection) req.scope t = t₀) :
    Observed req id s (.accept t) (.accept t₀)
  | stop : Observed req id s .stop .stop
  | opened (r : Request) (hid : s.watches.length = id) : Observed req id s (.open_ r) .opened
  | act (a : Act) : Observed req id s (.watch id a) (.act a)
  | recorded (other : WatcherId) (a : Act) (ws : WatchState) (c : Cursor) (hne : other ≠ id)
      (hws : s.watches[other]? = some ws) (hrec : ws.phase.recording? = some c) :
    Observed req id s (.watch other a) (.recorded c)
  | cleared (other : WatcherId) (a : Act) (ws : WatchState) (hne : other ≠ id)
      (hws : s.watches[other]? = some ws) (hclear : ws.phase.clearing = true)
      (htable : ∃ p ∈ s.hub.projections.lookup req.projection,
        p.table = (s.hub.registry.cell other).projection.table) :
    Observed req id s (.watch other a) .cleared

theorem observed_of_observe {l : Label} {o : Obs} (hobs : observe req id s l = some o) :
    Observed req id s l o := by
  cases l with
  | accept t =>
    cases hobs
    exact .accept t _ rfl
  | stop =>
    cases hobs
    exact .stop
  | close tick => cases hobs
  | open_ r =>
    simp only [observe, Option.ite_none_right_eq_some] at hobs
    obtain ⟨hid, ho⟩ := hobs
    cases ho
    exact .opened r hid
  | watch other a =>
    simp only [observe] at hobs
    split at hobs
    · next heq =>
      subst heq
      cases hobs
      exact .act a
    · next hne =>
      obtain ⟨ws, hws, hobs⟩ := Option.bind_eq_some_iff.1 hobs
      split at hobs
      · next hcl =>
        obtain ⟨hclear, p, hp, htable, -⟩ := hcl
        cases hobs
        exact .cleared other a ws hne hws hclear ⟨p, hp, htable⟩
      · simp only [Option.ite_none_right_eq_some, Option.map_eq_some_iff] at hobs
        obtain ⟨-, c, hrec, ho⟩ := hobs
        cases ho
        exact .recorded other a ws c hne hws hrec

/-! ### The same observation in both runs -/

theorem System.accept_of_old {x : Transaction} (hnew : s.hub.isNew x ≠ .ok true) :
    s.accept x = s := by
  unfold System.accept
  split
  · next h _ => exact absurd h hnew
  · rfl

theorem Indistinct.accept {x x' : Transaction} (h : Indistinct req id id' s s')
    (hx : seen (s.hub.projections.lookup req.projection) req.scope x =
      seen (s.hub.projections.lookup req.projection) req.scope x') :
    Indistinct req id id' (s.accept x) (s'.accept x') := by
  have hisNew := Hub.isNew_of_sight h.sight hx
  refine h.both (.accept x) (.accept x') trivial trivial rfl rfl ?_ ?_
  · by_cases hnew : s.hub.isNew x = .ok true
    · rw [(System.accept_of_new hnew).1, (System.accept_of_new (hisNew ▸ hnew)).1]
      refine Hub.sight_acceptNew h.inv.indexed h.inv.scratch h.inv'.indexed h.inv'.scratch h.sight
        (h.tuned.of_registered h.inv) ?_ hx
      rw [h.projections]
      exact h.tuned'.of_registered h.inv'
    · rw [System.accept_of_old hnew, System.accept_of_old (hisNew ▸ hnew)]
      exact h.sight
  · by_cases hnew : s.hub.isNew x = .ok true
    · rw [(System.accept_of_new hnew).2.1, (System.accept_of_new (hisNew ▸ hnew)).2.1,
        List.getElem?_mapIdx, List.getElem?_mapIdx]
      refine rel_map ?_ h.watch
      intro ws ws' hws
      obtain ⟨ended, heq, -⟩ := ws.noteAccept_eq s x (s.hub.acceptNew x) id
      obtain ⟨ended', heq', -⟩ := ws'.noteAccept_eq s' x' (s'.hub.acceptNew x') id'
      rw [heq, heq']
      exact ⟨hws.phase, hws.sent⟩
    · rw [System.accept_of_old hnew, System.accept_of_old (hisNew ▸ hnew)]
      exact h.watch

theorem Indistinct.opened (h : Indistinct req id id' s s') (hid : s.watches.length = id)
    (hid' : s'.watches.length = id') :
    Indistinct req id id' (s.openWatch req) (s'.openWatch req) := by
  subst hid hid'
  refine h.both (.open_ req) (.open_ req) (fun _ => rfl) (fun _ => rfl) rfl rfl ?_ ?_
  · unfold System.openWatch
    rw [← h.projections]
    split
    · exact h.sight
    · rw [Hub.sight_openCell, Hub.sight_openCell, h.sight]
  · unfold System.openWatch
    rw [← h.projections]
    split
    · simp only [List.getElem?_concat_length]
      exact .some ⟨.returned _, rfl⟩
    · simp only [List.getElem?_concat_length]
      exact .some ⟨.start, rfl⟩

theorem Indistinct.act {a : Act} (h : Indistinct req id id' s s')
    (hs : s.step (.watch id a) = some t) (hs' : s'.step (.watch id' a) = some t') :
    Indistinct req id id' t t' := by
  obtain ⟨ws, hws, hmap⟩ := Option.bind_eq_some_iff.1 hs
  obtain ⟨m, hm, rfl⟩ := Option.map_eq_some_iff.1 hmap
  obtain ⟨ws', hws', hmap'⟩ := Option.bind_eq_some_iff.1 hs'
  obtain ⟨m', hm', rfl⟩ := Option.map_eq_some_iff.1 hmap'
  obtain ⟨hreq, hof⟩ := h.tuned.of_moved hws (Phase.step_moves hm)
  obtain ⟨hreq', hof'⟩ := h.tuned'.of_moved hws' (Phase.step_moves hm')
  have halike : ws.Alike (s.hub.projections.lookup req.projection) req.scope ws' := by
    have hrel := h.watch
    rw [hws, hws'] at hrel
    cases hrel with
    | some halike => exact halike
  rw [hreq] at hm
  rw [hreq'] at hm'
  rw [← h.projections] at hof'
  have hmoved := halike.phase.step h.sight hof hof' h.inv.indexed h.inv'.indexed hm hm'
  refine h.both (.watch id a) (.watch id' a) trivial trivial hs hs' hmoved.sight ?_
  simp only [System.moved, List.getElem?_set_self (List.getElem?_eq_some_iff.1 hws).1,
    List.getElem?_set_self (List.getElem?_eq_some_iff.1 hws').1]
  refine .some ⟨hmoved.phase, ?_⟩
  simp only [WatchState.moved, List.map_append, halike.sent, ← Option.toList_map, hmoved.sent]

theorem Indistinct.other {o o' : WatcherId} {a a' : Act} {ws ws' : WatchState}
    (h : Indistinct req id id' s s') (hs : s.step (.watch o a) = some t)
    (hs' : s'.step (.watch o' a') = some t') (hne : o ≠ id) (hne' : o' ≠ id')
    (hws : s.watches[o]? = some ws) (hws' : s'.watches[o']? = some ws')
    (hrec : ws.phase.recording? = ws'.phase.recording?)
    (hclear : (ws.phase.clearing = true ∧ ∃ p ∈ s.hub.projections.lookup req.projection,
        p.table = (s.hub.registry.cell o).projection.table) ↔
      (ws'.phase.clearing = true ∧ ∃ p ∈ s.hub.projections.lookup req.projection,
        p.table = (s'.hub.registry.cell o').projection.table)) :
    Indistinct req id id' t t' := by
  obtain ⟨ws₁, hws₁, hmap⟩ := Option.bind_eq_some_iff.1 hs
  cases hws.symm.trans hws₁
  obtain ⟨m, hm, rfl⟩ := Option.map_eq_some_iff.1 hmap
  obtain ⟨ws₂, hws₂, hmap'⟩ := Option.bind_eq_some_iff.1 hs'
  cases hws'.symm.trans hws₂
  obtain ⟨m', hm', rfl⟩ := Option.map_eq_some_iff.1 hmap'
  refine h.both (.watch o a) (.watch o' a') trivial trivial hs hs' ?_ ?_
  · show m.hub.sight _ _ _ = m'.hub.sight _ _ _
    rw [sight_of_other hm (Ne.symm hne), sight_of_other hm' (Ne.symm hne'), h.sight, hrec]
    simp only [hclear]
  · simp only [System.moved, List.getElem?_set_ne hne, List.getElem?_set_ne hne']
    exact h.watch

/-- Steps that show the same keep the runs indistinct. -/
theorem Indistinct.loud {l l' : Label} {o : Obs} (h : Indistinct req id id' s s')
    (hok : opensWith req id s l) (hok' : opensWith req id' s' l') (hs : s.step l = some t)
    (hs' : s'.step l' = some t') (hobs : Observed req id s l o) (hobs' : Observed req id' s' l' o) :
    Indistinct req id id' t t' := by
  cases hobs with
  | accept x t₀ hx =>
    cases hobs' with
    | accept x' _ hx' =>
      cases hs
      cases hs'
      rw [← h.projections] at hx'
      exact h.accept (hx.trans hx'.symm)
  | stop =>
    cases hobs' with
    | stop =>
      refine h.both .stop .stop hok hok' hs hs' ?_ ?_
      · cases hs
        cases hs'
        exact congrArg (fun v : Sight => { v with stopped := true }) h.sight
      · cases hs
        cases hs'
        exact h.watch
  | opened r hid =>
    cases hobs' with
    | opened r' hid' =>
      cases hs
      cases hs'
      rw [hok hid, hok' hid']
      exact h.opened hid hid'
  | act a =>
    cases hobs' with
    | act => exact h.act hs hs'
  | recorded other a ws c hne hws hrec =>
    cases hobs' with
    | recorded other' a' ws' _ hne' hws' hrec' =>
      refine h.other hs hs' hne hne' hws hws' (hrec.trans hrec'.symm) ?_
      simp [Phase.not_clearing_of_recording hrec, Phase.not_clearing_of_recording hrec']
  | cleared other a ws hne hws hclear htable =>
    cases hobs' with
    | cleared other' a' ws' hne' hws' hclear' htable' =>
      rw [← h.projections] at htable'
      refine h.other hs hs' hne hne' hws hws' ?_
        ⟨fun _ => ⟨hclear', htable'⟩, fun _ => ⟨hclear, htable⟩⟩
      rw [Phase.recording?_of_clearing hclear, Phase.recording?_of_clearing hclear']

end TwoRuns

/-- **One scope's traffic reveals nothing about another's**: runs that show a watch the same have it
send the same events. -/
theorem sent_of_shown {parseLSN : String → Option Nat} {cfg : Config} {h : Hub}
    (hnew : Hub.new parseLSN cfg = .ok h) (req : Request) {id id' : WatcherId} {s s' : System}
    {trace : List Obs}
    (hs : Shows machine (opensWith req id) (observe req id) { hub := h } s trace)
    (hs' : Shows machine (opensWith req id') (observe req id') { hub := h } s' trace)
    {ws ws' : WatchState} (hws : s.watches[id]? = some ws) (hws' : s'.watches[id']? = some ws') :
    ws.sent.map Event.bare = ws'.sent.map Event.bare := by
  have hinv := Inv.initial hnew
  have hstart : Indistinct req id id' { hub := h } { hub := h } := by
    have htuned : ∀ id, Tuned req id { hub := h } := by
      intro id ws hws
      simp at hws
    obtain ⟨projections, maxReplay, queueSize, rfl⟩ := Hub.new_ok hnew
    exact ⟨hinv, hinv, htuned id, htuned id', rfl, rfl, by simp⟩
  have hrel := Shows.related (R := Indistinct req id id')
    (fun _ _ _ _ hok hstep hobs hR => hR.silent hok hstep hobs)
    (fun _ _ _ _ hok hstep hobs hR => (hR.symm.silent hok hstep hobs).symm)
    (fun _ _ _ _ _ _ _ hok hstep hok' hstep' hobs hobs' hR =>
      hR.loud hok hok' hstep hstep' (observed_of_observe hobs) (observed_of_observe hobs'))
    hstart hs hs'
  have hwatch := hrel.watch
  rw [hws, hws'] at hwatch
  cases hwatch with
  | some halike => exact halike.sent

namespace Demo

/-- Replays labels on a new hub with queues of one place, noting what watch `id` can see. -/
def shown (id : WatcherId) (ls : List Label) : Option (System × List Obs) :=
  (Hub.new parseLSN (config 10 1)).toOption.bind fun h =>
    Shows.replay machine (opensWith ⟨"members", tenant, ""⟩ id) (observe ⟨"members", tenant, ""⟩ id)
      ({ hub := h }, []) ls

theorem shows_of_shown {id : WatcherId} {ls : List Label} {r : System × List Obs}
    (h : shown id ls = some r) : ∃ hub, Hub.new parseLSN (config 10 1) = .ok hub ∧
      Shows machine (opensWith ⟨"members", tenant, ""⟩ id) (observe ⟨"members", tenant, ""⟩ id)
        { hub := hub } r.1 r.2 := by
  obtain ⟨hub, hhub, hrun⟩ := Option.bind_eq_some_iff.1 h
  exact ⟨hub, toOption_eq_some_iff.1 hhub, .of_replay .start hrun⟩

/-- Another tenant. -/
def neighbour : Text := [0x38]

/-- A change of the other tenant. -/
def foreign : Change :=
  { operation := .insert
    table := "public.members"
    key := ((∅ : TextMap).insert "tenant_id" neighbour).insert "user_id" [0x31] }

/-- The watch `id` up to its snapshot read. -/
def opening (id : WatcherId) : List Label :=
  .open_ ⟨"members", tenant, ""⟩ :: List.replicate 3 (.watch id .run)

/-- The watch `id` reads its snapshot, catches up and reports its position. -/
def finishing (id : WatcherId) : List Label :=
  .watch id (.read (.ok (snapshot 150))) :: List.replicate 10 (.watch id .run)

/-- The tenant's watch is alone, and nothing else changes. -/
def alone : List Label :=
  opening 0 ++ [.accept (transaction 160 15), .accept { transaction 180 16 with changes := [] }] ++
    finishing 0

/-- A watch of the other tenant is there first; its changes are in both transactions, and the second
one finds its queue full. -/
def besides : List Label :=
  [.open_ ⟨"members", neighbour, ""⟩, .watch 0 .run, .watch 0 .run] ++ opening 1 ++
    [.accept { transaction 160 15 with changes := [foreign, change] }, .watch 0 .run,
      .accept { transaction 180 16 with changes := [foreign] }] ++ finishing 1

end Demo

theorem sent_of_shown_besides : ∃ (s s' : System) (ws ws' : WatchState),
    s.watches[0]? = some ws ∧ s'.watches[1]? = some ws' ∧ batchesOf ws.sent ≠ [] ∧
      (s'.hub.registry.cell 0).overflow = true ∧
      ws.sent.map Event.bare = ws'.sent.map Event.bare := by
  have hruns : ((Demo.shown 0 Demo.alone).any fun r => (Demo.shown 1 Demo.besides).any fun r' =>
      r.2 = r'.2 ∧ r.1.watches[0]?.any (fun ws => batchesOf ws.sent ≠ []) ∧
        r'.1.watches[1]?.isSome ∧ (r'.1.hub.registry.cell 0).overflow = true) = true := by decide
  obtain ⟨r, hr, hany⟩ := (Option.any_eq_true _ _).1 hruns
  obtain ⟨r', hr', hP⟩ := (Option.any_eq_true _ _).1 hany
  obtain ⟨htrace, hsent, hsome, hover⟩ := of_decide_eq_true hP
  obtain ⟨ws, hws, hbatches⟩ := (Option.any_eq_true _ _).1 hsent
  obtain ⟨ws', hws'⟩ := Option.isSome_iff_exists.1 hsome
  obtain ⟨hub, hnew, hshows⟩ := Demo.shows_of_shown hr
  obtain ⟨hub', hnew', hshows'⟩ := Demo.shows_of_shown hr'
  cases hnew.symm.trans hnew'
  rw [← htrace] at hshows'
  exact ⟨r.1, r'.1, ws, ws', hws, hws', of_decide_eq_true hbatches, hover,
    sent_of_shown hnew _ hshows hshows' hws hws'⟩

end Watchd.Watch
