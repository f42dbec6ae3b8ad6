import Watchd.Lib.History
import Watchd.Watch.Delivery
import Watchd.Watch.Turns

/-!
# The hub over its calls

Watchers are made, registered, unregistered and served in any order, with
`Accept` called in between; nothing is assumed about who calls.  The only thing
the callers keep to is that a watcher is registered at most once, which is all
the watches of a `System` are needed for (`Reaches.calls`).

* `index_exact_ended_once`: the route index is exact, and a watcher is ended at most
  once;
* `fanout_is_filter`: a watcher is offered exactly what the plain filter gives it.
-/

namespace Watchd.Watch

open Watchd.Cdc Watchd.Lib

/-- A hub with the watchers made for it. -/
structure Calls where
  hub : Hub
  made : List WatcherId := []
  /-- the watchers that have been registered at some time -/
  enrolled : List WatcherId := []

/-- The calls on a hub's watchers, in any order. -/
inductive Call
  /-- a watcher is made, for any projection -/
  | make (w : WatcherId) (p : Projection) (scope : Text)
  | register (w : WatcherId)
  | unregister (w : WatcherId)
  /-- a watch takes the next item of its queue -/
  | take (w : WatcherId)
  | accept (t : Transaction)
  /-- anything that leaves the watchers, the memos and the scratch space alone -/
  | aside (window : Window) (stale : Finset String) (tickTaken stopped : Bool)

namespace Calls

/-- One call; `none` for one no caller makes. -/
def step (s : Calls) : Call → Option Calls
  | .make w p scope =>
    if w ∈ s.made then none
    else some { s with
      hub := { s.hub with registry := s.hub.registry.setCell w ⟨p, scope, [], false, .unset⟩ }
      made := w :: s.made }
  | .register w =>
    if w ∈ s.made ∧ w ∉ s.enrolled then
      some { s with hub := s.hub.register w, enrolled := w :: s.enrolled }
    else none
  | .unregister w =>
    some { s with hub := { s.hub with registry := s.hub.registry.unregister w } }
  | .take w =>
    match (s.hub.registry.cell w).queue with
    | [] => none
    | _ :: queue => some { s with hub := s.hub.pop w queue }
  | .accept t =>
    match s.hub.accept t with
    | .ok (h, _) => some { s with hub := h }
    | .error _ => some s
  | .aside window stale tickTaken stopped =>
    some { s with hub := { s.hub with
      window := window, stale := stale, tickTaken := tickTaken, stopped := stopped } }

/-- The machine of a hub made by `New`. -/
def machine : Machine Calls Call where
  init s := ∃ parseLSN cfg h, Hub.new parseLSN cfg = .ok h ∧ s = { hub := h }
  step := step

/-- What the hub has done so far: the items it offered and the turns that closed a channel. -/
structure Deeds where
  offered : List (WatcherId × Queued) := []
  closed : List Turn := []

/-- What a call adds to the deeds. -/
def Deeds.note (s : Calls) (l : Call) (_ : Calls) (deeds : Deeds) : Deeds :=
  match l with
  | .accept t =>
    match s.hub.isNew t with
    | .ok true =>
      { offered := deeds.offered ++ s.hub.offers t
        closed := deeds.closed ++ closings s.hub.registry (s.hub.turns t) }
    | _ => deeds
  | _ => deeds

/-- The hub with what it has done. -/
def recalled : Machine (Calls × Deeds) Call := machine.noting {} Deeds.note

/-! ## What a call can do -/

/-- What a call does to the hub and to the deeds. -/
inductive Stepped (s : Calls) (deeds : Deeds) : Calls → Deeds → Prop
  | made (w : WatcherId) (p : Projection) (scope : Text) (hw : w ∉ s.made) :
    Stepped s deeds { s with
      hub := { s.hub with registry := s.hub.registry.setCell w ⟨p, scope, [], false, .unset⟩ }
      made := w :: s.made } deeds
  | registered (w : WatcherId) (hmade : w ∈ s.made) (hnew : w ∉ s.enrolled) :
    Stepped s deeds { s with hub := s.hub.register w, enrolled := w :: s.enrolled } deeds
  | unregistered (w : WatcherId) :
    Stepped s deeds { s with hub := { s.hub with registry := s.hub.registry.unregister w } } deeds
  | taken (w : WatcherId) (item : Queued) (queue : List Queued)
      (hqueue : (s.hub.registry.cell w).queue = item :: queue) :
    Stepped s deeds { s with hub := s.hub.pop w queue } deeds
  | accepted (t : Transaction) (hnew : s.hub.isNew t = .ok true) :
    Stepped s deeds { s with hub := s.hub.acceptNew t }
      { offered := deeds.offered ++ s.hub.offers t
        closed := deeds.closed ++ closings s.hub.registry (s.hub.turns t) }
  /-- a discarded transaction, or a call that leaves the watchers alone -/
  | aside (window : Window) (stale : Finset String) (tickTaken stopped : Bool) :
    Stepped s deeds { s with hub := { s.hub with
      window := window, stale := stale, tickTaken := tickTaken, stopped := stopped } } deeds

theorem step_stepped {p p' : Calls × Deeds} {l : Call} (h : recalled.step p l = some p') :
    Stepped p.1 p.2 p'.1 p'.2 := by
  obtain ⟨s, deeds⟩ := p
  obtain ⟨s', deeds'⟩ := p'
  obtain ⟨hs, hdeeds⟩ : s.step l = some s' ∧ deeds' = Deeds.note s l s' deeds :=
    Machine.noting_step h
  subst hdeeds
  cases l with
  | make w p scope =>
    simp only [step] at hs
    split at hs
    · cases hs
    · next hw =>
      cases hs
      exact .made w p scope hw
  | register w =>
    simp only [step] at hs
    split at hs
    · next hw =>
      cases hs
      exact .registered w hw.1 hw.2
    · cases hs
  | unregister w =>
    cases hs
    exact .unregistered w
  | take w =>
    simp only [step] at hs
    split at hs
    · cases hs
    · next item queue hqueue =>
      cases hs
      exact .taken w item queue hqueue
  | accept t =>
    simp only [step, Hub.accept] at hs
    cases hnew : s.hub.isNew t with
    | error err =>
      simp only [hnew, Option.some.injEq] at hs
      subst hs
      simp only [Deeds.note, hnew]
      exact .aside s.hub.window s.hub.stale s.hub.tickTaken s.hub.stopped
    | ok new =>
      cases new with
      | false =>
        simp only [hnew, Option.some.injEq] at hs
        subst hs
        simp only [Deeds.note, hnew]
        exact .aside s.hub.window s.hub.stale s.hub.tickTaken s.hub.stopped
      | true =>
        simp only [hnew, Option.some.injEq] at hs
        subst hs
        simp only [Deeds.note, hnew]
        exact .accepted t hnew
  | aside window stale tickTaken stopped =>
    cases hs
    exact .aside window stale tickTaken stopped

/-! ## The invariant -/

/-- What holds between any two calls. -/
structure Inv (s : Calls) (deeds : Deeds) : Prop where
  scratch : s.hub.scratch = {}
  indexed : Indexed s.hub.registry
  watchers_enrolled : ∀ w ∈ s.hub.registry.watchers, w ∈ s.enrolled
  closed_enrolled : ∀ w ∈ deeds.closed.map Turn.watcher, w ∈ s.enrolled
  enrolled_made : ∀ w ∈ s.enrolled, w ∈ s.made
  closedBy : ClosedBy deeds.closed s.hub.registry
  oneEach : OneEach deeds.offered s.hub.memos

theorem Inv.made {s : Calls} {deeds : Deeds} (h : Inv s deeds) {w : WatcherId} (hw : w ∉ s.made)
    (p : Projection) (scope : Text) :
    Inv { s with
      hub := { s.hub with registry := s.hub.registry.setCell w ⟨p, scope, [], false, .unset⟩ }
      made := w :: s.made } deeds := by
  have hout : w ∉ s.enrolled := fun hmem => hw (h.enrolled_made w hmem)
  have hreg : w ∉ s.hub.registry.watchers := fun hmem => hout (h.watchers_enrolled w hmem)
  have hclosed : w ∉ deeds.closed.map Turn.watcher := fun hmem => hout (h.closed_enrolled w hmem)
  have hother : ∀ w' ∈ deeds.closed.map Turn.watcher,
      (s.hub.registry.setCell w ⟨p, scope, [], false, .unset⟩).cell w' =
        s.hub.registry.cell w' := by
    intro w' hw'
    have hne : w' ≠ w := fun heq => hclosed (heq ▸ hw')
    simp [Registry.setCell, hne]
  refine ⟨h.scratch, h.indexed.setCell_of_not_mem hreg _, h.watchers_enrolled, h.closed_enrolled,
    fun w' hw' => List.mem_cons_of_mem _ (h.enrolled_made w' hw'), ?_, h.oneEach⟩
  refine h.closedBy.keep (fun w' => ?_) (fun w' hw' => by rw [hother w' hw'])
    (fun w' hw' => by rw [hother w' hw']) fun _ _ hmem => hmem
  -- the new watcher's channel is open, as the one it replaces was
  by_cases hne : w' = w
  · subst hne
    have hopen := mt (h.closedBy.overflow_iff w').1 hclosed
    rw [Bool.not_eq_true] at hopen
    simp [Registry.setCell, hopen]
  · simp [Registry.setCell, hne]

theorem Inv.registered {s : Calls} {deeds : Deeds} (h : Inv s deeds) {w : WatcherId}
    (hmade : w ∈ s.made) (hnew : w ∉ s.enrolled) :
    Inv { s with hub := s.hub.register w, enrolled := w :: s.enrolled } deeds := by
  have hreg : w ∉ s.hub.registry.watchers := fun hmem => hnew (h.watchers_enrolled w hmem)
  have hwatchers : ∀ w', w' ∈ (s.hub.register w).registry.watchers ↔
      w' = w ∨ w' ∈ s.hub.registry.watchers := by
    intro w'
    simp [Hub.register, Registry.registerLocked]
  refine ⟨h.scratch, h.indexed.registerLocked hreg, fun w' hw' => ?_,
    fun w' hw' => List.mem_cons_of_mem _ (h.closed_enrolled w' hw'), ?_, ?_, h.oneEach⟩
  · rcases (hwatchers w').1 hw' with rfl | hold
    · exact List.mem_cons_self
    · exact List.mem_cons_of_mem _ (h.watchers_enrolled w' hold)
  · rw [List.forall_mem_cons]
    exact ⟨hmade, h.enrolled_made⟩
  · refine h.closedBy.keep (fun w' => by rw [Hub.register_cell]) (fun w' _ => by
      rw [Hub.register_cell]) (fun w' _ => by rw [Hub.register_cell]) fun w' hw' hmem => ?_
    exact ((hwatchers w').1 hmem).resolve_left fun heq => hnew (h.closed_enrolled w (heq ▸ hw'))

theorem Inv.unregistered {s : Calls} {deeds : Deeds} (h : Inv s deeds) (w : WatcherId) :
    Inv { s with hub := { s.hub with registry := s.hub.registry.unregister w } } deeds := by
  have hcell : (s.hub.registry.unregister w).cell = s.hub.registry.cell :=
    Registry.removeLocked_cell _ w
  have hwatchers : ∀ w' ∈ (s.hub.registry.unregister w).watchers,
      w' ∈ s.hub.registry.watchers := by
    intro w' hmem
    rw [Registry.unregister, Registry.removeLocked_watchers] at hmem
    exact List.mem_of_mem_erase hmem
  exact ⟨h.scratch, h.indexed.removeLocked w,
    fun w' hmem => h.watchers_enrolled w' (hwatchers w' hmem), h.closed_enrolled, h.enrolled_made,
    h.closedBy.keep (fun w' => by rw [hcell]) (fun w' _ => by rw [hcell])
      (fun w' _ => by rw [hcell]) fun w' _ hmem => hwatchers w' hmem, h.oneEach⟩

theorem Inv.accepted {s : Calls} {deeds : Deeds} (h : Inv s deeds) (t : Transaction) :
    Inv { s with hub := s.hub.acceptNew t }
      { offered := deeds.offered ++ s.hub.offers t
        closed := deeds.closed ++ closings s.hub.registry (s.hub.turns t) } := by
  have hturns := s.hub.acceptNew_turns t
  refine ⟨rfl, (Hub.acceptNew_outcome h.indexed h.scratch t).1, fun w hw => ?_, fun w hw => ?_,
    h.enrolled_made, ?_, h.oneEach.acceptNew t⟩
  · rw [hturns] at hw
    exact h.watchers_enrolled w (mem_of_foldl_run hw)
  · rw [List.map_append, List.mem_append] at hw
    rcases hw with hold | hnew
    · exact h.closed_enrolled w hold
    · obtain ⟨turn, hturn, rfl⟩ := List.mem_map.1 hnew
      exact h.watchers_enrolled _ (mem_of_closings hturn)
  · rw [hturns]
    exact h.closedBy.turns h.indexed _

theorem Inv.stepped {s s' : Calls} {deeds deeds' : Deeds} (h : Inv s deeds)
    (hs : Stepped s deeds s' deeds') : Inv s' deeds' := by
  cases hs with
  | made w p scope hw => exact h.made hw p scope
  | registered w hmade hnew => exact h.registered hmade hnew
  | unregistered w => exact h.unregistered w
  | taken w item queue hqueue =>
    exact ⟨h.scratch, h.indexed.setCell rfl rfl, h.watchers_enrolled, h.closed_enrolled,
      h.enrolled_made, h.closedBy.setQueue w queue, h.oneEach⟩
  | accepted t hnew => exact h.accepted t
  | aside window stale tickTaken stopped =>
    exact ⟨h.scratch, h.indexed, h.watchers_enrolled, h.closed_enrolled, h.enrolled_made,
      h.closedBy, h.oneEach⟩

theorem inv_of_reaches {ok : Calls × Deeds → Call → Prop} {p : Calls × Deeds}
    (h : Reaches recalled ok p) : Inv p.1 p.2 := by
  refine h.invariant (I := fun p => Inv p.1 p.2) ?_ fun _ _ _ _ hI _ hs =>
    hI.stepped (step_stepped hs)
  rintro ⟨s, deeds⟩ ⟨⟨parseLSN, cfg, hub, hnew, rfl⟩, rfl⟩
  obtain ⟨projections, maxReplay, queueSize, rfl⟩ := Hub.new_ok hnew
  refine ⟨rfl, .empty _ _, by simp, by simp, by simp, ⟨by simp, fun w => ?_, by simp, by simp,
    by simp⟩, ⟨by simp, by simp⟩⟩
  simp [Watcher.blank]

end Calls

/-! ## The watches' calls -/

/-- A move of a watch either registers its watcher, which it has not done before, or is a call that
registers nothing. -/
theorem Moves.call {h : Hub} {id : WatcherId} {p : Phase} {m : Move} (hm : Moves h id p m) :
    (m.hub = h.register id ∧ p.unstarted = true ∧ m.phase.unstarted = false) ∨
    ((m.phase.unstarted = true → p.unstarted = true) ∧
      ∃ call, ∀ c : Calls, c.hub = h → c.step call = some { c with hub := m.hub }) := by
  have haside : ∀ (window : Window) (stale : Finset String) (tickTaken : Bool),
      ∃ call, ∀ c : Calls, c.hub = h → c.step call = some { c with
        hub := { h with window := window, stale := stale, tickTaken := tickTaken } } := by
    intro window stale tickTaken
    refine ⟨.aside window stale tickTaken h.stopped, ?_⟩
    rintro c rfl
    rfl
  have htake : ∀ {item : Queued} {queue : List Queued},
      (h.registry.cell id).queue = item :: queue →
      ∃ call, ∀ c : Calls, c.hub = h → c.step call = some { c with hub := h.pop id queue } := by
    intro item queue hqueue
    refine ⟨.take id, ?_⟩
    rintro c rfl
    simp only [Calls.step, hqueue]
  have hbegun : ∀ {q : Phase}, q.unstarted = false → q.unstarted = true → p.unstarted = true :=
    fun hq hq' => absurd hq' (by simp [hq])
  cases hm with
  | resumed cursor batches hfloor hbatches => exact .inl ⟨rfl, rfl, rfl⟩
  | registered => exact .inl ⟨rfl, rfl, rfl⟩
  | received args round pos tick item queue hqueue hneed => exact .inr ⟨hbegun rfl, htake hqueue⟩
  | skipped args round pos tick item queue hqueue hneed => exact .inr ⟨hbegun rfl, htake hqueue⟩
  | incomparable args round pos tick item queue hqueue err => exact .inr ⟨hbegun rfl, htake hqueue⟩
  | unregistered result =>
    refine .inr ⟨hbegun rfl, .unregister id, ?_⟩
    rintro c rfl
    rfl
  | cleared streamed snap stale batches hbatches =>
    exact .inr ⟨hbegun rfl, haside h.window stale h.tickTaken⟩
  | recorded batches snap => exact .inr ⟨hbegun rfl, haside _ h.stale h.tickTaken⟩
  | positioned args round => exact .inr ⟨hbegun rfl, haside h.window h.stale true⟩
  | leaves p p' stale hp hp' =>
    have hleft : p'.unstarted = false := by cases p' <;> first | rfl | cases hp'
    exact .inr ⟨hbegun hleft, haside h.window stale h.tickTaken⟩
  | turnedAway p p' hp hp' =>
    refine .inr ⟨fun _ => ?_, haside h.window h.stale h.tickTaken⟩
    rcases hp with rfl | ⟨cursor, rfl⟩ <;> rfl
  | parsed cursor hsrc => exact .inr ⟨fun _ => rfl, haside h.window h.stale h.tickTaken⟩
  | scratch => exact .inr ⟨fun _ => rfl, haside h.window h.stale h.tickTaken⟩
  | _ => exact .inr ⟨hbegun rfl, haside h.window h.stale h.tickTaken⟩

/-- The calls made by the watches of a system: a watch that has not begun has its watcher made and
not registered. -/
structure System.CallsOf (s : System) (c : Calls) : Prop where
  hub_eq : c.hub = s.hub
  made_lt : ∀ w ∈ c.made, w < s.watches.length
  enrolled_made : ∀ w ∈ c.enrolled, w ∈ c.made
  unstarted : ∀ (id : WatcherId) ws, s.watches[id]? = some ws → ws.phase.unstarted = true →
    id ∈ c.made ∧ id ∉ c.enrolled

namespace System.CallsOf

variable {s : System} {c : Calls} (h : s.CallsOf c) (hreach : Reaches Calls.machine anyStep c)

include h hreach

theorem accepted {t : Transaction} (hnew : s.hub.isNew t = .ok true) (closing : List TickId) :
    ∃ c', Reaches Calls.machine anyStep c' ∧ System.CallsOf { s with
      hub := s.hub.acceptNew t
      watches := s.watches.mapIdx (WatchState.noteAccept s t (s.hub.acceptNew t))
      closing := closing
      accepted := s.accepted ++ [t] } c' := by
  refine ⟨{ c with hub := s.hub.acceptNew t }, .step (l := .accept t) hreach trivial ?_, rfl,
    by simpa using h.made_lt, h.enrolled_made, fun id ws hws hp => ?_⟩
  · simp only [Calls.machine, Calls.step, Hub.accept, h.hub_eq, hnew]
  · rw [List.getElem?_mapIdx, Option.map_eq_some_iff] at hws
    obtain ⟨ws₀, hws₀, rfl⟩ := hws
    obtain ⟨ended, heq, -⟩ := ws₀.noteAccept_eq s t (s.hub.acceptNew t) id
    rw [heq] at hp
    exact h.unstarted id ws₀ hws₀ hp

theorem opened (req : Request) (p : Projection) :
    ∃ c', Reaches Calls.machine anyStep c' ∧ System.CallsOf { s with
      hub := { s.hub with
        registry := s.hub.registry.setCell s.watches.length ⟨p, req.scope, [], false, .unset⟩ }
      watches := s.watches ++ [⟨req, .start, [], {}⟩] } c' := by
  have hfresh : s.watches.length ∉ c.made := fun hmem => Nat.lt_irrefl _ (h.made_lt _ hmem)
  refine ⟨_, .step (l := .make s.watches.length p req.scope) hreach trivial (if_neg hfresh),
    by rw [h.hub_eq], ?_, fun w hw => List.mem_cons_of_mem _ (h.enrolled_made w hw),
    fun id ws hws hp => ?_⟩
  · intro w hw
    rw [List.length_append, List.length_singleton]
    rcases List.mem_cons.1 hw with rfl | hold
    · exact Nat.lt_succ_self _
    · exact Nat.lt_succ_of_lt (h.made_lt w hold)
  · rcases getElem?_append_singleton hws with hold | ⟨rfl, rfl⟩
    · obtain ⟨hin, hout⟩ := h.unstarted id ws hold hp
      exact ⟨List.mem_cons_of_mem _ hin, hout⟩
    · exact ⟨List.mem_cons_self, fun hmem => hfresh (h.enrolled_made _ hmem)⟩

theorem moved {id : WatcherId} {ws : WatchState} {m : Move} (hws : s.watches[id]? = some ws)
    (hm : Moves s.hub id ws.phase m) :
    ∃ c', Reaches Calls.machine anyStep c' ∧ (s.moved id ws m).CallsOf c' := by
  -- the watches after the move: this one, and the others as they were
  have hwatches : ∀ (id' : WatcherId) ws',
      (s.watches.set id (ws.moved s id m))[id']? = some ws' →
      (id' = id ∧ ws'.phase = m.phase) ∨ (id' ≠ id ∧ s.watches[id']? = some ws') := by
    intro id' ws' hws'
    rw [List.getElem?_set, if_pos (List.getElem?_eq_some_iff.1 hws).1] at hws'
    split at hws'
    · next heq =>
      cases hws'
      exact .inl ⟨heq.symm, rfl⟩
    · next hne => exact .inr ⟨Ne.symm hne, hws'⟩
  have hmade : ∀ w ∈ c.made, w < (s.moved id ws m).watches.length := by
    simpa [System.moved] using h.made_lt
  rcases hm.call with ⟨hreg, hun, hbegun⟩ | ⟨hun, call, hcall⟩
  · obtain ⟨hin, hout⟩ := h.unstarted id ws hws hun
    refine ⟨{ c with hub := m.hub, enrolled := id :: c.enrolled },
      .step (l := .register id) hreach trivial ?_, rfl, hmade, ?_, fun id' ws' hws' hp => ?_⟩
    · rw [hreg, ← h.hub_eq]
      exact if_pos ⟨hin, hout⟩
    · rw [List.forall_mem_cons]
      exact ⟨hin, h.enrolled_made⟩
    · rcases hwatches id' ws' hws' with ⟨-, hphase⟩ | ⟨hne, hold⟩
      · rw [hphase, hbegun] at hp
        cases hp
      · obtain ⟨hin', hout'⟩ := h.unstarted id' ws' hold hp
        exact ⟨hin', by simpa [hne] using hout'⟩
  · refine ⟨{ c with hub := m.hub }, .step hreach trivial (hcall c h.hub_eq), rfl, hmade,
      h.enrolled_made, fun id' ws' hws' hp => ?_⟩
    rcases hwatches id' ws' hws' with ⟨rfl, hphase⟩ | ⟨-, hold⟩
    · exact h.unstarted id' ws hws (hun (hphase ▸ hp))
    · exact h.unstarted id' ws' hold hp

/-- Each step of the system is at most one call. -/
theorem stepped {s' : System} {l : Label} (hs : s.Stepped l s') :
    ∃ c', Reaches Calls.machine anyStep c' ∧ s'.CallsOf c' := by
  cases hs with
  | accepted t hnew closing => exact h.accepted hreach hnew closing
  | opened req p hp => exact h.opened hreach req p
  | moved id act ws m hws hm => exact h.moved hreach hws hm
  | idle l stopped closing closed =>
    refine ⟨_, .step (l := .aside s.hub.window s.hub.stale s.hub.tickTaken stopped) hreach trivial
      rfl, ?_, h.made_lt, h.enrolled_made, h.unstarted⟩
    simp only [h.hub_eq]
  | unknown req err hp =>
    refine ⟨c, hreach, h.hub_eq, fun w hw => ?_, h.enrolled_made, fun id ws hws hp => ?_⟩
    · rw [List.length_append]
      exact Nat.lt_add_right _ (h.made_lt w hw)
    · rcases getElem?_append_singleton hws with hold | ⟨-, rfl⟩
      · exact h.unstarted id ws hold hp
      · cases hp

end System.CallsOf

/-- **Every hub that watches reach is reached by calls**, so what holds after any calls holds in
every run of the watches. -/
theorem Reaches.calls {ok : System → Label → Prop} {s : System} (h : Reaches machine ok s) :
    ∃ c, Reaches Calls.machine anyStep c ∧ c.hub = s.hub := by
  have hcalls : ∃ c, Reaches Calls.machine anyStep c ∧ s.CallsOf c := by
    refine h.invariant (I := fun s => ∃ c, Reaches Calls.machine anyStep c ∧ s.CallsOf c) ?_ ?_
    · rintro s ⟨parseLSN, cfg, hub, hnew, rfl⟩
      exact ⟨{ hub := hub }, .init ⟨parseLSN, cfg, hub, hnew, rfl⟩, rfl, by simp, by simp, by simp⟩
    · rintro s l s' - ⟨c, hreach, hc⟩ - hs
      exact hc.stepped hreach (System.step_stepped hs)
  obtain ⟨c, hreach, hc⟩ := hcalls
  exact ⟨c, hreach, hc.hub_eq⟩

/-! ## The index, place by place -/

/-- A place in `routes`: a table, one of its routes, a scope, a position in the scope's list. -/
structure Place where
  table : String
  index : Nat
  scope : Text
  position : Nat

/-- The watcher at a place. -/
def Registry.at? (r : Registry) (place : Place) : Option WatcherId :=
  (r.routesOf place.table)[place.index]?.bind fun route => (route.at place.scope)[place.position]?

section Places

variable {r : Registry} {w : WatcherId} {place place' : Place}

theorem Registry.at?_eq_some_iff : r.at? place = some w ↔
    ∃ route, (r.routesOf place.table)[place.index]? = some route ∧
      (route.at place.scope)[place.position]? = some w :=
  Option.bind_eq_some_iff

variable (h : Indexed r)

include h

theorem Indexed.mem_watchers_iff : w ∈ r.watchers ↔ ∃ place, r.at? place = some w := by
  constructor
  · intro hw
    obtain ⟨⟨⟨table, index⟩, scope⟩, hat, -⟩ := h.exists_key hw
    obtain ⟨route, hroute, hmem⟩ := Registry.mem_watchersAt.1 hat
    obtain ⟨position, hposition⟩ := List.mem_iff_getElem?.1 hmem
    exact ⟨⟨table, index, scope, position⟩, Registry.at?_eq_some_iff.2 ⟨route, hroute, hposition⟩⟩
  · rintro ⟨⟨table, index, scope, position⟩, hat⟩
    obtain ⟨route, hroute, hposition⟩ := Registry.at?_eq_some_iff.1 hat
    have hkey : w ∈ r.watchersAt ⟨⟨table, index⟩, scope⟩ :=
      Registry.mem_watchersAt.2 ⟨route, hroute, List.mem_of_getElem? hposition⟩
    exact h.mem_watchers_of_watchersAt hkey

theorem Indexed.routedBy_of_at (hat : r.at? place = some w) :
    ∃ route, (r.routesOf place.table)[place.index]? = some route ∧
      (r.cell w).RoutedBy place.table route.scopeColumn place.scope := by
  obtain ⟨route, hroute, hposition⟩ := Registry.at?_eq_some_iff.1 hat
  have hmem := List.mem_of_getElem? hposition
  rw [← h.column_of_getElem? hroute, h.mem_column] at hmem
  exact ⟨route, hroute, hmem.2⟩

theorem Indexed.place_unique (hat : r.at? place = some w) (hat' : r.at? place' = some w) :
    place = place' := by
  obtain ⟨table, index, scope, position⟩ := place
  obtain ⟨table', index', scope', position'⟩ := place'
  obtain ⟨route, hroute, hposition⟩ := Registry.at?_eq_some_iff.1 hat
  obtain ⟨route', hroute', hposition'⟩ := Registry.at?_eq_some_iff.1 hat'
  have hkey : w ∈ r.watchersAt ⟨⟨table, index⟩, scope⟩ :=
    Registry.mem_watchersAt.2 ⟨route, hroute, List.mem_of_getElem? hposition⟩
  have hkey' : w ∈ r.watchersAt ⟨⟨table', index'⟩, scope'⟩ :=
    Registry.mem_watchersAt.2 ⟨route', hroute', List.mem_of_getElem? hposition'⟩
  obtain ⟨key, -, huniq, -⟩ := h.exists_key (h.mem_watchers_of_watchersAt hkey)
  cases (huniq _ hkey).trans (huniq _ hkey').symm
  cases hroute.symm.trans hroute'
  -- one list, without repetitions
  have hnodup := h.column_nodup table route.scopeColumn scope
  rw [h.column_of_getElem? hroute] at hnodup
  have hpos : position = position' := getElem?_unique hnodup hposition hposition'
  rw [hpos]

theorem Indexed.scope_nonempty {table : String} {route : Route} (hroute : route ∈ r.routesOf table)
    (scope : Text) : route.scopes.lookup scope ≠ some [] := by
  have hne := h.scopes_nonempty table route.scopeColumn scope
  rwa [Registry.column, columnOf_of_mem (h.columns_nodup table) hroute] at hne

end Places

namespace Calls

/-- **The index is exact and no watcher is ended twice**, after any calls: the registered watchers
are those in the routes, each at one place, that of its table, scope column and scope; a table has
one route for a scope column, and no scope an empty list.  The closed overflow channels are those
that a turn of `Accept` closed, each by one turn, with the reason of that turn: its table was
invalidated, or its queue was full when an item came. -/
theorem index_exact_ended_once {s : Calls} {deeds : Deeds}
    (h : Reaches recalled anyStep (s, deeds)) :
    (∀ w, w ∈ s.hub.registry.watchers ↔ ∃ place, s.hub.registry.at? place = some w) ∧
    (∀ w place place', s.hub.registry.at? place = some w → s.hub.registry.at? place' = some w →
      place = place') ∧
    (∀ w place, s.hub.registry.at? place = some w →
      ∃ route, (s.hub.registry.routesOf place.table)[place.index]? = some route ∧
        (s.hub.registry.cell w).RoutedBy place.table route.scopeColumn place.scope) ∧
    (∀ table, ((s.hub.registry.routesOf table).map Route.scopeColumn).Nodup) ∧
    (∀ table, ∀ route ∈ s.hub.registry.routesOf table, ∀ scope,
      route.scopes.lookup scope ≠ some []) ∧
    (∀ w, (s.hub.registry.cell w).overflow = true ↔ ∃ turn ∈ deeds.closed, turn.watcher = w) ∧
    (deeds.closed.map Turn.watcher).Nodup ∧
    (∀ turn ∈ deeds.closed, (s.hub.registry.cell turn.watcher).reason = turn.reason) ∧
    (∀ table w, .invalidate table w ∈ deeds.closed →
      (s.hub.registry.cell w).projection.table = table) := by
  have hinv := inv_of_reaches h
  have hidx := hinv.indexed
  refine ⟨fun w => hidx.mem_watchers_iff, fun w place place' => hidx.place_unique,
    fun w place => hidx.routedBy_of_at, hidx.columns_nodup, fun table route hroute =>
    hidx.scope_nonempty hroute, fun w => ?_, hinv.closedBy.once, hinv.closedBy.reason_eq,
    hinv.closedBy.table_eq⟩
  rw [hinv.closedBy.overflow_iff]
  exact List.mem_map

namespace Demo

/-- Two watchers of one scope, with room for one item each. -/
def start : List Call :=
  [.make 0 ⟨Watch.Demo.spec, "public.members"⟩ Watch.Demo.tenant, .register 0,
    .make 1 ⟨Watch.Demo.spec, "public.members"⟩ Watch.Demo.tenant, .register 1]

/-- The first takes its item and the second does not, so the next transaction ends the second; then
the table changes shape, and both leave. -/
def course : List Call :=
  start ++ [.accept (Watch.Demo.transaction 100 15), .take 0,
    .accept (Watch.Demo.transaction 200 16),
    .accept { Watch.Demo.transaction 300 17 with incompatible := [⟨"public.members", ""⟩] },
    .unregister 0, .unregister 1]

/-- Replays calls on a new hub. -/
def run (calls : List Call) : Option (Calls × Deeds) :=
  (Hub.new Watch.Demo.parseLSN (Watch.Demo.config 10 1)).toOption.bind fun h =>
    runWhile recalled anyStep ({ hub := h }, {}) calls

theorem reaches_of_run {calls : List Call} {p : Calls × Deeds} (h : run calls = some p) :
    Reaches recalled anyStep p := by
  obtain ⟨hub, hhub, hrun⟩ := Option.bind_eq_some_iff.1 h
  exact .of_runWhile (.init ⟨⟨_, _, _, toOption_eq_some_iff.1 hhub, rfl⟩, rfl⟩) hrun

end Demo

/-- Two watchers are ended, each for its own reason, and neither a second time. -/
theorem index_exact_ended_once_run : ∃ s deeds, Reaches recalled anyStep (s, deeds) ∧
    deeds.closed.map (fun turn => (turn.watcher, turn.reason)) =
      [(1, .slowWatcher), (0, .schemaChanged)] ∧
    (deeds.closed.map Turn.watcher).Nodup ∧
    ∀ turn ∈ deeds.closed, (s.hub.registry.cell turn.watcher).reason = turn.reason := by
  have hrun : ∃ p ∈ Demo.run Demo.course, p.2.closed.map (fun turn => (turn.watcher, turn.reason)) =
      [(1, .slowWatcher), (0, .schemaChanged)] := by
    decide
  obtain ⟨⟨s, deeds⟩, hp, hclosed⟩ := hrun
  obtain ⟨-, -, -, -, -, -, honce, hreason, -⟩ := index_exact_ended_once (Demo.reaches_of_run hp)
  exact ⟨s, deeds, Demo.reaches_of_run hp, hclosed, honce, hreason⟩

/-- **Indexed fan-out agrees with the plain filter**, after any calls: of a new transaction, each
watcher still registered once its incompatible tables have been invalidated is offered one item with
exactly the changes `projection.changes` gives it, or nothing if that is empty.  Items that share a
memo are alike, and the scratch space is left empty. -/
theorem fanout_is_filter {s : Calls} {deeds : Deeds} (h : Reaches recalled anyStep (s, deeds))
    {t : Transaction} (hnew : s.hub.isNew t = .ok true) :
    ∃ h' tick, s.hub.accept t = .ok (h', tick) ∧
      h'.registry = (s.hub.offers t).foldl (fun r o => r.offer o.2 o.1)
        (s.hub.advance t).registry ∧
      (∀ w ∈ (s.hub.advance t).registry.watchers,
        (valuesOf w (s.hub.offers t)).map (fun item => (item.transaction, item.changes)) =
          let c := (s.hub.advance t).registry.cell w
          if c.projection.changes c.scope t = [] then []
          else [(t, c.projection.changes c.scope t)]) ∧
      (∀ o ∈ deeds.offered ++ s.hub.offers t, ∀ o' ∈ deeds.offered ++ s.hub.offers t, ∀ memo,
        o.2.memo = some memo → o'.2.memo = some memo →
        o.2.transaction = o'.2.transaction ∧ o.2.changes = o'.2.changes) ∧
      h'.scratch = {} := by
  have hinv := inv_of_reaches h
  have hregistry : (s.hub.advance t).registry =
      t.incompatible.foldl (fun r i => r.endTable i.table) s.hub.registry := by
    rw [Hub.advance_eq]
  have hscratch : (s.hub.advance t).scratch = {} := by
    rw [Hub.advance_eq]
    exact hinv.scratch
  have hidx : Indexed (s.hub.advance t).registry := by
    rw [hregistry]
    exact (hinv.indexed.foldl_endTable t.incompatible).1
  refine ⟨s.hub.acceptNew t, if s.hub.tickTaken then some s.hub.tick else none, ?_,
    s.hub.acceptNew_registry t, fun w hw => ?_, fun o ho o' ho' memo hmemo hmemo' => ?_, rfl⟩
  · simp only [Hub.accept, hnew]
  · have hoffers := hidx.valuesOf_offers t (s.hub.advance t).memos hw
    rw [← hscratch] at hoffers
    exact hoffers
  · rw [(hinv.oneEach.acceptNew t).one o ho o' ho' memo hmemo hmemo']
    exact ⟨rfl, rfl⟩

/-- Two watchers of one scope are offered the change of a transaction. -/
theorem fanout_is_filter_run : ∃ s deeds, Reaches recalled anyStep (s, deeds) ∧
    s.hub.isNew (Watch.Demo.transaction 100 15) = .ok true ∧
    ∃ h' tick, s.hub.accept (Watch.Demo.transaction 100 15) = .ok (h', tick) ∧
      h'.registry = (s.hub.offers (Watch.Demo.transaction 100 15)).foldl
        (fun r o => r.offer o.2 o.1) (s.hub.advance (Watch.Demo.transaction 100 15)).registry ∧
      (s.hub.offers (Watch.Demo.transaction 100 15)).map (fun o => (o.1, o.2.memo)) =
        [(0, some 0), (1, some 0)] ∧ h'.scratch = {} := by
  have hrun : ∃ p ∈ Demo.run Demo.start,
      p.1.hub.isNew (Watch.Demo.transaction 100 15) = .ok true ∧
      (p.1.hub.offers (Watch.Demo.transaction 100 15)).map (fun o => (o.1, o.2.memo)) =
        [(0, some 0), (1, some 0)] := by
    decide
  obtain ⟨⟨s, deeds⟩, hp, hnew, hoffers⟩ := hrun
  obtain ⟨h', tick, haccept, hregistry, -, -, hscratch⟩ :=
    fanout_is_filter (Demo.reaches_of_run hp) hnew
  exact ⟨s, deeds, Demo.reaches_of_run hp, hnew, h', tick, haccept, hregistry, hoffers, hscratch⟩

end Calls

end Watchd.Watch
