import Watchd.Lib.History
import Watchd.Watch.Floor

/-!
# The cursors a watch may resume from

Once set, the floor is the first snapshot's cursor or that of a transaction that
was evicted or changed a shape.  So a cursor the hub has handed out stays usable
until the window moves past it, unless it lies before the first snapshot's
cursor: the stream may lag behind that snapshot, and what it hands out until it
has caught up is not replayable although the ring holds everything after it.

`handed_out_replayable_iff` says exactly which cursors are usable.
-/

namespace Watchd.Watch

open Watchd.Cdc Watchd.Lib

/-! ## Where the floor comes from -/

/-- The floor is the first snapshot's cursor or a cursor in `P`, and not before the first. -/
structure Window.Marked (P : Cursor → Prop) (first : Option Cursor) (w : Window) : Prop where
  lastEvicted : ∀ e ∈ w.lastEvicted, P e
  floor : ∀ f ∈ w.floor, ∃ c, first = some c ∧ f.sourceID = c.sourceID ∧ c.lsn ≤ f.lsn ∧
    (f = c ∨ P f)
  unset : w.floor = none → first = none

namespace Window.Marked

variable {P P' : Cursor → Prop} {first : Option Cursor} {w w' : Window}

theorem mono (h : w.Marked P first) (hP : ∀ c, P c → P' c) : w.Marked P' first := by
  refine ⟨fun e he => hP e (h.lastEvicted e he), ?_, h.unset⟩
  intro f hf
  obtain ⟨c, hc, hsrc, hle, hfrom⟩ := h.floor f hf
  exact ⟨c, hc, hsrc, hle, hfrom.imp_right (hP f)⟩

/-- Raising the floor to a cursor in `P`. -/
theorem raised {mark : Cursor} (h : w.Marked P first) (hmark : P mark)
    (hlast : ∀ e ∈ w'.lastEvicted, P e) (hfloor : w'.floor = w.floor.map (raise mark)) :
    w'.Marked P first := by
  refine ⟨hlast, ?_, ?_⟩
  · intro f hf
    rw [hfloor] at hf
    obtain ⟨f₀, hf₀, rfl⟩ := Option.map_eq_some_iff.1 hf
    obtain ⟨c, hc, hsrc, hle, hfrom⟩ := h.floor f₀ hf₀
    have hraise := le_raise mark f₀
    refine ⟨c, hc, hraise.1.trans hsrc, hle.trans hraise.2, ?_⟩
    rcases raise_cases mark f₀ with ⟨heq, -⟩ | ⟨heq, -⟩
    · rw [heq]
      exact hfrom
    · rw [heq]
      exact .inr hmark
  · intro hnone
    rw [hfloor, Option.map_eq_none_iff] at hnone
    exact h.unset hnone

theorem invalidate {mark : Cursor} (h : w.Marked P first) (hmark : P mark) :
    (w.invalidate mark).Marked P first := by
  refine h.raised hmark ?_ rfl
  intro e he
  cases hlast : w.lastEvicted with
  | none =>
    simp only [Window.invalidate, hlast, Option.map_none, Option.getD_none,
      Option.mem_some_iff] at he
    exact he ▸ hmark
  | some e₀ =>
    simp only [Window.invalidate, hlast, Option.map_some, Option.getD_some,
      Option.mem_some_iff] at he
    rcases raise_cases mark e₀ with ⟨heq, -⟩ | ⟨heq, -⟩
    · rw [← he, heq]
      exact h.lastEvicted e₀ hlast
    · rw [← he, heq]
      exact hmark

theorem invalidateAll {mark : Cursor} (is : List IncompatibleRelationError)
    (hmark : is ≠ [] → P mark) :
    ∀ {w : Window}, w.Marked P first →
      (is.foldl (fun w _ => w.invalidate mark) w).Marked P first := by
  induction is with
  | nil => exact fun h => h
  | cons i is ih =>
    intro w h
    have hP := hmark (List.cons_ne_nil _ _)
    exact ih (fun _ => hP) (h.invalidate hP)

theorem acceptNew {h : Hub} {evicted : List Transaction} (hret : h.window.Retains evicted)
    (hw : h.window.Marked P first) {t : Transaction} (hmark : t.incompatible ≠ [] → P t.cursor)
    (hevicted : ∀ oldest ring, h.window.ring ++ [t] = oldest :: ring →
      (h.window.append t).ring = ring → P oldest.cursor) :
    (h.acceptNew t).window.Marked P first := by
  rw [Hub.acceptNew_window]
  refine invalidateAll t.incompatible hmark ?_
  rcases hret.append_cases t with ⟨-, heq⟩ | ⟨oldest, ring, hring, -, heq⟩
  · rw [heq]
    exact ⟨hw.lastEvicted, hw.floor, hw.unset⟩
  · have hP := hevicted oldest ring hring (by rw [heq])
    rw [heq]
    refine hw.raised hP ?_ rfl
    intro e he
    rw [Option.mem_some_iff] at he
    exact he ▸ hP

/-- The first snapshot sets the floor; the others leave it. -/
theorem record (h : w.Marked P first) (c : Cursor) :
    (w.recordSnapshotLocked c).Marked P (if w.floor = none then some c else first) := by
  cases hfloor : w.floor with
  | some f =>
    rw [Window.recordSnapshotLocked_of_some hfloor]
    simpa using h
  | none =>
    have hset := Window.recordSnapshotLocked_floor (c := c) hfloor
    rw [if_pos rfl]
    refine ⟨?_, ?_, fun hnone => by rw [hset] at hnone; cases hnone⟩
    · rw [Window.recordSnapshotLocked_lastEvicted]
      exact h.lastEvicted
    · intro f hf
      rw [hset, Option.mem_some_iff] at hf
      refine ⟨c, rfl, ?_⟩
      cases hlast : w.lastEvicted with
      | none =>
        simp only [hlast, Option.map_none, Option.getD_none] at hf
        exact hf ▸ ⟨rfl, Nat.le_refl _, .inl rfl⟩
      | some e =>
        simp only [hlast, Option.map_some, Option.getD_some] at hf
        have hraise := le_raise e c
        rw [← hf]
        refine ⟨hraise.1, hraise.2, ?_⟩
        rcases raise_cases e c with ⟨heq, -⟩ | ⟨heq, -⟩
        · exact .inl heq
        · rw [heq]
          exact .inr (h.lastEvicted e hlast)

end Window.Marked

/-- The cursors of the accepted transactions that moved the floor: the evicted ones and those that
changed a shape. -/
def System.MovesFloor (s : System) (c : Cursor) : Prop :=
  ∃ t ∈ s.accepted, c = t.cursor ∧ (t ∉ s.hub.window.ring ∨ t.incompatible ≠ [])

/-- The cursor of the first snapshot that is recorded. -/
def noteFirst (s : System) (l : Label) (_ : System) (first : Option Cursor) : Option Cursor :=
  match l with
  | .watch id _ =>
    if s.hub.window.floor = none then (s.watches[id]?.bind (·.phase.recording?)).or first
    else first
  | _ => first

/-- The hub with its watches, noting the cursor of the first snapshot. -/
def notingFirst : Machine (System × Option Cursor) Label := machine.noting none noteFirst

theorem Window.append_ring_subset {w : Window} {evicted : List Transaction}
    (hret : w.Retains evicted) (t : Transaction) :
    ∀ a ∈ (w.append t).ring, a ∈ w.ring ++ [t] := by
  rcases hret.append_cases t with ⟨-, heq⟩ | ⟨oldest, ring, hring, -, heq⟩
  · rw [heq]
    exact fun a ha => ha
  · rw [heq, hring]
    exact fun a ha => List.mem_cons_of_mem _ ha

/-- The floor's origin, in every reachable state. -/
theorem Reaches.marked {p : System × Option Cursor} (h : Reaches notingFirst anyStep p) :
    p.1.hub.window.Marked p.1.MovesFloor p.2 := by
  refine h.invariant (I := fun p => p.1.hub.window.Marked p.1.MovesFloor p.2) ?_ ?_
  · rintro ⟨s, first⟩ ⟨⟨parseLSN, cfg, hub, hnew, rfl⟩, rfl⟩
    obtain ⟨_, _, _, rfl⟩ := Hub.new_ok hnew
    refine ⟨?_, ?_, fun _ => rfl⟩
    · intro e he
      cases he
    · intro f hf
      cases hf
  · rintro ⟨s, first⟩ l ⟨s', first'⟩ hreach hI - hstep
    obtain ⟨hs, hfirst⟩ := Machine.noting_step hstep
    have hreach' : Reaches machine anyStep s := Reaches.of_noting anyStep hreach
    obtain ⟨evicted, hacc, hret⟩ := (Reaches.inv hreach').retains
    simp only at hs hfirst hI ⊢
    rcases System.step_window hs with ⟨t, rfl, hnew, hacc', hw⟩ |
      ⟨id, act, ws, c, rfl, hws, hp, hacc', hw⟩ | ⟨hnone, hacc', hw⟩
    · have hbefore := hret.before_of_isNew hnew
      rw [← hacc] at hbefore
      have hring : s'.hub.window.ring = (s.hub.window.append t).ring := by
        rw [hw, Hub.acceptNew_ring]
      have hmono : ∀ c, s.MovesFloor c → s'.MovesFloor c := by
        rintro c ⟨a, ha, rfl, hfrom⟩
        refine ⟨a, by rw [hacc']; exact List.mem_append_left _ ha, rfl, hfrom.imp_left ?_⟩
        intro hout hin
        rw [hring] at hin
        rcases List.mem_append.1 (Window.append_ring_subset hret t a hin) with hin | hin
        · exact hout hin
        · rw [List.mem_singleton.1 hin] at ha
          exact Nat.lt_irrefl _ (hbefore t ha).lsn_lt
      rw [hw, hfirst]
      refine Window.Marked.acceptNew hret (hI.mono hmono) ?_ ?_
      · exact fun hinc => ⟨t, by simp [hacc'], rfl, .inr hinc⟩
      · intro oldest ring hsplit hring'
        have hmem : oldest ∈ s.hub.window.ring ++ [t] := by
          rw [hsplit]
          exact List.mem_cons_self
        refine ⟨oldest, ?_, rfl, .inl ?_⟩
        · rw [hacc', hacc, List.append_assoc]
          exact List.mem_append_right _ hmem
        · rw [hring, hring']
          intro hin
          have hord : (s.hub.window.ring ++ [t]).Pairwise Before := by
            refine List.pairwise_append.2 ⟨(List.pairwise_append.1 hret.ordered).2.1,
              List.pairwise_singleton _ _, ?_⟩
            intro a ha b hb
            rw [List.mem_singleton.1 hb]
            exact hbefore a (by rw [hacc]; exact List.mem_append_right _ ha)
          rw [hsplit] at hord
          exact Nat.lt_irrefl _ (List.rel_of_pairwise_cons hord hin).lsn_lt
    · have hsame : s'.MovesFloor = s.MovesFloor := by
        unfold System.MovesFloor
        rw [hacc', hw, (Window.recordSnapshotLocked_ring _ _).1]
      have hnote : first' = if s.hub.window.floor = none then some c else first := by
        rw [hfirst]
        simp [noteFirst, hws, hp]
      rw [hsame, hnote, hw]
      exact hI.record c
    · have hsame : s'.MovesFloor = s.MovesFloor := by
        unfold System.MovesFloor
        rw [hacc', hw]
      have hnote : first' = first := by
        rw [hfirst]
        unfold noteFirst
        split
        · next id act =>
          cases hws : s.watches[id]? with
          | none => simp
          | some ws => simp [hnone id act ws rfl hws]
        · rfl
      rw [hsame, hnote, hw]
      exact hI

/-! ## The cursors handed out -/

/-- A cursor that a watch was sent and may resume from. -/
def HandedOut (sent : List Event) (c : Cursor) : Prop :=
  .progress c ∈ sent ∨ ∃ b, .batch b ∈ sent ∧ b.cursor = c

/-- The phases that a Watch call reaches only once the floor is set. -/
def Phase.floored : Phase → Bool
  | .snapshotEnd _ _ | .backlog _ _ | .position _ _ | .drain _ _ _ _ | .deliver _ _ _ _ _
  | .progress _ _ _ _ | .select _ _ _ => true
  | _ => false

theorem Phase.not_floored_of_leaving {p : Phase} (hp : p.leaving = true) : p.floored = false := by
  cases p <;> first | rfl | cases hp

theorem Window.floor_of_replayable {w : Window} {c : Cursor} (h : w.replayableLocked c = true) :
    w.floor ≠ none := by
  intro hnone
  simp [replayableLocked, hnone] at h

theorem Window.recordSnapshotLocked_ne_none (w : Window) (c : Cursor) :
    (w.recordSnapshotLocked c).floor ≠ none := by
  cases hfloor : w.floor with
  | none => simp [recordSnapshotLocked_floor hfloor]
  | some f => simp [recordSnapshotLocked_of_some hfloor, hfloor]

/-- Once set, the floor stays set. -/
theorem System.step_floor {s s' : System} {l : Label} {evicted : List Transaction}
    (hret : s.hub.window.Retains evicted) (hs : s.step l = some s')
    (hfloor : s.hub.window.floor ≠ none) : s'.hub.window.floor ≠ none := by
  have hloop : ∀ (is : List IncompatibleRelationError) (c : Cursor) (w : Window),
      w.floor ≠ none → (is.foldl (fun w _ => w.invalidate c) w).floor ≠ none := by
    intro is c
    induction is with
    | nil => exact fun _ h => h
    | cons i is ih => exact fun w h => ih _ (by simpa [Window.invalidate] using h)
  rcases System.step_window hs with ⟨t, -, -, -, hw⟩ | ⟨-, -, -, c, -, -, -, -, hw⟩ | ⟨-, -, hw⟩
  · rw [hw, Hub.acceptNew_window]
    refine hloop _ _ _ ?_
    rcases hret.append_cases t with ⟨-, heq⟩ | ⟨oldest, ring, -, -, heq⟩
    · rw [heq]
      exact hfloor
    · rw [heq]
      simpa using hfloor
  · rw [hw]
    exact Window.recordSnapshotLocked_ne_none _ _
  · rw [hw]
    exact hfloor

theorem Moves.floored {h : Hub} {id : WatcherId} {p : Phase} {m : Move} (hm : Moves h id p m)
    (hp : p.floored = true → h.window.floor ≠ none) (hp' : m.phase.floored = true) :
    m.hub.window.floor ≠ none := by
  cases hm with
  | resumed cursor batches hfloor hbatches => exact Window.floor_of_replayable hfloor
  | recorded batches snap => exact Window.recordSnapshotLocked_ne_none _ _
  | turnedAway p p' _ hend =>
    rcases hend with ⟨reason, rfl⟩ | ⟨err, rfl⟩ <;> cases hp'
  | leaves p p' stale _ hleaving =>
    rw [Phase.not_floored_of_leaving hleaving] at hp'
    cases hp'
  | _ => first | exact hp rfl | cases hp'

theorem Moves.floored_of_handedOut {h : Hub} {id : WatcherId} {p : Phase} {m : Move}
    (hm : Moves h id p m) {c : Cursor} (hc : HandedOut m.sent.toList c) : p.floored = true := by
  cases hm with
  | replayed b batches args => rfl
  | delivered args round pos tick item => rfl
  | progressed args round pos tick hdue => rfl
  | _ => simp [HandedOut] at hc

/-- Whoever is past the first snapshot, or was handed out a cursor, finds the floor set. -/
def System.FloorSet (s : System) : Prop :=
  ∀ (id : WatcherId) (ws : WatchState), s.watches[id]? = some ws →
    (ws.phase.floored = true ∨ ∃ c, HandedOut ws.sent c) → s.hub.window.floor ≠ none

theorem Reaches.floorSet {s : System} (h : Reaches machine anyStep s) : s.FloorSet := by
  refine h.invariant (I := System.FloorSet) ?_ ?_
  · rintro s ⟨parseLSN, cfg, hub, -, rfl⟩ id ws hws
    simp at hws
  · intro s l s' hreach hI _ hstep id' ws' hws' hout'
    obtain ⟨evicted, -, hret⟩ := (Reaches.inv hreach).retains
    have hkeep : ∀ ws : WatchState, s.watches[id']? = some ws →
        (ws.phase.floored = true ∨ ∃ c, HandedOut ws.sent c) → s'.hub.window.floor ≠ none :=
      fun ws hws hout => System.step_floor hret hstep (hI id' ws hws hout)
    cases (System.step_stepped hstep).origin hws' with
    | kept ws ended hws _ => exact hkeep ws hws hout'
    | opened req p _ _ hp =>
      rcases hp with rfl | ⟨err, rfl⟩ <;> simp [Phase.floored, HandedOut] at hout'
    | moved act ws m _ hws hm hs' =>
      subst hs'
      rcases hout' with hp' | ⟨c, hc⟩
      · exact hm.floored (fun hp => hI id' ws hws (.inl hp)) hp'
      · have hsplit : HandedOut ws.sent c ∨ HandedOut m.sent.toList c := by
          simp only [HandedOut, WatchState.moved, List.mem_append] at hc ⊢
          rcases hc with (hc | hc) | ⟨b, hb | hb, rfl⟩
          · exact .inl (.inl hc)
          · exact .inr (.inl hc)
          · exact .inl (.inr ⟨b, hb, rfl⟩)
          · exact .inr (.inr ⟨b, hb, rfl⟩)
        rcases hsplit with hold | hnew
        · exact hkeep ws hws (.inr ⟨c, hold⟩)
        · exact hkeep ws hws (.inl (hm.floored_of_handedOut hnew))

theorem Window.replayableLocked_iff {w : Window} {f c : Cursor} (hf : w.floor = some f) :
    w.replayableLocked c = true ↔ f.sourceID = c.sourceID ∧ f.lsn ≤ c.lsn := by
  unfold replayableLocked Cursor.compare
  by_cases hsrc : c.sourceID = f.sourceID
  · rcases Nat.lt_trichotomy c.lsn f.lsn with hlt | heq | hgt
    · simp [hf, hsrc, hlt]
    · simp [hf, hsrc, heq]
    · simp [hf, hsrc, hgt.not_gt, hgt, hgt.le]
  · simp [hf, hsrc, Ne.symm hsrc]

theorem Window.Marked.replayable_iff {P : Cursor → Prop} {first : Option Cursor} {w : Window}
    (h : w.Marked P first) (hset : w.floor ≠ none) {c : Cursor}
    (hP : ∀ mark, P mark → mark.sourceID = c.sourceID → mark.lsn ≤ c.lsn) :
    ∃ f, first = some f ∧
      (w.replayableLocked c = true ↔ f.sourceID = c.sourceID ∧ f.lsn ≤ c.lsn) := by
  obtain ⟨floor, hfloor⟩ := Option.ne_none_iff_exists'.1 hset
  obtain ⟨f, hf, hsrc, hle, hfrom⟩ := h.floor floor hfloor
  refine ⟨f, hf, (Window.replayableLocked_iff hfloor).trans ⟨?_, ?_⟩⟩
  · rintro ⟨hsrc', hle'⟩
    exact ⟨hsrc.symm.trans hsrc', hle.trans hle'⟩
  · rintro ⟨hsrc', hle'⟩
    refine ⟨hsrc.trans hsrc', ?_⟩
    rcases hfrom with rfl | hmark
    · exact hle'
    · exact hP floor hmark (hsrc.trans hsrc')

theorem Need.after_ok_iff {c : Cursor} {t : Transaction} :
    (∃ needed, (Need.after c).apply t = .ok needed) ↔ t.cursor.sourceID = c.sourceID := by
  unfold Need.apply Transaction.after
  by_cases hsrc : t.cursor.sourceID = c.sourceID <;> simp [hsrc]

/-- Watch `id`, run for one step, arrives where `P` holds. -/
def System.RunsTo (s : System) (id : WatcherId) (P : Phase → Prop) : Prop :=
  ∃ s' ws', s.step (.watch id .run) = some s' ∧ s'.watches[id]? = some ws' ∧ P ws'.phase

theorem System.runsTo_iff {s : System} {id : WatcherId} {ws : WatchState} {m : Move}
    {P : Phase → Prop} (hws : s.watches[id]? = some ws)
    (hm : ws.phase.step ws.request (fun tick => decide (tick ∈ s.closed)) s.hub id .run = some m) :
    s.RunsTo id P ↔ P m.phase := by
  have hlt := (List.getElem?_eq_some_iff.1 hws).1
  have hstep : s.step (.watch id .run) = some (s.moved id ws m) := by
    simp [System.step, hws, hm]
  have hget : (s.moved id ws m).watches[id]? = some (ws.moved s id m) := by
    simp [System.moved, hlt]
  constructor
  · rintro ⟨s', ws', hs', hws', hP⟩
    rw [hstep] at hs'
    cases hs'
    rw [hget] at hws'
    cases hws'
    exact hP
  · exact fun hP => ⟨_, _, hstep, hget, hP⟩

/-- What a Watch call that resumes from `c` does next, its table not stale. -/
theorem System.runsTo_of_resume {s : System} {id : WatcherId} {ws : WatchState} {c : Cursor}
    (hws : s.watches[id]? = some ws) (hp : ws.phase = .resume c)
    (hstale : (s.hub.registry.cell id).projection.table ∉ s.hub.stale) :
    (s.RunsTo id (fun p => ∃ batches, p = .backlog batches ⟨c, true, .after c⟩) ↔
      s.hub.window.replayableLocked c = true ∧
        ∀ t ∈ s.hub.window.ring, t.cursor.sourceID = c.sourceID) ∧
    (s.RunsTo id (· = .refuse .cursorUnavailable) ↔ s.hub.window.replayableLocked c = false) := by
  have hback := Watcher.backlog_ok_iff (s.hub.registry.cell id) (.after c) s.hub.window.ring
  simp only [Need.after_ok_iff] at hback
  rw [← hback]
  let next := ws.phase.step ws.request (fun tick => decide (tick ∈ s.closed)) s.hub id .run
  cases hrep : s.hub.window.replayableLocked c with
  | false =>
    have hm : next = some ⟨s.hub, .refuse .cursorUnavailable, none⟩ := by
      simp [next, hp, Phase.step, hstale, hrep]
    rw [System.runsTo_iff hws hm, System.runsTo_iff hws hm]
    simp
  | true =>
    cases hb : (s.hub.registry.cell id).backlog (.after c) s.hub.window.ring with
    | error err =>
      have hm : next = some ⟨s.hub, .returned (some err), none⟩ := by
        simp [next, hp, Phase.step, hstale, hrep, hb]
      rw [System.runsTo_iff hws hm, System.runsTo_iff hws hm]
      simp
    | ok batches =>
      have hm : next = some ⟨s.hub.register id, .backlog batches ⟨c, true, .after c⟩, none⟩ := by
        simp [next, hp, Phase.step, hstale, hrep, hb, Hub.register]
      rw [System.runsTo_iff hws hm, System.runsTo_iff hws hm]
      simp

/-- **A cursor handed out stays usable, if it is not before the first snapshot's.**  While the ring
holds every transaction after a cursor `c` that some watch was sent, and none of them changed a
shape, `c` is replayable exactly when the first snapshot recorded was taken at or before it; and
that is when a watch of a table that is not stale is served from `c` and not turned away. -/
theorem handed_out_replayable_iff {s : System} {first : Option Cursor}
    (h : Reaches notingFirst anyStep (s, first)) {id : WatcherId} {ws : WatchState} {c : Cursor}
    (hws : s.watches[id]? = some ws) (hsent : HandedOut ws.sent c)
    (hring : ∀ t ∈ s.accepted, later t.cursor c = true → t ∈ s.hub.window.ring)
    (hshape : ∀ t ∈ s.accepted, later t.cursor c = true → t.incompatible = []) :
    ∃ f, first = some f ∧
      (s.hub.window.replayableLocked c = true ↔ f.sourceID = c.sourceID ∧ f.lsn ≤ c.lsn) ∧
      ∀ (id' : WatcherId) (ws' : WatchState), s.watches[id']? = some ws' →
        ws'.phase = .resume c → (s.hub.registry.cell id').projection.table ∉ s.hub.stale →
        (s.RunsTo id' (fun p => ∃ batches, p = .backlog batches ⟨c, true, .after c⟩) ↔
          (f.sourceID = c.sourceID ∧ f.lsn ≤ c.lsn) ∧
            ∀ t ∈ s.hub.window.ring, t.cursor.sourceID = c.sourceID) ∧
        (s.RunsTo id' (· = .refuse .cursorUnavailable) ↔
          ¬(f.sourceID = c.sourceID ∧ f.lsn ≤ c.lsn)) := by
  have hset := Reaches.floorSet (Reaches.of_noting anyStep h) id ws hws (.inr ⟨c, hsent⟩)
  have hmarks : ∀ mark, s.MovesFloor mark → mark.sourceID = c.sourceID → mark.lsn ≤ c.lsn := by
    rintro _ ⟨t, ht, rfl, hfrom⟩ hsrc
    by_contra hgt
    have hlater : later t.cursor c = true := later_iff.2 ⟨hsrc, by omega⟩
    rcases hfrom with hout | hinc
    · exact hout (hring t ht hlater)
    · exact hinc (hshape t ht hlater)
  obtain ⟨f, hf, hiff⟩ := (Reaches.marked h).replayable_iff hset hmarks
  refine ⟨f, hf, hiff, ?_⟩
  intro id' ws' hws' hp hstale
  obtain ⟨hserved, hrefused⟩ := System.runsTo_of_resume hws' hp hstale
  rw [← hiff]
  exact ⟨hserved, by rw [hrefused, Bool.not_eq_true]⟩

/-- The stream lags behind the first snapshot: the hub has accepted up to 500 and the snapshot was
taken at 600.  The watch is sent Progress 500, and a second watch that resumes from it is told that
the cursor is unavailable, although nothing was evicted and no shape changed. -/
theorem handed_out_unavailable : ∃ s ws, Reaches machine anyStep s ∧ s.watches[0]? = some ws ∧
    HandedOut ws.sent ⟨"main", 500⟩ ∧ s.accepted = s.hub.window.ring ∧
    (∀ t ∈ s.accepted, t.incompatible = []) ∧ s.hub.stale = ∅ ∧ s.hub.stopped = false ∧
    s.hub.window.replayableLocked ⟨"main", 500⟩ = false ∧
    ∃ ws' ∈ s.watches[1]?, ws'.request.resumeCursor = "0/1F4" ∧
      ws'.sent = [.resync .cursorUnavailable] := by
  obtain ⟨s, ws, hr, hws, hsent, hrest⟩ := Demo.exists_of_run anyStep 10 10
    ([.accept (Demo.transaction 490 11)] ++ Demo.openSnapshot ++ Demo.readSnapshot 600 ++
      List.replicate 4 (Demo.go .run) ++ [.open_ ⟨"members", Demo.tenant, "0/1F4"⟩] ++
      List.replicate 3 (.watch 1 .run)) 0
    (fun s ws => .progress ⟨"main", 500⟩ ∈ ws.sent ∧ s.accepted = s.hub.window.ring ∧
      (∀ t ∈ s.accepted, t.incompatible = []) ∧ s.hub.stale = ∅ ∧ s.hub.stopped = false ∧
      s.hub.window.replayableLocked ⟨"main", 500⟩ = false ∧
      ∃ ws' ∈ s.watches[1]?, ws'.request.resumeCursor = "0/1F4" ∧
        ws'.sent = [.resync .cursorUnavailable]) (by decide)
  exact ⟨s, ws, hr, hws, .inl hsent, hrest⟩

/-- The same stream, with a snapshot taken at 450: the cursor stays usable. -/
theorem handed_out_replayable_run : ∃ s first ws, Reaches notingFirst anyStep (s, first) ∧
    s.watches[0]? = some ws ∧ HandedOut ws.sent ⟨"main", 500⟩ ∧
    s.hub.window.replayableLocked ⟨"main", 500⟩ = true ∧
    ∃ f, first = some f ∧ f.sourceID = "main" ∧ f.lsn ≤ 500 := by
  obtain ⟨s, ws, hr, hws, hsent, hring, hshape, hrep⟩ := Demo.exists_of_run anyStep 10 10
    ([.accept (Demo.transaction 490 11)] ++ Demo.openSnapshot ++ Demo.readSnapshot 450 ++
      List.replicate 4 (Demo.go .run)) 0
    (fun s ws => .progress ⟨"main", 500⟩ ∈ ws.sent ∧ (∀ t ∈ s.accepted, t ∈ s.hub.window.ring) ∧
      (∀ t ∈ s.accepted, t.incompatible = []) ∧
      s.hub.window.replayableLocked ⟨"main", 500⟩ = true) (by decide)
  obtain ⟨first, hfirst⟩ := Reaches.exists_noting (none : Option Cursor) noteFirst hr
  obtain ⟨f, hf, hiff, -⟩ := handed_out_replayable_iff hfirst hws (.inl hsent)
    (fun t ht _ => hring t ht) (fun t ht _ => hshape t ht)
  exact ⟨s, first, ws, hfirst, hws, .inl hsent, hrep, f, hf, hiff.1 hrep⟩

end Watchd.Watch
