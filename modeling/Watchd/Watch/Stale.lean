import Watchd.Lib.History
import Watchd.Watch.Delivery
import Watchd.Watch.Lifetime

/-!
# Stale tables

A shape change bans resuming a table's watches until a snapshot taken after it
lifts the ban.  `snapshot` checks the overflow channel and takes the table out of
`stale` in two separate steps: a shape change between the two ends the watcher
and is forgotten by its delete, although the watcher's snapshot was taken before
the change.

`stale_until_cleared`: apart from that, only a watch that registered after the shape
change lifts the ban; `stale_forgotten` is the run.
-/

namespace Watchd.Watch

open Watchd.Cdc Watchd.Lib

/-- About to take the watch's table out of `stale`. -/
def Phase.clearing : Phase → Bool
  | .clearStale _ _ => true
  | _ => false

/-- On the snapshot path, between registration and the delete from `stale`. -/
def Phase.beforeClear : Phase → Bool
  | .snapshotBegin _ | .reading _ | .overflowCheck _ _ | .clearStale _ _ => true
  | _ => false

theorem Phase.beforeClear_of_clearing {p : Phase} (h : p.clearing = true) :
    p.beforeClear = true := by
  cases p <;> first | rfl | cases h

theorem Phase.registered_of_beforeClear {p : Phase} (h : p.beforeClear = true) :
    p.registered = true := by
  cases p <;> first | rfl | cases h

theorem Phase.not_beforeClear_of_leaving {p : Phase} (h : p.leaving = true) :
    ¬p.beforeClear = true := by
  cases p <;> first | exact Bool.false_ne_true | cases h

/-- The step is a delete from `stale` by a watch of `table`. -/
def System.Clears (s : System) (table : String) (P : WatchState → Prop) : Label → Prop
  | .watch id _ => ∃ ws ∈ s.watches[id]?, ws.phase.clearing = true ∧
      (s.hub.registry.cell id).projection.table = table ∧ P ws
  | _ => False

instance (s : System) (table : String) (P : WatchState → Prop) [DecidablePred P] :
    (l : Label) → Decidable (s.Clears table P l)
  | .watch id _ => inferInstanceAs (Decidable (∃ ws ∈ s.watches[id]?, ws.phase.clearing = true ∧
      (s.hub.registry.cell id).projection.table = table ∧ P ws))
  | .accept _ | .close _ | .stop | .open_ _ => .isFalse fun h => h

/-- A watch takes its table out of `stale` only while the hub has not ended it. -/
def clearsUnended (s : System) : Label → Prop
  | .watch id _ => ∀ ws ∈ s.watches[id]?, ws.phase.clearing = true →
      (s.hub.registry.cell id).overflow = false
  | _ => True

instance (s : System) : (l : Label) → Decidable (clearsUnended s l)
  | .watch id _ => inferInstanceAs (Decidable (∀ ws ∈ s.watches[id]?,
      ws.phase.clearing = true → (s.hub.registry.cell id).overflow = false))
  | .accept _ | .close _ | .stop | .open_ _ => .isTrue trivial

/-! ## What the steps do to `stale` -/

theorem sending_hub {h : Hub} {event : Event} {next : Phase} {failed : Option GoError → Phase}
    {act : Act} {m : Move} (hm : sending h event next failed act = some m) : m.hub = h := by
  cases act <;> cases hm <;> rfl

/-- Of all steps of a Watch call only the delete writes `stale`. -/
theorem Phase.step_stale {req : Request} {closed : TickId → Bool} {h : Hub} {id : WatcherId}
    {p : Phase} {act : Act} {m : Move} (hm : p.step req closed h id act = some m) :
    m.hub.stale =
      if p.clearing then h.stale.erase (h.registry.cell id).projection.table else h.stale := by
  cases p with
  | snapshotBegin streamed => exact congrArg Hub.stale (sending_hub hm)
  | snapshotEnd batches snap => exact congrArg Hub.stale (sending_hub hm)
  | deliver args round pos tick item => exact congrArg Hub.stale (sending_hub hm)
  | resync reason => exact congrArg Hub.stale (sending_hub hm)
  | refuse reason => exact congrArg Hub.stale (sending_hub hm)
  | backlog batches args =>
    cases batches with
    | nil =>
      cases act <;> cases hm
      rfl
    | cons b batches => exact congrArg Hub.stale (sending_hub hm)
  | progress args round pos tick =>
    simp only [Phase.step] at hm
    split at hm
    · exact congrArg Hub.stale (sending_hub hm)
    · cases act <;> cases hm
      rfl
  | reading streamed =>
    rcases act with _ | _ | _ | (err | snap) | _ <;> simp only [Phase.step, reduceCtorEq] at hm
    · cases hm
      rfl
    · split at hm
      · cases hm
        rfl
      · split at hm <;> cases hm <;> rfl
    · cases hm
      rfl
  | select args progressed tick =>
    rcases act with _ | _ | _ | _ | case <;> simp only [Phase.step, reduceCtorEq] at hm
    cases case <;> simp only at hm
    · cases hm
      rfl
    all_goals
      split at hm <;> cases hm
      rfl
  | _ =>
    cases act <;> simp only [Phase.step, Hub.position, reduceCtorEq] at hm
    repeat' split at hm
    all_goals
      cases hm
      rfl

theorem Hub.acceptNew_stale (h : Hub) (t : Transaction) (table : String) :
    table ∈ (h.acceptNew t).stale ↔ table ∈ h.stale ∨ reports t table := by
  have hloop : ∀ (is : List IncompatibleRelationError) (stale : Finset String),
      table ∈ is.foldl (fun stale i => insert i.table stale) stale ↔
        table ∈ stale ∨ ∃ i ∈ is, i.table = table := by
    intro is
    induction is with
    | nil => simp
    | cons i is ih =>
      intro stale
      rw [List.foldl_cons, ih, Finset.mem_insert]
      simp only [List.mem_cons, exists_eq_or_imp]
      tauto
  obtain ⟨registry, memos, heq⟩ := Hub.acceptNew_eq h t
  rw [heq, Hub.advance_eq]
  exact hloop t.incompatible h.stale

/-- A table leaves `stale` only by the delete of one of its watches. -/
theorem System.step_stale {s s' : System} {l : Label} {table : String} (hs : s.step l = some s')
    (hmem : table ∈ s.hub.stale) :
    table ∈ s'.hub.stale ∨ s.Clears table (fun _ => True) l := by
  have hother (hne : ∀ id act, l ≠ .watch id act) : table ∈ s'.hub.stale := by
    have hstepped := System.step_stepped hs
    cases hstepped with
    | accepted t hnew closing => exact (Hub.acceptNew_stale ..).2 (.inl hmem)
    | moved id act ws m hws hm => exact absurd rfl (hne id act)
    | _ => exact hmem
  cases l with
  | watch id act =>
    simp only [System.step] at hs
    obtain ⟨ws, hws, hmap⟩ := Option.bind_eq_some_iff.1 hs
    obtain ⟨m, hm, rfl⟩ := Option.map_eq_some_iff.1 hmap
    have hstale : (s.moved id ws m).hub.stale = _ := Phase.step_stale hm
    rw [hstale]
    by_cases hclear : ws.phase.clearing = true ∧ (s.hub.registry.cell id).projection.table = table
    · exact .inr ⟨ws, hws, hclear.1, hclear.2, trivial⟩
    · left
      split
      · next hp => exact Finset.mem_erase.2 ⟨fun heq => hclear ⟨hp, heq.symm⟩, hmem⟩
      · exact hmem
  | _ => exact .inl (hother fun _ _ hl => by cases hl)

/-! ## The ban -/

/-- The ban on `table` since the hub had accepted `n` transactions: every watch of the table that
registered before and has yet to clear it was ended. -/
structure Banned (table : String) (n : Nat) (s : System) : Prop where
  stale : table ∈ s.hub.stale
  le : n ≤ s.accepted.length
  ended : ∀ (id : WatcherId) (ws : WatchState), s.watches[id]? = some ws →
    ws.phase.beforeClear = true → (s.hub.registry.cell id).projection.table = table →
    ws.history.registeredAt < n → ws.history.ended ≠ none

/-- The accept of a shape change ends every registered watch of the table. -/
theorem Banned.start {s : System} (hinv : Inv s) {t : Transaction} {table : String}
    (hnew : s.hub.isNew t = .ok true) (hrep : reports t table) :
    Banned table (s.accepted.length + 1) (s.accept t) := by
  obtain ⟨hhub, hwatches, haccepted⟩ := System.accept_of_new hnew
  have hstale : table ∈ (s.hub.acceptNew t).stale := (Hub.acceptNew_stale ..).2 (.inr hrep)
  refine ⟨hhub ▸ hstale, by simp [haccepted], ?_⟩
  intro id ws' hws' hp htable _
  rw [hhub] at htable
  rw [hwatches, List.getElem?_mapIdx, Option.map_eq_some_iff] at hws'
  obtain ⟨ws, hws, rfl⟩ := hws'
  obtain ⟨ended, hnote, hended⟩ := ws.noteAccept_eq s t (s.hub.acceptNew t) id
  rw [hnote] at hp
  have hbooks := (hinv.watch id ws hws).books
  obtain ⟨-, -, hout, hin⟩ := s.hub.acceptNew_outcome hinv.indexed hinv.scratch t
  by_cases hreg : id ∈ s.hub.registry.watchers
  · -- registered, hence ended by this accept
    have htable' : (s.hub.registry.cell id).projection.table = table :=
      (congrArg Projection.table (hin id hreg).static.1).symm.trans htable
    have hout' : id ∉ (s.hub.acceptNew t).registry.watchers := by
      have hview := hin id hreg
      intro hreg'
      rw [show (s.hub.acceptNew t).registry.view id =
        ((s.hub.acceptNew t).registry.cell id, true) by simp [Registry.view, hreg']] at hview
      generalize (s.hub.acceptNew t).registry.cell id = c at hview
      cases hview with
      | unconcerned hrep' _ => exact hrep' (htable' ▸ hrep)
      | queued hrep' _ _ _ => exact hrep' (htable' ▸ hrep)
    unfold WatchState.noteAccept
    rw [if_pos ⟨hreg, hout'⟩]
    exact Option.some_ne_none _
  · -- past its registration and not registered: ended before
    rw [hnote]
    refine hended fun hnone => ?_
    have hr := hbooks.registered
    rw [Phase.registered_of_beforeClear hp, hnone] at hr
    simp [Registry.view, hreg] at hr

/-- Where a watch on the snapshot path comes from. -/
theorem Moves.beforeClear {h : Hub} {id : WatcherId} {p : Phase} {m : Move} (hm : Moves h id p m)
    (hp' : m.phase.beforeClear = true) (hist : History) (s : System) :
    (hist.note s id p m.phase).registeredAt = s.accepted.length ∨
      p.beforeClear = true ∧ (hist.note s id p m.phase).registeredAt = hist.registeredAt := by
  cases hm with
  | registered => exact .inl rfl
  | begun streamed => exact .inr ⟨rfl, rfl⟩
  | rows streamed rows => exact .inr ⟨rfl, rfl⟩
  | read streamed snap => exact .inr ⟨rfl, rfl⟩
  | installs streamed snap hover => exact .inr ⟨rfl, rfl⟩
  | turnedAway p p' _ hend => rcases hend with ⟨reason, rfl⟩ | ⟨err, rfl⟩ <;> cases hp'
  | leaves p p' stale _ hleaving => exact absurd hp' (Phase.not_beforeClear_of_leaving hleaving)
  | _ => cases hp'

theorem Banned.stepped {s s' : System} {l : Label} {table : String} {n : Nat} (hinv : Inv s)
    (h : Banned table n s) (hstale : table ∈ s'.hub.stale) (hs : s.Stepped l s') :
    Banned table n s' := by
  have hkeep : ∀ (id : WatcherId) (ws : WatchState), s.watches[id]? = some ws →
      ws.phase.beforeClear = true → (s'.hub.registry.cell id).projection.table = table →
      ws.history.registeredAt < n → ws.history.ended ≠ none := by
    intro id ws hws hp htable hreg
    have hstarted : s.Started id :=
      ⟨ws, hws, Phase.unstarted_of_registered (Phase.registered_of_beforeClear hp)⟩
    rw [hs.projection_eq hinv hstarted] at htable
    exact h.ended id ws hws hp htable hreg
  refine ⟨hstale, ?_, ?_⟩
  · have hle := h.le
    cases hs <;> simp [System.moved] <;> omega
  intro id' ws' hws' hp htable hreg
  cases hs.origin hws' with
  | kept ws ended hws hended => exact hended (hkeep id' ws hws hp htable hreg)
  | opened req p _ _ hp' => rcases hp' with rfl | ⟨err, rfl⟩ <;> cases hp
  | moved act ws m _ hws hm _ =>
    have hle := h.le
    rcases hm.beforeClear hp ws.history s with hat | ⟨hpold, hat⟩
    · -- a new registration comes after the ban
      have hlt : s.accepted.length < n := hat ▸ hreg
      omega
    · simp only [WatchState.moved, History.note_ended]
      exact hkeep id' ws hws hpold htable (hat ▸ hreg)

/-- **Only a snapshot taken after the shape change lifts the ban**, in every run in which a watch
takes its table out of `stale` only while the hub has not ended it.  After `Accept` of a shape
change of `table`, the table stays stale for as long as no watch of it that registered after that
`Accept` takes it out. -/
theorem stale_until_cleared {s : System} (h : Reaches machine anyStep s) {t : Transaction}
    {table : String} (hnew : s.hub.isNew t = .ok true) (hrep : reports t table) {s' : System}
    (hrun : Reaches (machine.startedAt (s.accept t)) (fun s₁ l => clearsUnended s₁ l ∧
      ¬s₁.Clears table (fun ws => s.accepted.length + 1 ≤ ws.history.registeredAt) l) s') :
    table ∈ s'.hub.stale := by
  suffices hban : Inv s' ∧ Banned table (s.accepted.length + 1) s' from hban.2.stale
  have hinv := Reaches.inv h
  refine hrun.invariant (I := fun s' => Inv s' ∧ Banned table (s.accepted.length + 1) s') ?_ ?_
  · rintro s₁ rfl
    exact ⟨hinv.stepped (System.step_stepped (l := .accept t) rfl), .start hinv hnew hrep⟩
  · rintro s₁ l s₂ - ⟨hinv₁, hban⟩ ⟨hok, hnot⟩ hstep
    have hstepped := System.step_stepped hstep
    refine ⟨hinv₁.stepped hstepped, hban.stepped hinv₁ ?_ hstepped⟩
    rcases System.step_stale hstep hban.stale with hmem | hclear
    · exact hmem
    · -- the delete of a watch that the ban had ended
      exfalso
      cases l with
      | watch id act =>
        obtain ⟨ws, hws, hp, htable, -⟩ := hclear
        have hover := hok ws hws hp
        have hbooks := (hinv₁.watch id ws hws).books
        by_cases hat : s.accepted.length + 1 ≤ ws.history.registeredAt
        · exact hnot ⟨ws, hws, hp, htable, hat⟩
        · have hended := hban.ended id ws hws (Phase.beforeClear_of_clearing hp) htable (by omega)
          have hover' : (s₁.hub.registry.cell id).overflow = ws.history.ended.isSome :=
            hbooks.overflow
          rw [hover] at hover'
          exact hended (by simpa using hover'.symm)
      | _ => exact hclear

namespace Demo

/-- A transaction in which the watched table changed its shape. -/
def reshaped (lsn : Nat) (xid : UInt32) : Transaction :=
  { cursor := ⟨"main", lsn + 10⟩, incompatible := [⟨"public.members", "column dropped"⟩],
    commitLSN := lsn, xid := xid }

/-- The first watch, up to its delete from `stale`: its snapshot is read and it was not ended. -/
def checked : List Label := openSnapshot ++ [go (.read (.ok (snapshot 150))), go .run]

end Demo

/-- The shape change comes between the check and the delete: the table is no longer stale, by a
watch that registered before the change. -/
theorem stale_forgotten : ∃ s s', Reaches machine anyStep s ∧
    s.hub.isNew (Demo.reshaped 200 12) = .ok true ∧
    reports (Demo.reshaped 200 12) "public.members" ∧
    Reaches (machine.startedAt (s.accept (Demo.reshaped 200 12))) (fun s₁ l =>
      ¬s₁.Clears "public.members"
        (fun ws => s.accepted.length + 1 ≤ ws.history.registeredAt) l) s' ∧
    "public.members" ∉ s'.hub.stale := by
  obtain ⟨s, ws, hr, -, hnew, s', hrun, hstale⟩ := Demo.exists_of_run anyStep 10 10 Demo.checked 0
    (fun s _ => s.hub.isNew (Demo.reshaped 200 12) = .ok true ∧
      ∃ s' ∈ runWhile (machine.startedAt (s.accept (Demo.reshaped 200 12)))
        (fun s₁ l => ¬s₁.Clears "public.members"
          (fun ws => s.accepted.length + 1 ≤ ws.history.registeredAt) l)
        (s.accept (Demo.reshaped 200 12)) [Demo.go .run], "public.members" ∉ s'.hub.stale)
    (by decide)
  exact ⟨s, s', hr, hnew, by decide, .of_runWhile (.init rfl) hrun, hstale⟩

/-- The shape change comes before the check: the watch is told to start over, and the table stays
stale. -/
theorem stale_until_cleared_run : ∃ s s', Reaches machine anyStep s ∧
    Reaches (machine.startedAt (s.accept (Demo.reshaped 200 12))) anyStep s' ∧
    s'.watches.map WatchState.phase = [.resync .schemaChanged] ∧
    "public.members" ∈ s'.hub.stale := by
  obtain ⟨s, ws, hr, -, hnew, s', hrun, hphase⟩ := Demo.exists_of_run anyStep 10 10
    Demo.openSnapshot 0
    (fun s _ => s.hub.isNew (Demo.reshaped 200 12) = .ok true ∧
      ∃ s' ∈ runWhile (machine.startedAt (s.accept (Demo.reshaped 200 12)))
        (fun s₁ l => clearsUnended s₁ l ∧ ¬s₁.Clears "public.members"
          (fun ws => s.accepted.length + 1 ≤ ws.history.registeredAt) l)
        (s.accept (Demo.reshaped 200 12))
        [Demo.go (.read (.ok (Demo.snapshot 150))), Demo.go .run],
      s'.watches.map WatchState.phase = [.resync .schemaChanged])
    (by decide)
  have hrun' := Reaches.of_runWhile (.init rfl) hrun
  exact ⟨s, s', hr, hrun'.mono fun _ _ _ => trivial, hphase,
    stale_until_cleared hr hnew (by decide) hrun'⟩

end Watchd.Watch
