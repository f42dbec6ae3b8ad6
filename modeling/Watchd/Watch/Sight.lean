import Watchd.Watch.Floor
import Watchd.Watch.Stale

/-!
# What one watch can see of the hub

A watch of one scope sees of each transaction its position and the scope's part,
of the window the positions it is cut at, of its own watcher everything but the
memos, and of other watches nothing.  Every change of the hub is here a change
of that sight, given by the sight and by what the watch can see of the step.

`Hub.sight_acceptNew` is the case of `Accept`.
-/

namespace Watchd.Watch

open Watchd.Cdc Watchd.Lib

/-! ## Sight -/

/-- A transaction as the watches of `scope` of a projection see it; `none` is an unknown
projection. -/
def seen (p : Option Projection) (scope : Text) (t : Transaction) : Transaction :=
  { t with changes := (p.map fun p => p.changes scope t).getD [] }

section

variable (p : Option Projection) (scope : Text)

@[simp] theorem seen_cursor (t : Transaction) : (seen p scope t).cursor = t.cursor := rfl

@[simp] theorem seen_commitTime (t : Transaction) :
    (seen p scope t).commitTime = t.commitTime := rfl

theorem Need.apply_seen (need : Need) (t : Transaction) :
    need.apply (seen p scope t) = need.apply t := by
  cases need <;> rfl

theorem reports_seen (t : Transaction) (table : String) :
    reports (seen p scope t) table ↔ reports t table := Iff.rfl

/-- A queued item as the scope sees it; whom it is shared with does not show. -/
def Queued.seen (item : Queued) : Queued :=
  ⟨Watch.seen p scope item.transaction, item.changes, none⟩

/-- A watcher as the scope sees it. -/
def Watcher.seen (c : Watcher) : Watcher := { c with queue := c.queue.map (Queued.seen p scope) }

/-- The ring as the scope sees it. -/
def Window.seen (w : Window) : Window := { w with ring := w.ring.map (Watch.seen p scope) }

end

/-- What a watch can see of the hub. -/
@[ext] structure Sight where
  sourceID : String
  parseLSN : String → Option Nat
  queueSize : Nat
  window : Window
  /-- whether the watch's table is stale -/
  stale : Bool
  stopped : Bool
  watcher : Watcher
  registered : Bool

/-- What of the hub one watch of the scope can see. -/
def Hub.sight (p : Option Projection) (scope : Text) (id : WatcherId) (h : Hub) : Sight where
  sourceID := h.sourceID
  parseLSN := h.parseLSN
  queueSize := h.registry.queueSize
  window := h.window.seen p scope
  stale := p.any fun p => decide (p.table ∈ h.stale)
  stopped := h.stopped
  watcher := (h.registry.cell id).seen p scope
  registered := decide (id ∈ h.registry.watchers)

/-! ## The window -/

namespace Window

variable (p : Option Projection) (scope : Text)

theorem seen_evictLocked (w : Window) :
    (evictLocked w).seen p scope = evictLocked (w.seen p scope) := by
  unfold evictLocked
  cases hring : w.ring with
  | nil => simp [Window.seen, hring]
  | cons t ring => simp [Window.seen, hring]

theorem seen_append (w : Window) (t : Transaction) :
    (w.append t).seen p scope = (w.seen p scope).append (Watch.seen p scope t) := by
  have hloop : ∀ (n : Nat) (w : Window),
      (evictLocked^[n] w).seen p scope = evictLocked^[n] (w.seen p scope) := by
    intro n
    induction n with
    | zero => exact fun _ => rfl
    | succ n ih =>
      intro w
      rw [Function.iterate_succ_apply, Function.iterate_succ_apply, ih, seen_evictLocked]
  rw [append, append, hloop]
  simp [Window.seen]

theorem seen_recordSnapshotLocked (w : Window) (c : Cursor) :
    (w.recordSnapshotLocked c).seen p scope = (w.seen p scope).recordSnapshotLocked c := by
  unfold recordSnapshotLocked
  cases hfloor : w.floor with
  | some floor => simp [Window.seen, hfloor]
  | none => cases hevicted : w.lastEvicted <;> simp [Window.seen, hfloor, hevicted]

theorem recordSnapshotLocked_of_floor {w : Window} {c : Cursor} (h : w.floor.isNone = false) :
    w.recordSnapshotLocked c = w := by
  unfold recordSnapshotLocked
  cases hfloor : w.floor with
  | some floor => rfl
  | none => simp [hfloor] at h

/-- What accepting does to the window a watch sees. -/
theorem seen_acceptNew (h : Hub) (t : Transaction) :
    (h.acceptNew t).window.seen p scope =
      (Watch.seen p scope t).incompatible.foldl
        (fun w _ => w.invalidate (Watch.seen p scope t).cursor)
        ((h.window.seen p scope).append (Watch.seen p scope t)) := by
  have hloop : ∀ (is : List IncompatibleRelationError) (w : Window),
      (is.foldl (fun w _ => w.invalidate t.cursor) w).seen p scope =
        is.foldl (fun w _ => w.invalidate t.cursor) (w.seen p scope) := by
    intro is
    induction is with
    | nil => exact fun _ => rfl
    | cons i is ih => exact fun w => ih _
  rw [Hub.acceptNew_window, hloop, seen_append]
  rfl

end Window

/-! ## Accept -/

section Accept

variable {p : Option Projection} {scope : Text}

/-- The watcher belongs to the watch whose sight it is in. -/
def Watcher.Of (p : Option Projection) (scope : Text) (c : Watcher) : Prop :=
  p = some c.projection ∧ c.scope = scope

theorem Watcher.Of.changesOf {c : Watcher} (h : c.Of p scope) (t : Transaction) :
    c.changesOf t = (Watch.seen p scope t).changes := by
  rw [Watcher.changesOf, Watch.seen, h.1, h.2]
  rfl

theorem Watcher.seen_endedFor (c : Watcher) (reason : ResyncReason) :
    (c.endedFor reason).seen p scope = (c.seen p scope).endedFor reason := rfl

/-- Two watchers that look alike fare alike with transactions that look alike. -/
theorem Outcome.seen {size : Nat} {t t' : Transaction} {c c' : Watcher} {v v' : Watcher × Bool}
    (hc : c.Of p scope) (hc' : c'.Of p scope) (hseen : c.seen p scope = c'.seen p scope)
    (ht : Watch.seen p scope t = Watch.seen p scope t')
    (h : Outcome size t c v) (h' : Outcome size t' c' v') :
    v.1.seen p scope = v'.1.seen p scope ∧ v.2 = v'.2 := by
  have hreports : reports t c.projection.table ↔ reports t' c'.projection.table := by
    have hproj : c.projection = c'.projection := Option.some.inj (hc.1.symm.trans hc'.1)
    rw [← reports_seen p scope t, ht, reports_seen, hproj]
  have hchanges : c.changesOf t = c'.changesOf t' := by rw [hc.changesOf, hc'.changesOf, ht]
  have hlength : c.queue.length = c'.queue.length := by
    simpa [Watcher.seen] using congrArg (fun c => c.queue.length) hseen
  cases h with
  | schemaChanged hrep =>
    cases h' with
    | schemaChanged hrep' =>
      refine ⟨?_, rfl⟩
      rw [Watcher.seen_endedFor, Watcher.seen_endedFor, hseen]
    | unconcerned hrep' hnil' => exact absurd (hreports.1 hrep) hrep'
    | queued hrep' hne' hroom' memo' => exact absurd (hreports.1 hrep) hrep'
    | slow hrep' hne' hfull' => exact absurd (hreports.1 hrep) hrep'
  | unconcerned hrep hnil =>
    cases h' with
    | schemaChanged hrep' => exact absurd (hreports.2 hrep') hrep
    | unconcerned hrep' hnil' => exact ⟨hseen, rfl⟩
    | queued hrep' hne' hroom' memo' => exact absurd (hchanges.symm.trans hnil) hne'
    | slow hrep' hne' hfull' => exact absurd (hchanges.symm.trans hnil) hne'
  | queued hrep hne hroom memo =>
    cases h' with
    | schemaChanged hrep' => exact absurd (hreports.2 hrep') hrep
    | unconcerned hrep' hnil' => exact absurd (hchanges.trans hnil') hne
    | queued hrep' hne' hroom' memo' =>
      refine ⟨?_, rfl⟩
      have hqueue := congrArg Watcher.queue hseen
      simp only [Watcher.seen] at hseen hqueue ⊢
      rw [List.map_append, List.map_append, hqueue, hchanges]
      simp only [List.map_cons, List.map_nil, Queued.seen, ht]
      injection hseen with hproj hscope hq hover hreason
      rw [hproj, hscope, hover, hreason]
    | slow hrep' hne' hfull' => omega
  | slow hrep hne hfull =>
    cases h' with
    | schemaChanged hrep' => exact absurd (hreports.2 hrep') hrep
    | unconcerned hrep' hnil' => exact absurd (hchanges.trans hnil') hne
    | queued hrep' hne' hroom' memo' => omega
    | slow hrep' hne' hfull' =>
      refine ⟨?_, rfl⟩
      rw [Watcher.seen_endedFor, Watcher.seen_endedFor, hseen]

variable {h h' : Hub} {id id' : WatcherId}

/-- Whether a transaction is new can be seen. -/
theorem Hub.isNew_of_sight (hs : h.sight p scope id = h'.sight p scope id') {t t' : Transaction}
    (ht : Watch.seen p scope t = Watch.seen p scope t') : h.isNew t = h'.isNew t' := by
  have hreceived : h.window.received = h'.window.received :=
    congrArg (fun s => s.window.received) hs
  have hcursor : (Watch.seen p scope t).cursor = (Watch.seen p scope t').cursor := by rw [ht]
  rw [seen_cursor, seen_cursor] at hcursor
  rw [Hub.isNew, Hub.isNew, hreceived, hcursor]

/-- **What accepting a transaction does to the sight of a watch** can be seen by it. -/
theorem Hub.sight_acceptNew (hidx : Indexed h.registry) (hscratch : h.scratch = {})
    (hidx' : Indexed h'.registry) (hscratch' : h'.scratch = {})
    (hs : h.sight p scope id = h'.sight p scope id')
    (hc : id ∈ h.registry.watchers → (h.registry.cell id).Of p scope)
    (hc' : id' ∈ h'.registry.watchers → (h'.registry.cell id').Of p scope) {t t' : Transaction}
    (ht : Watch.seen p scope t = Watch.seen p scope t') :
    (h.acceptNew t).sight p scope id = (h'.acceptNew t').sight p scope id' := by
  obtain ⟨-, hsize, hout, hin⟩ := Hub.acceptNew_outcome hidx hscratch t
  obtain ⟨-, hsize', hout', hin'⟩ := Hub.acceptNew_outcome hidx' hscratch' t'
  obtain ⟨hsource, hparse, hstopped, -⟩ := h.acceptNew_fixed t
  obtain ⟨hsource', hparse', hstopped', -⟩ := h'.acceptNew_fixed t'
  have hqueue : h.registry.queueSize = h'.registry.queueSize := congrArg Sight.queueSize hs
  have hreg : decide (id ∈ h.registry.watchers) = decide (id' ∈ h'.registry.watchers) :=
    congrArg Sight.registered hs
  have hwatcher : (h.registry.cell id).seen p scope = (h'.registry.cell id').seen p scope :=
    congrArg Sight.watcher hs
  have hview : ((h.acceptNew t).registry.cell id).seen p scope =
        ((h'.acceptNew t').registry.cell id').seen p scope ∧
      decide (id ∈ (h.acceptNew t).registry.watchers) =
        decide (id' ∈ (h'.acceptNew t').registry.watchers) := by
    by_cases hmem : id ∈ h.registry.watchers
    · have hmem' : id' ∈ h'.registry.watchers := by simpa [hmem] using hreg
      have houtcome := hin id hmem
      have houtcome' := hin' id' hmem'
      rw [← hqueue] at houtcome'
      exact Outcome.seen (hc hmem) (hc' hmem') hwatcher ht houtcome houtcome'
    · have hmem' : id' ∉ h'.registry.watchers := by simpa [hmem] using hreg
      obtain ⟨hcell, hw⟩ := Registry.view_eq.1 (hout id hmem)
      obtain ⟨hcell', hw'⟩ := Registry.view_eq.1 (hout' id' hmem')
      rw [hcell, hcell', hw, hw']
      exact ⟨hwatcher, hreg⟩
  have hstale : (p.any fun p => decide (p.table ∈ (h.acceptNew t).stale)) =
      p.any fun p => decide (p.table ∈ (h'.acceptNew t').stale) := by
    cases hp : p with
    | none => rfl
    | some p₁ =>
      have hbefore : decide (p₁.table ∈ h.stale) = decide (p₁.table ∈ h'.stale) := by
        simpa [Hub.sight, hp] using congrArg Sight.stale hs
      have hreports : reports t p₁.table ↔ reports t' p₁.table := by
        rw [← reports_seen p scope t, ht, reports_seen]
      simp only [Option.any_some, Hub.acceptNew_stale, hreports, decide_eq_decide] at hbefore ⊢
      rw [hbefore]
  refine Sight.ext ?_ ?_ ?_ ?_ hstale ?_ hview.1 hview.2
  · exact hsource.trans ((congrArg Sight.sourceID hs).trans hsource'.symm)
  · exact hparse.trans ((congrArg Sight.parseLSN hs).trans hparse'.symm)
  · exact hsize.trans (hqueue.trans hsize'.symm)
  · show (h.acceptNew t).window.seen p scope = (h'.acceptNew t').window.seen p scope
    have hwindow : h.window.seen p scope = h'.window.seen p scope := congrArg Sight.window hs
    rw [Window.seen_acceptNew, Window.seen_acceptNew, ht, hwindow]
  · exact hstopped.trans ((congrArg Sight.stopped hs).trans hstopped'.symm)

end Accept

/-! ## The steps of a watch -/

section Steps

variable {p : Option Projection} {scope : Text} {h : Hub} {id : WatcherId}

theorem Hub.sight_register :
    (h.register id).sight p scope id = { h.sight p scope id with registered := true } := by
  refine Sight.ext rfl rfl ?_ rfl rfl rfl ?_ ?_
  · simp [Hub.sight, Hub.register, Registry.registerLocked]
  · exact congrArg (fun cell => Watcher.seen p scope (cell id)) (h.register_cell id)
  · have hmem : id ∈ (h.register id).registry.watchers := by
      simp [Hub.register, Registry.registerLocked]
    exact decide_eq_true hmem

theorem Hub.sight_pop (queue : List Queued) :
    (h.pop id queue).sight p scope id = { h.sight p scope id with
      watcher :=
        { (h.sight p scope id).watcher with queue := queue.map (Queued.seen p scope) } } := by
  refine Sight.ext rfl rfl rfl rfl rfl rfl ?_ rfl
  simp [Hub.sight, Hub.pop, Registry.setCell, Watcher.seen]

theorem Hub.sight_unregister (hidx : Indexed h.registry) :
    ({ h with registry := h.registry.unregister id } : Hub).sight p scope id =
      { h.sight p scope id with registered := false } := by
  have hnot : id ∉ h.registry.watchers.erase id := hidx.watchers_nodup.not_mem_erase
  simp [Hub.sight, Registry.unregister, Registry.removeLocked_watchers, Registry.removeLocked_cell,
    Registry.removeLocked_queueSize, hnot]

theorem Hub.sight_clear (hc : (h.registry.cell id).Of p scope) :
    ({ h with stale := h.stale.erase (h.registry.cell id).projection.table } : Hub).sight
      p scope id =
      { h.sight p scope id with stale := false } := by
  simp [Hub.sight, hc.1]

theorem Hub.sight_record (c : Cursor) :
    ({ h with window := h.window.recordSnapshotLocked c } : Hub).sight p scope id =
      { h.sight p scope id with
        window := (h.sight p scope id).window.recordSnapshotLocked c } := by
  simp [Hub.sight, Window.seen_recordSnapshotLocked]

end Steps

end Watchd.Watch
