import Watchd.Watch.Sight

/-!
# Watch calls that look alike

Two Watch calls, of two hubs that look the same to them, stand at the same place
with local variables that look the same.  The same act of the environment then
leads both to what looks the same again, and both send the same.

`Phase.Alike.step` states it.
-/

namespace Watchd.Watch

open Watchd.Cdc Watchd.Lib

/-- An event without the memo of its batch. -/
def Event.bare : Event → Event
  | .batch b => .batch b.bare
  | e => e

/-- Two Watch calls stand at the same place, with local variables that look the same. -/
inductive Phase.Alike (p : Option Projection) (scope : Text) : Phase → Phase → Prop
  | start : Alike p scope .start .start
  | resume (c : Cursor) : Alike p scope (.resume c) (.resume c)
  | snapshot : Alike p scope .snapshot .snapshot
  | snapshotBegin {ts ts' : List Transaction} (h : ts.map (seen p scope) = ts'.map (seen p scope)) :
    Alike p scope (.snapshotBegin ts) (.snapshotBegin ts')
  | reading {ts ts' : List Transaction} (h : ts.map (seen p scope) = ts'.map (seen p scope)) :
    Alike p scope (.reading ts) (.reading ts')
  | overflowCheck {ts ts' : List Transaction} (h : ts.map (seen p scope) = ts'.map (seen p scope))
      (snap : Snapshot) : Alike p scope (.overflowCheck ts snap) (.overflowCheck ts' snap)
  | clearStale {ts ts' : List Transaction} (h : ts.map (seen p scope) = ts'.map (seen p scope))
      (snap : Snapshot) : Alike p scope (.clearStale ts snap) (.clearStale ts' snap)
  | recordSnapshot (batches : List Batch) (snap : Snapshot) :
    Alike p scope (.recordSnapshot batches snap) (.recordSnapshot batches snap)
  | snapshotEnd (batches : List Batch) (snap : Snapshot) :
    Alike p scope (.snapshotEnd batches snap) (.snapshotEnd batches snap)
  | backlog (batches : List Batch) (args : LiveArgs) :
    Alike p scope (.backlog batches args) (.backlog batches args)
  | position (args : LiveArgs) (round : Round) :
    Alike p scope (.position args round) (.position args round)
  | drain (args : LiveArgs) (round : Round) (pos : Cursor) (tick tick' : TickId) :
    Alike p scope (.drain args round pos tick) (.drain args round pos tick')
  | deliver (args : LiveArgs) (round : Round) (pos : Cursor) (tick tick' : TickId)
      {item item' : Queued} (h : item.seen p scope = item'.seen p scope) :
    Alike p scope (.deliver args round pos tick item) (.deliver args round pos tick' item')
  | progress (args : LiveArgs) (round : Round) (pos : Cursor) (tick tick' : TickId) :
    Alike p scope (.progress args round pos tick) (.progress args round pos tick')
  | select (args : LiveArgs) (progressed : Cursor) (tick tick' : TickId) :
    Alike p scope (.select args progressed tick) (.select args progressed tick')
  | resync (reason : ResyncReason) : Alike p scope (.resync reason) (.resync reason)
  | refuse (reason : ResyncReason) : Alike p scope (.refuse reason) (.refuse reason)
  | unregister (result : Option GoError) : Alike p scope (.unregister result) (.unregister result)
  | returned (result : Option GoError) : Alike p scope (.returned result) (.returned result)

theorem Phase.Alike.symm {p : Option Projection} {scope : Text} {a b : Phase}
    (h : Phase.Alike p scope a b) : Phase.Alike p scope b a := by
  cases h with
  | snapshotBegin h => exact .snapshotBegin h.symm
  | reading h => exact .reading h.symm
  | overflowCheck h snap => exact .overflowCheck h.symm snap
  | clearStale h snap => exact .clearStale h.symm snap
  | deliver args round pos tick tick' h => exact .deliver args round pos tick' tick h.symm
  | drain args round pos tick tick' => exact .drain args round pos tick' tick
  | progress args round pos tick tick' => exact .progress args round pos tick' tick
  | select args progressed tick tick' => exact .select args progressed tick' tick
  | start => exact .start
  | resume c => exact .resume c
  | snapshot => exact .snapshot
  | recordSnapshot batches snap => exact .recordSnapshot batches snap
  | snapshotEnd batches snap => exact .snapshotEnd batches snap
  | backlog batches args => exact .backlog batches args
  | position args round => exact .position args round
  | resync reason => exact .resync reason
  | refuse reason => exact .refuse reason
  | unregister result => exact .unregister result
  | returned result => exact .returned result

section Own

variable {p : Option Projection} {scope : Text} {h h' : Hub} {id id' : WatcherId}

/-- Two outcomes of a step look alike. -/
structure Move.Alike (p : Option Projection) (scope : Text) (id id' : WatcherId) (m m' : Move) :
    Prop where
  sight : m.hub.sight p scope id = m'.hub.sight p scope id'
  phase : Phase.Alike p scope m.phase m'.phase
  sent : m.sent.map Event.bare = m'.sent.map Event.bare

theorem sending_alike (hs : h.sight p scope id = h'.sight p scope id') {e e' : Event}
    (he : e.bare = e'.bare) {next next' : Phase} (hnext : Phase.Alike p scope next next')
    {failed : Option GoError → Phase}
    (hfailed : ∀ err, Phase.Alike p scope (failed err) (failed err))
    {act : Act} {m m' : Move} (hm : sending h e next failed act = some m)
    (hm' : sending h' e' next' failed act = some m') : Move.Alike p scope id id' m m' := by
  cases act with
  | run =>
    cases hm
    cases hm'
    exact ⟨hs, hnext, congrArg some he⟩
  | fail err =>
    cases hm
    cases hm'
    exact ⟨hs, hfailed _, rfl⟩
  | rows rs => cases hm
  | read result => cases hm
  | choose case => cases hm

/-- The batches a watch makes of transactions are given by what it sees of them. -/
theorem Watcher.backlog_seen {c c' : Watcher} (hc : c.Of p scope) (hc' : c'.Of p scope)
    (need : Need)
    {ts ts' : List Transaction}
    (hts : ts.map (Watch.seen p scope) = ts'.map (Watch.seen p scope)) :
    c.backlog need ts = c'.backlog need ts' := by
  have hseen : ∀ {c : Watcher}, c.Of p scope → ∀ ts : List Transaction,
      c.backlog need ts = (ts.map (Watch.seen p scope)).foldlM (fun batches t =>
        (need.apply t).map fun needed =>
          if needed then
            if t.changes.length > 0 then
              batches ++ [{ cursor := t.cursor, commitTime := t.commitTime, changes := t.changes }]
            else batches
          else batches) [] := by
    intro c hc ts
    rw [List.foldlM_map]
    unfold Watcher.backlog Watcher.appendBatch Watcher.batchOf
    simp only [Need.apply_seen, hc.changesOf, seen_cursor, seen_commitTime]
  rw [hseen hc, hseen hc', hts]

theorem Queued.batch_seen {item item' : Queued} (hitem : item.seen p scope = item'.seen p scope) :
    (Event.batch item.batch).bare = (Event.batch item'.batch).bare ∧
      item.transaction.cursor = item'.transaction.cursor ∧
      ∀ need : Need, need.apply item.transaction = need.apply item'.transaction := by
  obtain ⟨ht, hchanges⟩ :
      Watch.seen p scope item.transaction = Watch.seen p scope item'.transaction ∧
      item.changes = item'.changes := by
    injection hitem with ht hchanges
    exact ⟨ht, hchanges⟩
  have hcursor : item.transaction.cursor = item'.transaction.cursor := by
    have hseen := congrArg Transaction.cursor ht
    exact hseen
  have htime : item.transaction.commitTime = item'.transaction.commitTime := by
    have hseen := congrArg Transaction.commitTime ht
    exact hseen
  refine ⟨?_, hcursor, fun need => ?_⟩
  · simp only [Event.bare, Batch.bare, Queued.batch, hcursor, htime, hchanges]
  · rw [← Need.apply_seen p scope need item.transaction, ht, Need.apply_seen]

variable (hs : h.sight p scope id = h'.sight p scope id') (hc : (h.registry.cell id).Of p scope)
  (hc' : (h'.registry.cell id').Of p scope) {req : Request} {closed closed' : TickId → Bool}
  {act : Act} {m m' : Move}

include hs

theorem start_alike (hm : Phase.step req closed h id .start act = some m)
    (hm' : Phase.step req closed' h' id' .start act = some m') :
    Move.Alike p scope id id' m m' := by
  have hstopped : h.stopped = h'.stopped := congrArg Sight.stopped hs
  have hparse : parseCursor h.parseLSN h.sourceID req.resumeCursor =
      parseCursor h'.parseLSN h'.sourceID req.resumeCursor := by
    rw [show h.parseLSN = h'.parseLSN from congrArg Sight.parseLSN hs,
      show h.sourceID = h'.sourceID from congrArg Sight.sourceID hs]
  cases act <;> simp only [Phase.step, hstopped, hparse, reduceCtorEq] at hm hm'
  split at hm
  · next hstop =>
    rw [if_pos hstop] at hm'
    cases hm
    cases hm'
    exact ⟨hs, .refuse _, rfl⟩
  · next hstop =>
    rw [if_neg hstop] at hm'
    split at hm
    · next hresume =>
      rw [if_pos hresume] at hm'
      split at hm
      · next cursor hcursor =>
        rw [hcursor] at hm'
        cases hm
        cases hm'
        exact ⟨hs, .resume _, rfl⟩
      · next err herr =>
        rw [herr] at hm'
        cases hm
        cases hm'
        exact ⟨hs, .returned _, rfl⟩
    · next hresume =>
      rw [if_neg hresume] at hm'
      cases hm
      cases hm'
      exact ⟨hs, .snapshot, rfl⟩

include hc hc'

theorem resume_alike {c : Cursor} (hm : Phase.step req closed h id (.resume c) act = some m)
    (hm' : Phase.step req closed' h' id' (.resume c) act = some m') :
    Move.Alike p scope id id' m m' := by
  have hstale : (h.registry.cell id).projection.table ∈ h.stale ↔
      (h'.registry.cell id').projection.table ∈ h'.stale := by
    have hproj : (h.registry.cell id).projection = (h'.registry.cell id').projection :=
      Option.some.inj (hc.1.symm.trans hc'.1)
    have hany := congrArg Sight.stale hs
    simp only [Hub.sight, hc.1, Option.any_some, decide_eq_decide] at hany
    rw [← hproj]
    exact hany
  have hreplay : h.window.replayableLocked c = h'.window.replayableLocked c := by
    have hfloor : h.window.floor = h'.window.floor := congrArg (fun s => s.window.floor) hs
    rw [Window.replayableLocked, Window.replayableLocked, hfloor]
  have hbacklog : (h.registry.cell id).backlog (.after c) h.window.ring =
      (h'.registry.cell id').backlog (.after c) h'.window.ring :=
    Watcher.backlog_seen hc hc' _ (congrArg (fun s => s.window.ring) hs)
  cases act <;> simp only [Phase.step, hstale, hreplay, hbacklog, reduceCtorEq] at hm hm'
  split at hm
  · next hst =>
    rw [if_pos hst] at hm'
    cases hm
    cases hm'
    exact ⟨hs, .refuse _, rfl⟩
  · next hst =>
    rw [if_neg hst] at hm'
    split at hm
    · next hrep =>
      rw [if_pos hrep] at hm'
      cases hm
      cases hm'
      exact ⟨hs, .refuse _, rfl⟩
    · next hrep =>
      rw [if_neg hrep] at hm'
      split at hm
      · next err herr =>
        rw [herr] at hm'
        cases hm
        cases hm'
        exact ⟨hs, .returned _, rfl⟩
      · next batches hok =>
        rw [hok] at hm'
        cases hm
        cases hm'
        refine ⟨?_, .backlog _ _, rfl⟩
        show (h.register id).sight p scope id = (h'.register id').sight p scope id'
        rw [Hub.sight_register, Hub.sight_register, hs]

theorem snapshot_alike (hm : Phase.step req closed h id .snapshot act = some m)
    (hm' : Phase.step req closed' h' id' .snapshot act = some m') :
    Move.Alike p scope id id' m m' := by
  have hring : h.window.ring.map (seen p scope) = h'.window.ring.map (seen p scope) :=
    congrArg (fun s => s.window.ring) hs
  have hfilter : ∀ {c : Watcher}, c.Of p scope → ∀ ts : List Transaction,
      (ts.filter fun t => decide ((c.changesOf t).length > 0)).map (seen p scope) =
        (ts.map (seen p scope)).filter fun t => decide (t.changes.length > 0) := by
    intro c hc ts
    rw [List.filter_map]
    simp only [hc.changesOf]
    rfl
  cases act <;> simp only [Phase.step, reduceCtorEq] at hm hm'
  cases hm
  cases hm'
  refine ⟨?_, .snapshotBegin ?_, rfl⟩
  · show (h.register id).sight p scope id = (h'.register id').sight p scope id'
    rw [Hub.sight_register, Hub.sight_register, hs]
  · rw [hfilter hc, hfilter hc', hring]

theorem clearStale_alike {ts ts' : List Transaction}
    (hts : ts.map (seen p scope) = ts'.map (seen p scope)) {snap : Snapshot}
    (hm : Phase.step req closed h id (.clearStale ts snap) act = some m)
    (hm' : Phase.step req closed' h' id' (.clearStale ts' snap) act = some m') :
    Move.Alike p scope id id' m m' := by
  have hbacklog := Watcher.backlog_seen hc hc' (.notCovered snap) hts
  have hclear :
      ({ h with stale := h.stale.erase (h.registry.cell id).projection.table } : Hub).sight
        p scope id =
      ({ h' with stale := h'.stale.erase (h'.registry.cell id').projection.table } : Hub).sight
        p scope id' := by
    rw [Hub.sight_clear hc, Hub.sight_clear hc', hs]
  cases act <;> simp only [Phase.step, hbacklog, reduceCtorEq] at hm hm'
  split at hm
  · next err herr =>
    rw [herr] at hm'
    cases hm
    cases hm'
    exact ⟨hclear, .unregister _, rfl⟩
  · next batches hok =>
    rw [hok] at hm'
    cases hm
    cases hm'
    exact ⟨hclear, .recordSnapshot _ _, rfl⟩

omit hc hc' in
theorem drain_alike {args : LiveArgs} {round : Round} {pos : Cursor} {tick tick' : TickId}
    (hm : Phase.step req closed h id (.drain args round pos tick) act = some m)
    (hm' : Phase.step req closed' h' id' (.drain args round pos tick') act = some m') :
    Move.Alike p scope id id' m m' := by
  have hqueue : (h.registry.cell id).queue.map (Queued.seen p scope) =
      (h'.registry.cell id').queue.map (Queued.seen p scope) :=
    congrArg (fun s => s.watcher.queue) hs
  cases act <;> simp only [Phase.step, reduceCtorEq] at hm hm'
  cases hq : (h.registry.cell id).queue with
  | nil =>
    have hq' : (h'.registry.cell id').queue = [] := by simpa [hq] using hqueue.symm
    rw [hq] at hm
    rw [hq'] at hm'
    cases hm
    cases hm'
    exact ⟨hs, .progress _ _ _ _ _, rfl⟩
  | cons item queue =>
    cases hq' : (h'.registry.cell id').queue with
    | nil => simp [hq, hq'] at hqueue
    | cons item' queue' =>
      rw [hq, hq', List.map_cons, List.map_cons] at hqueue
      obtain ⟨hitem, hrest⟩ := List.cons.inj hqueue
      obtain ⟨-, hcursor, hneed⟩ := Queued.batch_seen hitem
      have hpop : (h.pop id queue).sight p scope id = (h'.pop id' queue').sight p scope id' := by
        rw [Hub.sight_pop, Hub.sight_pop, hs, hrest]
      rw [hq] at hm
      rw [hq'] at hm'
      simp only [hneed args.need] at hm
      cases hn : args.need.apply item'.transaction with
      | error err =>
        simp only [hn] at hm hm'
        cases hm
        cases hm'
        exact ⟨hpop, .unregister _, rfl⟩
      | ok needed =>
        simp only [hn] at hm hm'
        cases needed with
        | true =>
          cases hm
          cases hm'
          exact ⟨hpop, .deliver _ _ _ _ _ hitem, rfl⟩
        | false =>
          cases hm
          cases hm'
          refine ⟨hpop, ?_, rfl⟩
          rw [hcursor]
          exact .drain _ _ _ _ _

omit hc hc' in
theorem select_alike {args : LiveArgs} {progressed : Cursor} {tick tick' : TickId}
    (hm : Phase.step req closed h id (.select args progressed tick) act = some m)
    (hm' : Phase.step req closed' h' id' (.select args progressed tick') act = some m') :
    Move.Alike p scope id id' m m' := by
  have hreason : (h.registry.cell id).reason = (h'.registry.cell id').reason :=
    congrArg (fun s => s.watcher.reason) hs
  cases act <;> simp only [Phase.step, reduceCtorEq] at hm hm'
  next case =>
  cases case with
  | ctxDone err =>
    cases hm
    cases hm'
    exact ⟨hs, .unregister _, rfl⟩
  | overflow =>
    simp only [Option.ite_none_right_eq_some] at hm hm'
    obtain ⟨-, hm⟩ := hm
    obtain ⟨-, hm'⟩ := hm'
    cases hm
    cases hm'
    refine ⟨hs, ?_, rfl⟩
    rw [hreason]
    exact .resync _
  | stopped =>
    simp only [Option.ite_none_right_eq_some] at hm hm'
    obtain ⟨-, hm⟩ := hm
    obtain ⟨-, hm'⟩ := hm'
    cases hm
    cases hm'
    exact ⟨hs, .resync _, rfl⟩
  | tick =>
    simp only [Option.ite_none_right_eq_some] at hm hm'
    obtain ⟨-, hm⟩ := hm
    obtain ⟨-, hm'⟩ := hm'
    cases hm
    cases hm'
    exact ⟨hs, .position _ _, rfl⟩

/-- **Own steps look alike**: from what looks alike, the same act of the environment leads to what
looks alike. -/
theorem Phase.Alike.step {a a' : Phase} (ha : Phase.Alike p scope a a') (hidx : Indexed h.registry)
    (hidx' : Indexed h'.registry) (hm : a.step req closed h id act = some m)
    (hm' : a'.step req closed' h' id' act = some m') : Move.Alike p scope id id' m m' := by
  cases ha with
  | start => exact start_alike hs hm hm'
  | resume c => exact resume_alike hs hc hc' hm hm'
  | snapshot => exact snapshot_alike hs hc hc' hm hm'
  | snapshotBegin hts => exact sending_alike hs rfl (.reading hts) .unregister hm hm'
  | reading hts =>
    cases act with
    | run => simp only [Phase.step, reduceCtorEq] at hm
    | fail err => simp only [Phase.step, reduceCtorEq] at hm
    | choose case => simp only [Phase.step, reduceCtorEq] at hm
    | rows rs =>
      cases hm
      cases hm'
      exact ⟨hs, .reading hts, rfl⟩
    | read result =>
      cases result with
      | ok snap =>
        cases hm
        cases hm'
        exact ⟨hs, .overflowCheck hts snap, rfl⟩
      | error err =>
        simp only [Phase.step] at hm hm'
        split at hm
        · next hclosed =>
          rw [if_pos hclosed] at hm'
          cases hm
          cases hm'
          exact ⟨hs, .resync _, rfl⟩
        · next hclosed =>
          rw [if_neg hclosed] at hm'
          split at hm
          · next hstopped =>
            rw [if_pos hstopped] at hm'
            cases hm
            cases hm'
            exact ⟨hs, .resync _, rfl⟩
          · next hstopped =>
            rw [if_neg hstopped] at hm'
            cases hm
            cases hm'
            exact ⟨hs, .unregister _, rfl⟩
  | overflowCheck hts snap =>
    have hover : (h.registry.cell id).overflow = (h'.registry.cell id').overflow :=
      congrArg (fun s => s.watcher.overflow) hs
    have hreason : (h.registry.cell id).reason = (h'.registry.cell id').reason :=
      congrArg (fun s => s.watcher.reason) hs
    cases act <;> simp only [Phase.step, hover, hreason, reduceCtorEq] at hm hm'
    split at hm
    · next hov =>
      rw [if_pos hov] at hm'
      cases hm
      cases hm'
      exact ⟨hs, .resync _, rfl⟩
    · next hov =>
      rw [if_neg hov] at hm'
      cases hm
      cases hm'
      exact ⟨hs, .clearStale hts snap, rfl⟩
  | clearStale hts snap => exact clearStale_alike hs hc hc' hts hm hm'
  | recordSnapshot batches snap =>
    cases act <;> simp only [Phase.step, reduceCtorEq] at hm hm'
    cases hm
    cases hm'
    refine ⟨?_, .snapshotEnd _ _, rfl⟩
    simp only [Hub.sight_record, hs]
  | snapshotEnd batches snap => exact sending_alike hs rfl (.backlog _ _) .unregister hm hm'
  | backlog batches args =>
    cases batches with
    | nil =>
      cases act <;> simp only [Phase.step, reduceCtorEq] at hm hm'
      cases hm
      cases hm'
      exact ⟨hs, .position _ _, rfl⟩
    | cons b batches => exact sending_alike hs rfl (.backlog _ _) .unregister hm hm'
  | position args round =>
    have hreceived : h.window.received = h'.window.received :=
      congrArg (fun s => s.window.received) hs
    cases act <;> simp only [Phase.step, Hub.position, hreceived, reduceCtorEq] at hm hm'
    cases hm
    cases hm'
    exact ⟨hs, .drain _ _ _ _ _, rfl⟩
  | drain args round pos tick tick' => exact drain_alike hs hm hm'
  | deliver args round pos tick tick' hitem =>
    obtain ⟨hbatch, hcursor, -⟩ := Queued.batch_seen hitem
    refine sending_alike hs hbatch ?_ .unregister hm hm'
    rw [hcursor]
    exact .drain _ _ _ _ _
  | progress args round pos tick tick' =>
    simp only [Phase.step] at hm hm'
    split at hm
    · next hdue =>
      rw [if_pos hdue] at hm'
      exact sending_alike hs rfl (.select _ _ _ _) .unregister hm hm'
    · next hdue =>
      rw [if_neg hdue] at hm'
      cases act <;> simp only [reduceCtorEq] at hm hm'
      cases hm
      cases hm'
      exact ⟨hs, .select _ _ _ _, rfl⟩
  | select args progressed tick tick' => exact select_alike hs hm hm'
  | resync reason => exact sending_alike hs rfl (.unregister _) .unregister hm hm'
  | refuse reason => exact sending_alike hs rfl (.returned _) .returned hm hm'
  | unregister result =>
    cases act <;> simp only [Phase.step, reduceCtorEq] at hm hm'
    cases hm
    cases hm'
    refine ⟨?_, .returned _, rfl⟩
    simp only [Hub.sight_unregister hidx, Hub.sight_unregister hidx', hs]
  | returned result => cases act <;> simp only [Phase.step, reduceCtorEq] at hm

end Own

end Watchd.Watch
