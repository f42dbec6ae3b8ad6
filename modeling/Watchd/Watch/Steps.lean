import Watchd.Watch.System

/-!
# What a step can do

`Moves` lists the outcomes of one step of a Watch call, with what the code has
checked on the way; `Phase.step_moves` says that there are no others.  Steps that
only give up are collected in a few constructors.  Every invariant of a watch is
proved by cases on `Moves`.
-/

namespace Watchd.Watch

open Watchd.Cdc Watchd.Lib

/-- The phases between registration and the deferred `unregister`. -/
def Phase.registered : Phase → Bool
  | .start | .resume _ | .snapshot | .refuse _ | .returned _ => false
  | _ => true

/-- The phases of a registered Watch call that is about to return. -/
def Phase.leaving : Phase → Bool
  | .resync _ | .unregister _ => true
  | _ => false

/-- The hub after watcher `id` took the head off its queue. -/
def Hub.pop (h : Hub) (id : WatcherId) (queue : List Queued) : Hub :=
  { h with registry := h.registry.setCell id { h.registry.cell id with queue := queue } }

/-- The hub with one more watcher registered. -/
def Hub.register (h : Hub) (id : WatcherId) : Hub :=
  { h with registry := h.registry.registerLocked id }

/-- Every step a watch can take. -/
inductive Moves (h : Hub) (id : WatcherId) : Phase → Move → Prop
  | parsed (cursor : Cursor) (hsrc : cursor.sourceID = h.sourceID) :
    Moves h id .start ⟨h, .resume cursor, none⟩
  | scratch : Moves h id .start ⟨h, .snapshot, none⟩
  /-- refused, or an error before registration -/
  | turnedAway (p p' : Phase) (hp : p = .start ∨ ∃ cursor, p = .resume cursor)
      (hp' : (∃ reason, p' = .refuse reason) ∨ ∃ err, p' = .returned err) :
    Moves h id p ⟨h, p', none⟩
  | resumed (cursor : Cursor) (batches : List Batch)
      (hfloor : h.window.replayableLocked cursor = true)
      (hbatches : (h.registry.cell id).backlog (.after cursor) h.window.ring = .ok batches) :
    Moves h id (.resume cursor)
      ⟨h.register id, .backlog batches ⟨cursor, true, .after cursor⟩, none⟩
  | registered :
    Moves h id .snapshot
      ⟨h.register id, .snapshotBegin (h.window.ring.filter fun t =>
        ((h.registry.cell id).changesOf t).length > 0), none⟩
  | begun (streamed : List Transaction) :
    Moves h id (.snapshotBegin streamed) ⟨h, .reading streamed, some .snapshotBegin⟩
  | rows (streamed : List Transaction) (rows : List Row) :
    Moves h id (.reading streamed) ⟨h, .reading streamed, some (.snapshotRows rows)⟩
  | read (streamed : List Transaction) (snap : Snapshot) :
    Moves h id (.reading streamed) ⟨h, .overflowCheck streamed snap, none⟩
  | installs (streamed : List Transaction) (snap : Snapshot)
      (hover : (h.registry.cell id).overflow = false) :
    Moves h id (.overflowCheck streamed snap) ⟨h, .clearStale streamed snap, none⟩
  | cleared (streamed : List Transaction) (snap : Snapshot) (stale : Finset String)
      (batches : List Batch)
      (hbatches : (h.registry.cell id).backlog (.notCovered snap) streamed = .ok batches) :
    Moves h id (.clearStale streamed snap)
      ⟨{ h with stale := stale }, .recordSnapshot batches snap, none⟩
  | recorded (batches : List Batch) (snap : Snapshot) :
    Moves h id (.recordSnapshot batches snap)
      ⟨{ h with window := h.window.recordSnapshotLocked snap.cursor },
        .snapshotEnd batches snap, none⟩
  | installed (batches : List Batch) (snap : Snapshot) :
    Moves h id (.snapshotEnd batches snap)
      ⟨h, .backlog batches ⟨snap.cursor, false, .notCovered snap⟩, some .snapshotEnd⟩
  | caughtUp (args : LiveArgs) :
    Moves h id (.backlog [] args) ⟨h, .position args ⟨true, .zero⟩, none⟩
  | replayed (b : Batch) (batches : List Batch) (args : LiveArgs) :
    Moves h id (.backlog (b :: batches) args) ⟨h, .backlog batches args, some (.batch b)⟩
  | positioned (args : LiveArgs) (round : Round) :
    Moves h id (.position args round)
      ⟨{ h with tickTaken := true }, .drain args round (args.startAt h.window.received) h.tick,
        none⟩
  | drained (args : LiveArgs) (round : Round) (pos : Cursor) (tick : TickId)
      (hqueue : (h.registry.cell id).queue = []) :
    Moves h id (.drain args round pos tick) ⟨h, .progress args round pos tick, none⟩
  | received (args : LiveArgs) (round : Round) (pos : Cursor) (tick : TickId) (item : Queued)
      (queue : List Queued) (hqueue : (h.registry.cell id).queue = item :: queue)
      (hneed : args.need.apply item.transaction = .ok true) :
    Moves h id (.drain args round pos tick)
      ⟨h.pop id queue, .deliver args round pos tick item, none⟩
  | skipped (args : LiveArgs) (round : Round) (pos : Cursor) (tick : TickId) (item : Queued)
      (queue : List Queued) (hqueue : (h.registry.cell id).queue = item :: queue)
      (hneed : args.need.apply item.transaction = .ok false) :
    Moves h id (.drain args round pos tick)
      ⟨h.pop id queue, .drain args round (raise item.transaction.cursor pos) tick, none⟩
  | delivered (args : LiveArgs) (round : Round) (pos : Cursor) (tick : TickId) (item : Queued) :
    Moves h id (.deliver args round pos tick item)
      ⟨h, .drain args round (raise item.transaction.cursor pos) tick, some (.batch item.batch)⟩
  | progressed (args : LiveArgs) (round : Round) (pos : Cursor) (tick : TickId)
      (hdue : round.first = true ∨ later pos round.progressed = true) :
    Moves h id (.progress args round pos tick) ⟨h, .select args pos tick, some (.progress pos)⟩
  | unchanged (args : LiveArgs) (round : Round) (pos : Cursor) (tick : TickId) :
    Moves h id (.progress args round pos tick) ⟨h, .select args round.progressed tick, none⟩
  | woken (args : LiveArgs) (progressed : Cursor) (tick : TickId) :
    Moves h id (.select args progressed tick) ⟨h, .position args ⟨false, progressed⟩, none⟩
  /-- a registered watch gives up; `h'` differs from the hub at most in `stale` and the queue -/
  | leaves (p p' : Phase) (stale : Finset String) (hp : p.registered = true)
      (hp' : p'.leaving = true) : Moves h id p ⟨{ h with stale := stale }, p', none⟩
  | incomparable (args : LiveArgs) (round : Round) (pos : Cursor) (tick : TickId) (item : Queued)
      (queue : List Queued) (hqueue : (h.registry.cell id).queue = item :: queue)
      (err : GoError) :
    Moves h id (.drain args round pos tick) ⟨h.pop id queue, .unregister (some err), none⟩
  | resynced (reason : ResyncReason) :
    Moves h id (.resync reason) ⟨h, .unregister none, some (.resync reason)⟩
  | refused (reason : ResyncReason) :
    Moves h id (.refuse reason) ⟨h, .returned none, some (.resync reason)⟩
  | refusalFailed (reason : ResyncReason) (err : GoError) :
    Moves h id (.refuse reason) ⟨h, .returned (some err), none⟩
  | unregistered (result : Option GoError) :
    Moves h id (.unregister result)
      ⟨{ h with registry := h.registry.unregister id }, .returned result, none⟩

namespace Moves

variable {h : Hub} {id : WatcherId}

/-- Giving up without touching the hub. -/
theorem leave {p p' : Phase} (hp : p.registered = true) (hp' : p'.leaving = true) :
    Moves h id p ⟨h, p', none⟩ :=
  .leaves p p' h.stale hp hp'

theorem of_sending {event : Event} {p next : Phase} {failed : Option GoError → Phase} {act : Act}
    {m : Move} (hm : sending h event next failed act = some m)
    (hsent : Moves h id p ⟨h, next, some event⟩)
    (hfailed : ∀ err, Moves h id p ⟨h, failed (some err), none⟩) : Moves h id p m := by
  cases act with
  | run =>
    cases hm
    exact hsent
  | fail err =>
    cases hm
    exact hfailed err
  | rows rs => cases hm
  | read result => cases hm
  | choose case => cases hm

end Moves

/-! ## Inversion -/

section Inversion

variable {req : Request} {closed : TickId → Bool} {h : Hub} {id : WatcherId} {act : Act} {m : Move}

-- each phase below is one equation of `step`
attribute [local simp] Phase.step

theorem start_moves (hm : Phase.step req closed h id .start act = some m) :
    Moves h id .start m := by
  cases act <;> simp only [Phase.step, reduceCtorEq] at hm
  split at hm
  · cases hm
    exact .turnedAway _ _ (.inl rfl) (.inl ⟨_, rfl⟩)
  · split at hm
    · split at hm
      · next cursor hparse =>
        cases hm
        exact .parsed cursor (parseCursor_sourceID hparse)
      · cases hm
        exact .turnedAway _ _ (.inl rfl) (.inr ⟨_, rfl⟩)
    · cases hm
      exact .scratch

theorem resume_moves {cursor : Cursor}
    (hm : Phase.step req closed h id (.resume cursor) act = some m) :
    Moves h id (.resume cursor) m := by
  have hp : Phase.resume cursor = .start ∨ ∃ c, Phase.resume cursor = .resume c := .inr ⟨_, rfl⟩
  cases act <;> simp only [Phase.step, reduceCtorEq] at hm
  split at hm
  · cases hm
    exact .turnedAway _ _ hp (.inl ⟨_, rfl⟩)
  · split at hm
    · cases hm
      exact .turnedAway _ _ hp (.inl ⟨_, rfl⟩)
    · next hfloor =>
      split at hm
      · cases hm
        exact .turnedAway _ _ hp (.inr ⟨_, rfl⟩)
      · next batches hbatches =>
        cases hm
        exact .resumed cursor batches (by simpa using hfloor) hbatches

theorem reading_moves {streamed : List Transaction}
    (hm : Phase.step req closed h id (.reading streamed) act = some m) :
    Moves h id (.reading streamed) m := by
  cases act with
  | run => simp only [Phase.step, reduceCtorEq] at hm
  | fail err => simp only [Phase.step, reduceCtorEq] at hm
  | choose case => simp only [Phase.step, reduceCtorEq] at hm
  | rows rs =>
    simp only [Phase.step] at hm
    cases hm
    exact .rows streamed rs
  | read result =>
    cases result with
    | ok snap =>
      simp only [Phase.step] at hm
      cases hm
      exact .read streamed snap
    | error err =>
      simp only [Phase.step] at hm
      split at hm
      · cases hm
        exact .leave rfl rfl
      · split at hm
        · cases hm
          exact .leave rfl rfl
        · cases hm
          exact .leave rfl rfl

theorem overflowCheck_moves {streamed : List Transaction} {snap : Snapshot}
    (hm : Phase.step req closed h id (.overflowCheck streamed snap) act = some m) :
    Moves h id (.overflowCheck streamed snap) m := by
  cases act <;> simp only [Phase.step, reduceCtorEq] at hm
  split at hm
  · cases hm
    exact .leave rfl rfl
  · next hover =>
    cases hm
    exact .installs streamed snap (by simpa using hover)

theorem clearStale_moves {streamed : List Transaction} {snap : Snapshot}
    (hm : Phase.step req closed h id (.clearStale streamed snap) act = some m) :
    Moves h id (.clearStale streamed snap) m := by
  cases act <;> simp only [Phase.step, reduceCtorEq] at hm
  split at hm
  · cases hm
    exact .leaves _ _ _ rfl rfl
  · next batches hbatches =>
    cases hm
    exact .cleared streamed snap _ batches hbatches

theorem backlog_moves {batches : List Batch} {args : LiveArgs}
    (hm : Phase.step req closed h id (.backlog batches args) act = some m) :
    Moves h id (.backlog batches args) m := by
  cases batches with
  | nil =>
    cases act <;> simp only [Phase.step, reduceCtorEq] at hm
    cases hm
    exact .caughtUp args
  | cons b batches => exact .of_sending hm (.replayed b batches args) fun err => .leave rfl rfl

theorem drain_moves {args : LiveArgs} {round : Round} {pos : Cursor} {tick : TickId}
    (hm : Phase.step req closed h id (.drain args round pos tick) act = some m) :
    Moves h id (.drain args round pos tick) m := by
  cases act <;> simp only [Phase.step, reduceCtorEq] at hm
  split at hm
  · next hqueue =>
    cases hm
    exact .drained args round pos tick hqueue
  · next item queue hqueue =>
    split at hm
    · cases hm
      exact .incomparable args round pos tick item queue hqueue _
    · next hneed =>
      cases hm
      exact .received args round pos tick item queue hqueue hneed
    · next hneed =>
      cases hm
      exact .skipped args round pos tick item queue hqueue hneed

theorem progress_moves {args : LiveArgs} {round : Round} {pos : Cursor} {tick : TickId}
    (hm : Phase.step req closed h id (.progress args round pos tick) act = some m) :
    Moves h id (.progress args round pos tick) m := by
  simp only [Phase.step] at hm
  split at hm
  · next hdue =>
    exact .of_sending hm (.progressed args round pos tick (by simpa using hdue))
      fun err => .leave rfl rfl
  · cases act <;> simp only [reduceCtorEq] at hm
    cases hm
    exact .unchanged args round pos tick

theorem select_moves {args : LiveArgs} {progressed : Cursor} {tick : TickId}
    (hm : Phase.step req closed h id (.select args progressed tick) act = some m) :
    Moves h id (.select args progressed tick) m := by
  cases act <;> simp only [Phase.step, reduceCtorEq] at hm
  split at hm
  · cases hm
    exact .leave rfl rfl
  · split at hm
    · cases hm
      exact .leave rfl rfl
    · cases hm
  · split at hm
    · cases hm
      exact .leave rfl rfl
    · cases hm
  · split at hm
    · cases hm
      exact .woken args progressed tick
    · cases hm

/-- **Inversion**: every step of a Watch call is one of the listed moves. -/
theorem Phase.step_moves {p : Phase} (hm : p.step req closed h id act = some m) :
    Moves h id p m := by
  cases p with
  | start => exact start_moves hm
  | resume cursor => exact resume_moves hm
  | snapshot =>
    cases act <;> simp only [Phase.step, reduceCtorEq] at hm
    cases hm
    exact .registered
  | snapshotBegin streamed => exact .of_sending hm (.begun streamed) fun err => .leave rfl rfl
  | reading streamed => exact reading_moves hm
  | overflowCheck streamed snap => exact overflowCheck_moves hm
  | clearStale streamed snap => exact clearStale_moves hm
  | recordSnapshot batches snap =>
    cases act <;> simp only [Phase.step, reduceCtorEq] at hm
    cases hm
    exact .recorded batches snap
  | snapshotEnd batches snap =>
    exact .of_sending hm (.installed batches snap) fun err => .leave rfl rfl
  | backlog batches args => exact backlog_moves hm
  | position args round =>
    cases act <;> simp only [Phase.step, Hub.position, reduceCtorEq] at hm
    cases hm
    exact .positioned args round
  | drain args round pos tick => exact drain_moves hm
  | deliver args round pos tick item =>
    exact .of_sending hm (.delivered args round pos tick item) fun err => .leave rfl rfl
  | progress args round pos tick => exact progress_moves hm
  | select args progressed tick => exact select_moves hm
  | resync reason => exact .of_sending hm (.resynced reason) fun err => .leave rfl rfl
  | refuse reason => exact .of_sending hm (.refused reason) (.refusalFailed reason)
  | unregister result =>
    cases act <;> simp only [Phase.step, reduceCtorEq] at hm
    cases hm
    exact .unregistered result
  | returned result => cases act <;> simp only [Phase.step, reduceCtorEq] at hm

end Inversion

end Watchd.Watch
