import Watchd.Watch.Progress

/-!
# Progress is not contradicted by a later Batch

A Progress claims its position from one of three places: a transaction the hub
has accepted, the watch's own resume cursor, or, while the hub has received
nothing, the snapshot's cursor.  The first two are never contradicted.  The third
is, by a transaction before the snapshot's cursor that the snapshot does not see
and that reaches the hub later.

`progress_kept` is about the runs without such a transaction, and
`progress_contradicted` a run with one.
-/

namespace Watchd.Watch

open Watchd.Cdc Watchd.Lib

/-- The snapshot of a watch on the snapshot path. -/
def History.snapshot? (hist : History) : Option Snapshot :=
  match hist.need with
  | some (.notCovered snap) => some snap
  | _ => none

/-- What the hub may accept without contradicting watch `id`: once `live` has read the position
with nothing received, a transaction that the watch wants ends after its snapshot's cursor. -/
def keepsPromise (id : WatcherId) (s : System) : Label → Prop
  | .accept t => t.commitLSN < t.cursor.lsn ∧
    ∀ ws ∈ s.watches[id]?, ∀ snap ∈ ws.history.snapshot?, ws.history.readNothing = true →
      (s.hub.registry.cell id).changesOf t ≠ [] → snap.covers t = .ok false →
      later t.cursor snap.cursor = true
  | _ => True

instance (id : WatcherId) (s : System) : (l : Label) → Decidable (keepsPromise id s l)
  | .accept t => inferInstanceAs (Decidable (t.commitLSN < t.cursor.lsn ∧
      ∀ ws ∈ s.watches[id]?, ∀ snap ∈ ws.history.snapshot?, ws.history.readNothing = true →
        (s.hub.registry.cell id).changesOf t ≠ [] → snap.covers t = .ok false →
        later t.cursor snap.cursor = true))
  | .close _ | .stop | .open_ _ | .watch _ _ => .isTrue trivial

/-- No Batch contradicts a Progress sent before it. -/
def Kept (sent : List Event) : Prop :=
  sent.Pairwise fun e e' => ∀ c b, e = .progress c → e' = .batch b → later b.cursor c = true

/-- The places a claimed position comes from. -/
def Promised (accepted : List Transaction) (hist : History) (c : Cursor) : Prop :=
  (∃ t ∈ accepted, c = t.cursor) ∨ hist.need = some (.after c) ∨
    (hist.readNothing = true ∧ ∃ snap, hist.need = some (.notCovered snap) ∧ c = snap.cursor)

/-- The phases before `live`. -/
def Phase.early : Phase → Bool
  | .start | .resume _ | .snapshot | .snapshotBegin _ | .reading _ | .overflowCheck _ _
  | .clearStale _ _ | .recordSnapshot _ _ | .snapshotEnd _ _ | .backlog _ _ => true
  | _ => false

/-- The phases about to send a Progress or a Batch from the queue. -/
def Phase.claiming : Phase → Bool
  | .deliver _ _ _ _ _ | .progress _ _ _ _ => true
  | _ => false

/-- The positions claimed, or about to be claimed. -/
def Claimed (sent : List Event) (p : Phase) (c : Cursor) : Prop :=
  .progress c ∈ sent ∨ ∃ args round tick, p = .progress args round c tick

/-- Every position told so far is kept to, and nothing queued is behind it. -/
structure PromiseOk (w : Watcher) (accepted : List Transaction) (hist : History)
    (sent : List Event) (p : Phase) : Prop where
  kept : Kept sent
  early : p.early = true → ∀ c, .progress c ∉ sent
  promised : ∀ c, Claimed sent p c → Promised accepted hist c
  queue : ∀ c, Claimed sent p c → ∀ item ∈ w.queue, ∀ need, hist.need = some need →
    need.apply item.transaction = .ok true → later item.transaction.cursor c = true
  deliver : ∀ args round pos tick item, p = .deliver args round pos tick item →
    ∀ c, .progress c ∈ sent → later item.transaction.cursor c = true

/-! ## Steps -/

section Steps

variable {w : Watcher} {accepted : List Transaction} {hist hist' : History} {sent : List Event}
  {p p' : Phase}

theorem Kept.append {e : Event} (h : Kept sent)
    (he : ∀ b, e = .batch b → ∀ c, .progress c ∈ sent → later b.cursor c = true) :
    Kept (sent ++ [e]) := by
  unfold Kept
  rw [List.pairwise_append]
  refine ⟨h, List.pairwise_singleton _ _, ?_⟩
  intro a ha e' he' c b hc hb
  rw [List.mem_singleton] at he'
  subst he'
  subst hc
  exact he b hb c ha

/-- An event that is neither a Progress nor a Batch. -/
def Event.silent : Event → Bool
  | .progress _ | .batch _ => false
  | _ => true

theorem Kept.silent {e : Option Event} (h : Kept sent) (he : e.all Event.silent = true) :
    Kept (sent ++ e.toList) := by
  cases e with
  | none => simpa using h
  | some x =>
    refine h.append ?_
    rintro b rfl
    cases he

theorem mem_silent {e : Option Event} (he : e.all Event.silent = true) {c : Cursor}
    (h : Event.progress c ∈ sent ++ e.toList) : Event.progress c ∈ sent := by
  rcases List.mem_append.1 h with h | h
  · exact h
  · rw [Option.mem_toList] at h
    cases h
    cases he

theorem Promised.mono {accepted' : List Transaction} {c : Cursor} (h : Promised accepted hist c)
    (hacc : accepted ⊆ accepted') (hneed : hist'.need = hist.need)
    (hnothing : hist.readNothing = true → hist'.readNothing = true) :
    Promised accepted' hist' c := by
  unfold Promised
  rw [hneed]
  rcases h with ⟨t, ht, hc⟩ | hafter | ⟨hn, hsnap⟩
  · exact .inl ⟨t, hacc ht, hc⟩
  · exact .inr (.inl hafter)
  · exact .inr (.inr ⟨hnothing hn, hsnap⟩)

theorem Claimed.mem {c : Cursor} (h : Claimed sent p c)
    (hp : ∀ args round tick, p ≠ .progress args round c tick) : .progress c ∈ sent := by
  rcases h with h | ⟨args, round, tick, heq⟩
  · exact h
  · exact absurd heq (hp args round tick)

theorem mem_of_mem_batch {b : Batch} {c : Cursor} (h : Event.progress c ∈ sent ++ [.batch b]) :
    Event.progress c ∈ sent := by
  rcases List.mem_append.1 h with h | h
  · exact h
  · cases List.mem_singleton.1 h

/-- The backlog is sent before any Progress. -/
theorem PromiseOk.replays (h : PromiseOk w accepted hist sent p) (hp : p.early = true) (b : Batch)
    (batches : List Batch) (args : LiveArgs) :
    PromiseOk w accepted hist (sent ++ [.batch b]) (.backlog batches args) := by
  have hnone : ∀ c, .progress c ∉ sent ++ [Event.batch b] := fun c hc =>
    h.early hp c (mem_of_mem_batch hc)
  have hclaim : ∀ c, ¬Claimed (sent ++ [Event.batch b]) (.backlog batches args) c := fun c hc =>
    hnone c (hc.mem nofun)
  exact ⟨h.kept.append fun _ _ c hc => absurd hc (h.early hp c), fun _ => hnone,
    fun c hc => absurd hc (hclaim c), fun c hc => absurd hc (hclaim c), nofun⟩

/-- With the queue empty the round's position may be claimed. -/
theorem PromiseOk.drains {args : LiveArgs} {round : Round} {pos : Cursor} {tick : TickId}
    (h : PromiseOk w accepted hist sent (.drain args round pos tick)) (hqueue : w.queue = [])
    (hpos : Promised accepted hist pos) :
    PromiseOk w accepted hist sent (.progress args round pos tick) := by
  refine ⟨h.kept, nofun, ?_, ?_, nofun⟩
  · rintro c (hc | ⟨_, _, _, hp⟩)
    · exact h.promised c (.inl hc)
    · cases hp
      exact hpos
  · intro c _ item hitem
    rw [hqueue] at hitem
    cases hitem

/-- An item taken off the queue that is needed ends after what was claimed. -/
theorem PromiseOk.receives {args : LiveArgs} {round : Round} {pos : Cursor} {tick : TickId}
    {item : Queued} {queue : List Queued}
    (h : PromiseOk w accepted hist sent (.drain args round pos tick))
    (hqueue : w.queue = item :: queue) (hneed : hist.need = some args.need)
    (happly : args.need.apply item.transaction = .ok true) :
    PromiseOk { w with queue := queue } accepted hist sent
      (.deliver args round pos tick item) := by
  have hclaim : ∀ c, Claimed sent (.deliver args round pos tick item) c →
      Claimed sent (.drain args round pos tick) c := fun c hc => .inl (hc.mem nofun)
  refine ⟨h.kept, nofun, fun c hc => h.promised c (hclaim c hc), ?_, ?_⟩
  · intro c hc item' hitem'
    exact h.queue c (hclaim c hc) item' (by rw [hqueue]; exact List.mem_cons_of_mem _ hitem')
  · intro _ _ _ _ _ hp c hc
    cases hp
    exact h.queue c (.inl hc) item (by rw [hqueue]; exact List.mem_cons_self) _ hneed happly

/-- The item taken off the queue is sent as a Batch. -/
theorem PromiseOk.delivers {args : LiveArgs} {round : Round} {pos : Cursor} {tick : TickId}
    {item : Queued} (h : PromiseOk w accepted hist sent (.deliver args round pos tick item))
    (pos' : Cursor) :
    PromiseOk w accepted hist (sent ++ [.batch item.batch]) (.drain args round pos' tick) := by
  have hclaim : ∀ c, Claimed (sent ++ [Event.batch item.batch]) (.drain args round pos' tick) c →
      Claimed sent (.deliver args round pos tick item) c := fun c hc =>
    .inl (mem_of_mem_batch (hc.mem nofun))
  refine ⟨h.kept.append ?_, nofun, fun c hc => h.promised c (hclaim c hc),
    fun c hc => h.queue c (hclaim c hc), nofun⟩
  rintro b ⟨⟩ c hc
  exact h.deliver _ _ _ _ item rfl c hc

/-- A Progress that is sent was about to be claimed. -/
theorem PromiseOk.progresses {args : LiveArgs} {round : Round} {pos : Cursor} {tick : TickId}
    (h : PromiseOk w accepted hist sent (.progress args round pos tick)) :
    PromiseOk w accepted hist (sent ++ [.progress pos]) (.select args pos tick) := by
  have hclaim : ∀ c, Claimed (sent ++ [Event.progress pos]) (.select args pos tick) c →
      Claimed sent (.progress args round pos tick) c := by
    intro c hc
    rcases List.mem_append.1 (hc.mem nofun) with hmem | hmem
    · exact .inl hmem
    · cases List.mem_singleton.1 hmem
      exact .inr ⟨_, _, _, rfl⟩
  exact ⟨h.kept.append nofun, nofun, fun c hc => h.promised c (hclaim c hc),
    fun c hc => h.queue c (hclaim c hc), nofun⟩

/-- A step that sends neither Progress nor Batch and is not about to. -/
theorem PromiseOk.move {queue : List Queued} {e : Option Event}
    (h : PromiseOk w accepted hist sent p) (he : e.all Event.silent = true)
    (hclaiming : p'.claiming = false)
    (hearly : p'.early = true → p.early = true) (hqueue : queue ⊆ w.queue)
    (hneed : hist'.need = hist.need ∨ p.early = true)
    (hnothing : hist.readNothing = true → hist'.readNothing = true) :
    PromiseOk { w with queue := queue } accepted hist' (sent ++ e.toList) p' := by
  have hclaim : ∀ c, Claimed (sent ++ e.toList) p' c → .progress c ∈ sent := by
    intro c hc
    refine mem_silent he (hc.mem ?_)
    rintro args round tick rfl
    cases hclaiming
  have hneed' : ∀ c, Claimed (sent ++ e.toList) p' c → hist'.need = hist.need := by
    intro c hc
    rcases hneed with hneed | hp
    · exact hneed
    · exact absurd (hclaim c hc) (h.early hp c)
  refine ⟨h.kept.silent he, ?_, ?_, ?_, ?_⟩
  · intro hp c hc
    exact h.early (hearly hp) c (mem_silent he hc)
  · intro c hc
    exact (h.promised c (.inl (hclaim c hc))).mono (fun _ ha => ha) (hneed' c hc) hnothing
  · intro c hc item hitem need hn
    rw [hneed' c hc] at hn
    exact h.queue c (.inl (hclaim c hc)) item (hqueue hitem) need hn
  · intro args round pos tick item hp
    subst hp
    cases hclaiming

/-- A step before `live`, where nothing has been claimed yet. -/
theorem PromiseOk.prepares {e : Option Event} (h : PromiseOk w accepted hist sent p)
    (hp : p.early = true) (he : e.all Event.silent = true) (hclaiming : p'.claiming = false)
    (hnothing : hist.readNothing = true → hist'.readNothing = true) :
    PromiseOk w accepted hist' (sent ++ e.toList) p' :=
  h.move he hclaiming (fun _ => hp) (fun _ hq => hq) (.inr hp) hnothing

/-- A step past the backlog that keeps what the watch needs. -/
theorem PromiseOk.passes {queue : List Queued} {e : Option Event}
    (h : PromiseOk w accepted hist sent p) (he : e.all Event.silent = true)
    (hclaiming : p'.claiming = false) (hearly : p'.early = false) (hqueue : queue ⊆ w.queue)
    (hneed : hist'.need = hist.need)
    (hnothing : hist.readNothing = true → hist'.readNothing = true) :
    PromiseOk { w with queue := queue } accepted hist' (sent ++ e.toList) p' := by
  refine h.move he hclaiming (fun hp => ?_) hqueue (.inl hneed) hnothing
  rw [hearly] at hp
  cases hp

/-- The position a round of `live` is about to claim. -/
theorem PositionOk.promised {args : LiveArgs} {pos : Cursor}
    (h : PositionOk accepted hist args pos) (hended : hist.ended = none)
    (hneed : hist.need = some args.need) : Promised accepted hist pos := by
  have hread : hist.endedAtRead = false := by
    cases hr : hist.endedAtRead with
    | false => rfl
    | true => exact absurd hended (h.ended hr)
  rcases h.origin hread with ⟨hbase, hsafe⟩ | ⟨t, ht, hpos⟩
  · right
    rcases h.fits with ⟨cursor, rfl⟩ | ⟨snap, rfl⟩
    · left
      rw [hneed, hbase]
    · right
      rcases hsafe with hsafe | ⟨-, hnothing⟩
      · cases hsafe
      · exact ⟨hnothing, snap, hneed, hbase⟩
  · exact .inl ⟨t, List.mem_of_mem_take ht, hpos⟩

end Steps

theorem PromiseOk.moves {s : System} {id : WatcherId} {p : Phase} {m : Move} {hist : History}
    {sent : List Event} (hm : Moves s.hub id p m) (hended : hist.ended = none)
    (hhand : Handoff (s.hub.registry.cell id) hist.need hist.ring (hist.since s.accepted)
      (batchesOf sent) p)
    (hround : RoundOk (s.hub.registry.cell id) s.accepted hist (batchesOf sent) p)
    (h : PromiseOk (s.hub.registry.cell id) s.accepted hist sent p) :
    PromiseOk (m.hub.registry.cell id) s.accepted (hist.note s id p m.phase)
      (sent ++ m.sent.toList) m.phase := by
  have hall : (s.hub.registry.cell id).queue ⊆ (s.hub.registry.cell id).queue := fun _ hq => hq
  cases hm with
  | parsed cursor hsrc => exact h.prepares rfl rfl rfl fun hn => hn
  | scratch => exact h.prepares rfl rfl rfl fun hn => hn
  | turnedAway p p' hp hp' =>
    rw [History.note_of_turnedAway hp']
    rcases hp' with ⟨reason, rfl⟩ | ⟨err, rfl⟩
    · exact h.passes rfl rfl rfl hall rfl fun hn => hn
    · exact h.passes rfl rfl rfl hall rfl fun hn => hn
  | resumed cursor batches hfloor hbatches =>
    rw [Hub.register_cell]
    exact h.prepares rfl rfl rfl fun hn => hn
  | registered =>
    rw [Hub.register_cell]
    exact h.prepares rfl rfl rfl fun hn => hn
  | begun streamed => exact h.prepares rfl rfl rfl fun hn => hn
  | rows streamed rows => exact h.prepares rfl rfl rfl fun hn => hn
  | read streamed snap => exact h.prepares rfl rfl rfl fun hn => hn
  | installs streamed snap hover => exact h.prepares rfl rfl rfl fun hn => hn
  | cleared streamed snap stale batches hbatches => exact h.prepares rfl rfl rfl fun hn => hn
  | recorded batches snap => exact h.prepares rfl rfl rfl fun hn => hn
  | installed batches snap => exact h.prepares rfl rfl rfl fun hn => hn
  | caughtUp args => exact h.prepares rfl rfl rfl fun hn => hn
  | replayed b batches args => exact h.replays rfl b batches args
  | positioned args round =>
    refine h.passes rfl rfl rfl hall rfl ?_
    intro hn
    simp [History.note, hn]
  | drained args round pos tick hqueue =>
    rw [Option.toList_none, List.append_nil]
    exact h.drains hqueue (hround.promised hended hhand.need_eq)
  | received args round pos tick item queue hqueue hneed =>
    rw [Option.toList_none, List.append_nil, Hub.pop_cell_self]
    exact h.receives hqueue hhand.need_eq hneed
  | skipped args round pos tick item queue hqueue hneed =>
    rw [Hub.pop_cell_self]
    exact h.passes rfl rfl rfl (by rw [hqueue]; exact List.subset_cons_self _ _) rfl fun hn => hn
  | delivered args round pos tick item => exact h.delivers _
  | progressed args round pos tick hdue => exact h.progresses
  | unchanged args round pos tick => exact h.passes rfl rfl rfl hall rfl fun hn => hn
  | woken args progressed tick => exact h.passes rfl rfl rfl hall rfl fun hn => hn
  | leaves p p' stale hp hp' =>
    rw [History.note_of_leaving hp']
    have hclaiming : p'.claiming = false := by cases p' <;> first | rfl | cases hp'
    have hearly : p'.early = false := by cases p' <;> first | rfl | cases hp'
    exact h.passes rfl hclaiming hearly hall rfl fun hn => hn
  | incomparable args round pos tick item queue hqueue err =>
    rw [Hub.pop_cell_self]
    exact h.passes rfl rfl rfl (by rw [hqueue]; exact List.subset_cons_self _ _) rfl fun hn => hn
  | resynced reason => exact h.passes rfl rfl rfl hall rfl fun hn => hn
  | refused reason => exact h.passes rfl rfl rfl hall rfl fun hn => hn
  | refusalFailed reason err => exact h.passes rfl rfl rfl hall rfl fun hn => hn
  | unregistered result =>
    simp only [Registry.unregister, Registry.removeLocked_cell]
    exact h.passes rfl rfl rfl hall rfl fun hn => hn

/-! ## Accepting a transaction -/

section Accept

variable {w : Watcher} {accepted : List Transaction} {hist : History} {sent : List Event}
  {p : Phase} {t : Transaction}

theorem PromiseOk.grow (t : Transaction) (h : PromiseOk w accepted hist sent p) :
    PromiseOk w (accepted ++ [t]) hist sent p :=
  ⟨h.kept, h.early, fun c hc => (h.promised c hc).mono (List.subset_append_left _ _) rfl id,
    h.queue, h.deliver⟩

/-- A new transaction the watch needs ends after every position promised. -/
theorem Promised.later_of_needed {c : Cursor} {need : Need} (h : Promised accepted hist c)
    (hbefore : ∀ a ∈ accepted, Before a t) (hcommit : t.commitLSN < t.cursor.lsn)
    (hsnap : ∀ snap ∈ hist.snapshot?, hist.readNothing = true → snap.covers t = .ok false →
      later t.cursor snap.cursor = true)
    (hneed : hist.need = some need) (hneeded : need.apply t = .ok true) :
    later t.cursor c = true := by
  rcases h with ⟨a, ha, rfl⟩ | hafter | ⟨hnothing, snap, hcov, rfl⟩
  · exact hbefore a ha
  · rw [hneed] at hafter
    cases hafter
    obtain ⟨hsrc, hle⟩ := Transaction.after_eq_true_iff.1 hneeded
    exact later_iff.2 ⟨hsrc, by omega⟩
  · rw [hneed] at hcov
    cases hcov
    refine hsnap snap (by simp [History.snapshot?, hneed]) hnothing ?_
    simp only [Need.apply] at hneeded
    cases hc : snap.covers t with
    | error err => simp [hc, Except.map] at hneeded
    | ok covered => cases covered <;> simp_all [Except.map]

theorem PromiseOk.queued {memo : Option MemoId} (h : PromiseOk w accepted hist sent p)
    (hlater : ∀ c, Promised accepted hist c → ∀ need, hist.need = some need →
      need.apply t = .ok true → later t.cursor c = true) :
    PromiseOk { w with queue := w.queue ++ [⟨t, w.changesOf t, memo⟩] } (accepted ++ [t]) hist
      sent p := by
  have hgrow := h.grow t
  refine ⟨hgrow.kept, hgrow.early, hgrow.promised, ?_, hgrow.deliver⟩
  intro c hc item hitem need hneed hneeded
  rcases List.mem_append.1 hitem with hitem | hitem
  · exact h.queue c hc item hitem need hneed hneeded
  · rw [List.mem_singleton] at hitem
    subst hitem
    exact hlater c (h.promised c hc) need hneed hneeded

end Accept

/-! ## Every run -/

theorem Reaches.promiseOk {id : WatcherId} {s : System}
    (h : Reaches machine (keepsPromise id) s) {ws : WatchState}
    (hws : s.watches[id]? = some ws) (hended : ws.history.ended = none) :
    PromiseOk (s.hub.registry.cell id) s.accepted ws.history ws.sent ws.phase := by
  refine Reaches.watch_rule (P := fun id' c accepted ws => id' = id → ws.history.ended = none →
    PromiseOk c accepted ws.history ws.sent ws.phase) ?_ ?_ ?_ h id ws hws rfl hended
  · rintro id' c accepted req p hqueue hp - -
    have hclaim : ∀ cur, ¬Claimed [] p cur := by
      rintro cur (hc | ⟨_, _, _, rfl⟩)
      · cases hc
      · rcases hp with hp | ⟨err, hp⟩ <;> cases hp
    refine ⟨List.Pairwise.nil, fun _ _ => nofun, fun cur hc => absurd hc (hclaim cur),
      fun cur hc => absurd hc (hclaim cur), fun _ _ _ _ _ _ _ => nofun⟩
  · rintro s t id' ws hreach ⟨hcommit, hguard⟩ hnew hget hP rfl hended
    have hinv := Reaches.inv hreach
    obtain ⟨evicted, hacc, hret⟩ := hinv.retains
    have hbefore := hret.before_of_isNew hnew
    rw [← hacc] at hbefore
    obtain ⟨-, -, hout, hin⟩ := Hub.acceptNew_outcome hinv.indexed hinv.scratch t
    unfold WatchState.noteAccept at hended ⊢
    split at hended
    · cases hended
    · next hstay =>
      rw [if_neg hstay]
      have hok := hP rfl hended
      by_cases hreg : id' ∈ s.hub.registry.watchers
      · have hreg' : id' ∈ (s.hub.acceptNew t).registry.watchers := by
          by_contra hn
          exact hstay ⟨hreg, hn⟩
        have ho := hin id' hreg
        have hview : (s.hub.acceptNew t).registry.view id' =
            ((s.hub.acceptNew t).registry.cell id', true) := by
          simp [Registry.view, hreg']
        rw [hview] at ho
        generalize (s.hub.acceptNew t).registry.cell id' = c' at ho ⊢
        cases ho with
        | unconcerned hrep hc => exact hok.grow t
        | queued hrep hc hroom memo =>
          refine hok.queued fun c hprom need hneed hneeded => ?_
          refine hprom.later_of_needed hbefore hcommit ?_ hneed hneeded
          intro snap hsnap hnothing hcov
          exact hguard ws hget snap hsnap hnothing hc hcov
      · rw [(Registry.view_eq.1 (hout id' hreg)).1]
        exact hok.grow t
  · rintro s id' ws m hreach hget hm hP rfl hended
    have hold : ws.history.ended = none := (History.note_ended ..).symm.trans hended
    exact (hP rfl hold).moves hm hold ((Reaches.inv hreach).watch id' ws hget).handoff
      (Reaches.roundOk hreach id' ws hget)

/-- **Progress is not contradicted.**  In every run in which a transaction that the watch wants, and
that is accepted after `live` read the position with nothing received, ends after the snapshot's
cursor: no Batch sent after a Progress ends at or before it. -/
theorem progress_kept {id : WatcherId} {s : System} (h : Reaches machine (keepsPromise id) s)
    {ws : WatchState} (hws : s.watches[id]? = some ws) (hended : ws.history.ended = none) :
    ws.sent.Pairwise fun e e' =>
      ∀ c b, e = .progress c → e' = .batch b → later b.cursor c = true :=
  (Reaches.promiseOk h hws hended).kept

/-- The hub has received nothing when the watch claims its snapshot's cursor, 500.  Then a
transaction that the snapshot does not see arrives; it ends at 310 and is sent. -/
theorem progress_contradicted : ∃ s ws, Reaches machine anyStep s ∧ s.watches[0]? = some ws ∧
    ws.history.ended = none ∧ (∀ t ∈ s.accepted, t.commitLSN < t.cursor.lsn) ∧
    ¬ws.sent.Pairwise fun e e' =>
      ∀ c b, e = .progress c → e' = .batch b → later b.cursor c = true := by
  obtain ⟨s, ws, hr, hws, hended, hcommit, hsent⟩ := Demo.exists_of_run anyStep 10 1
    (Demo.openSnapshot ++ Demo.readSnapshot 500 ++ List.replicate 4 (Demo.go .run) ++
      [.accept (Demo.transaction 300 15), .close 0, Demo.go (.choose .tick)] ++
      List.replicate 3 (Demo.go .run)) 0
    (fun s ws => ws.history.ended.isNone = true ∧ (∀ t ∈ s.accepted, t.commitLSN < t.cursor.lsn) ∧
      ws.sent.drop 2 = [.progress ⟨"main", 500⟩,
        .batch ⟨⟨"main", 310⟩, 0, [Demo.change], none⟩]) (by decide)
  refine ⟨s, ws, hr, hws, Option.isNone_iff_eq_none.1 hended, hcommit, fun hkept => ?_⟩
  have hdrop := hkept.sublist (List.drop_sublist 2 ws.sent)
  rw [hsent, List.pairwise_pair] at hdrop
  exact absurd (hdrop _ _ rfl rfl) (by decide)

/-- The same watch, when what arrives ends after the snapshot's cursor. -/
theorem progress_kept_run : ∃ s ws, Reaches machine (keepsPromise 0) s ∧
    s.watches[0]? = some ws ∧ ws.history.readNothing = true ∧ (batchesOf ws.sent).length = 1 ∧
    ws.sent.Pairwise fun e e' =>
      ∀ c b, e = .progress c → e' = .batch b → later b.cursor c = true := by
  obtain ⟨s, ws, hr, hws, hended, hnothing, hlen⟩ := Demo.exists_of_run (keepsPromise 0) 10 1
    (Demo.openSnapshot ++ Demo.readSnapshot 500 ++ List.replicate 4 (Demo.go .run) ++
      [.accept (Demo.transaction 600 15), .close 0, Demo.go (.choose .tick)] ++
      List.replicate 3 (Demo.go .run)) 0
    (fun _ ws => ws.history.ended.isNone = true ∧ ws.history.readNothing = true ∧
      (batchesOf ws.sent).length = 1) (by decide)
  exact ⟨s, ws, hr, hws, hnothing, hlen,
    progress_kept hr hws (Option.isNone_iff_eq_none.1 hended)⟩

end Watchd.Watch
