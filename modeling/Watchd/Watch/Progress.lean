import Watchd.Watch.Delivery

/-!
# What Progress claims

`live` reads the hub's position, drains the queue and reports how far the watch
is complete.  `RoundOk` says where the reported position comes from and what has
been sent by then.  From it: Progress is complete for a watcher that was
registered when the position was read; and it stays before the transaction on
which the hub ends a watcher, unless it is the watch's own resume cursor.

These are `progress_complete` and `progress_before_ended`.
-/

namespace Watchd.Watch

open Watchd.Cdc Watchd.Lib

/-- The event a step of watch `id` sends. -/
def System.sends? (s : System) (id : WatcherId) (act : Act) : Option Event :=
  (s.watches[id]?.bind fun ws =>
    ws.phase.step ws.request (fun tick => decide (tick ∈ s.closed)) s.hub id act).bind Move.sent

/-- Watch `id` can send this event next. -/
def System.Sends (s : System) (id : WatcherId) (event : Event) : Prop :=
  ∃ act, s.sends? id act = some event

theorem System.Sends.progress {s : System} {id : WatcherId} {c : Cursor} {ws : WatchState}
    (h : s.Sends id (.progress c)) (hws : s.watches[id]? = some ws) :
    ∃ args round tick, ws.phase = .progress args round c tick := by
  obtain ⟨act, hact⟩ := h
  unfold System.sends? at hact
  rw [hws, Option.bind_some] at hact
  obtain ⟨m, hm, hsent⟩ := Option.bind_eq_some_iff.1 hact
  have hmoves := Phase.step_moves hm
  generalize ws.phase = p at hmoves ⊢
  cases hmoves with
  | progressed args round pos tick hdue =>
    cases hsent
    exact ⟨args, round, tick, rfl⟩
  | _ => cases hsent

/-- In an ordered list, what stands before a position is before what stands there. -/
theorem pairwise_of_mem_take {α : Type*} {R : α → α → Prop} {l : List α} (h : l.Pairwise R)
    {n : Nat} {a b : α} (hb : l[n]? = some b) (ha : a ∈ l.take n) : R a b := by
  rw [← List.take_append_drop n l, List.pairwise_append] at h
  refine h.2.2 a ha b (List.mem_of_getElem? (i := 0) ?_)
  rw [List.getElem?_drop, Nat.add_zero]
  exact hb

/-! ## The rounds of `live` -/

/-- The arguments `live` is called with on the two paths. -/
def LiveArgs.Fits (args : LiveArgs) : Prop :=
  (∃ cursor, args = ⟨cursor, true, .after cursor⟩) ∨
    ∃ snap, args = ⟨snap.cursor, false, .notCovered snap⟩

/-- Where the position of a round comes from. -/
structure PositionOk (accepted : List Transaction) (hist : History) (args : LiveArgs)
    (pos : Cursor) : Prop where
  fits : args.Fits
  ended : hist.endedAtRead = true → hist.ended ≠ none
  read_le : hist.endedAtRead = false → hist.readAt ≤ hist.endAt accepted
  origin : hist.endedAtRead = false →
    (pos = args.base ∧ (args.baseSafe = true ∨ (hist.readAt = 0 ∧ hist.readNothing = true))) ∨
      ∃ t ∈ accepted.take (hist.endAt accepted), pos = t.cursor

/-- What `live` knows of the position it has read. -/
def RoundOk (c : Watcher) (accepted : List Transaction) (hist : History) (sent : List Batch) :
    Phase → Prop
  | .backlog _ args | .position args _ | .select args _ _ => args.Fits
  | .drain args _ pos _ => PositionOk accepted hist args pos
  | .deliver args _ pos _ item =>
    PositionOk accepted hist args pos ∧
      item.transaction ∈ accepted.take (hist.endAt accepted)
  | .progress args _ pos _ =>
    PositionOk accepted hist args pos ∧ (hist.endedAtRead = false →
      c.owed args.need (hist.ring ++ (accepted.take hist.readAt).drop hist.registeredAt) <+: sent)
  | _ => True

/-! ### Accepting a transaction -/

section Accept

variable {accepted : List Transaction} {hist hist' : History} {t : Transaction}

/-- The part of what was accepted that counts for a watch only grows. -/
structure Grows (accepted : List Transaction) (hist hist' : History) (t : Transaction) : Prop where
  ended : hist.ended ≠ none → hist'.ended ≠ none
  endAt_le : hist.endAt accepted ≤ hist'.endAt (accepted ++ [t])
  bounded : hist.endAt accepted ≤ accepted.length
  same : hist' = { hist with ended := hist'.ended }

theorem Grows.refl (t : Transaction) (h : hist.endAt accepted ≤ accepted.length) :
    Grows accepted hist hist t := by
  refine ⟨id, ?_, h, rfl⟩
  cases he : hist.ended with
  | none =>
    rw [History.endAt_of_none he, History.endAt_of_none he, List.length_append]
    omega
  | some e =>
    rw [History.endAt_of_some he, History.endAt_of_some he]

theorem Grows.ending (t : Transaction) (h : hist.ended = none) :
    Grows accepted hist { hist with ended := some ⟨t, accepted.length⟩ } t := by
  refine ⟨fun _ => nofun, ?_, ?_, rfl⟩
  · rw [History.endAt_of_none h]
    exact Nat.le_refl _
  · rw [History.endAt_of_none h]

theorem Grows.mem_take (h : Grows accepted hist hist' t) {a : Transaction}
    (ha : a ∈ accepted.take (hist.endAt accepted)) :
    a ∈ (accepted ++ [t]).take (hist'.endAt (accepted ++ [t])) := by
  have hsame : (accepted ++ [t]).take (hist.endAt accepted) =
      accepted.take (hist.endAt accepted) := List.take_append_of_le_length h.bounded
  have hpre := List.take_prefix_take_left (l := accepted ++ [t]) h.endAt_le
  rw [hsame] at hpre
  exact hpre.subset ha

theorem Grows.positionOk (h : Grows accepted hist hist' t) {args : LiveArgs} {pos : Cursor}
    (hp : PositionOk accepted hist args pos) : PositionOk (accepted ++ [t]) hist' args pos := by
  have hsame := h.same
  have hread : hist'.endedAtRead = hist.endedAtRead := by rw [hsame]
  have hat : hist'.readAt = hist.readAt := by rw [hsame]
  have hnothing : hist'.readNothing = hist.readNothing := by rw [hsame]
  refine ⟨hp.fits, ?_, ?_, ?_⟩
  · intro he
    rw [hread] at he
    exact h.ended (hp.ended he)
  · intro he
    rw [hread] at he
    rw [hat]
    exact (hp.read_le he).trans h.endAt_le
  · intro he
    rw [hread] at he
    rw [hat, hnothing]
    rcases hp.origin he with hbase | ⟨a, ha, hpos⟩
    · exact .inl hbase
    · exact .inr ⟨a, h.mem_take ha, hpos⟩

theorem Grows.roundOk (h : Grows accepted hist hist' t) {c c' : Watcher} {sent : List Batch}
    {p : Phase} (hproj : c'.projection = c.projection) (hscope : c'.scope = c.scope)
    (hr : RoundOk c accepted hist sent p) : RoundOk c' (accepted ++ [t]) hist' sent p := by
  cases p with
  | backlog held args => exact hr
  | position args round => exact hr
  | select args progressed tick => exact hr
  | drain args round pos tick => exact h.positionOk hr
  | deliver args round pos tick item => exact ⟨h.positionOk hr.1, h.mem_take hr.2⟩
  | progress args round pos tick =>
    refine ⟨h.positionOk hr.1, ?_⟩
    have hsame := h.same
    have howed := Watcher.Static.owed_eq ⟨hproj, hscope⟩ args.need
    intro he
    have hread : hist'.endedAtRead = hist.endedAtRead := by rw [hsame]
    rw [hread] at he
    have hle := (hr.1.read_le he).trans h.bounded
    have hring : hist'.ring = hist.ring := by rw [hsame]
    have hat : hist'.readAt = hist.readAt := by rw [hsame]
    have hreg : hist'.registeredAt = hist.registeredAt := by rw [hsame]
    rw [howed, hring, hat, hreg, List.take_append_of_le_length hle]
    exact hr.2 he
  | _ => trivial

end Accept

/-! ### The watch's own steps -/

section Own

variable {s : System} {id : WatcherId} {p : Phase} {m : Move} {hist : History}
  {sent : List Event} {evicted : List Transaction}

theorem PositionOk.raise {accepted : List Transaction} {args : LiveArgs} {pos : Cursor}
    {t : Transaction} (h : PositionOk accepted hist args pos)
    (ht : t ∈ accepted.take (hist.endAt accepted)) :
    PositionOk accepted hist args (raise t.cursor pos) := by
  refine ⟨h.fits, h.ended, h.read_le, fun he => ?_⟩
  rcases raise_cases t.cursor pos with ⟨hr, -⟩ | ⟨hr, -⟩
  · rw [hr]
    exact h.origin he
  · rw [hr]
    exact .inr ⟨t, ht, rfl⟩

theorem Books.mem_take_of_since {maxReplay : Nat} {accepted : List Transaction}
    {v : Watcher × Bool} (h : Books maxReplay accepted v p hist) {item : Queued}
    (hitem : item ∈ v.1.queue) : item.transaction ∈ accepted.take (hist.endAt accepted) :=
  List.mem_of_mem_drop (h.items item hitem).2.2

/-- The position read under the lock. -/
theorem PositionOk.read {args : LiveArgs} (hfits : args.Fits)
    (hret : s.hub.window.Retains evicted) (hacc : s.accepted = evicted ++ s.hub.window.ring)
    (hover : (s.hub.registry.cell id).overflow = hist.ended.isSome) (round : Round)
    (tick : TickId) (pos : Cursor) :
    PositionOk s.accepted
      (hist.note s id (.position args round) (.drain args round pos tick)) args
      (args.startAt s.hub.window.received) := by
  refine ⟨hfits, ?_, ?_, ?_⟩
  · intro he
    simp only [History.note, hover] at he
    intro hn
    change hist.ended = none at hn
    rw [hn] at he
    cases he
  · intro he
    simp only [History.note, hover] at he
    have hn : hist.ended = none := by simpa using he
    exact Nat.le_of_eq (History.endAt_of_none hn).symm
  · intro he
    simp only [History.note, hover] at he
    have hn : hist.ended = none := by simpa using he
    have hend : (hist.note s id (.position args round) (.drain args round pos tick)).endAt
        s.accepted = s.accepted.length := History.endAt_of_none hn
    rw [hend, List.take_length]
    have hrecv := hret.received
    rw [← hacc] at hrecv
    cases hlast : s.accepted.getLast? with
    | none =>
      rw [hlast] at hrecv
      left
      have hnil := List.getLast?_eq_none_iff.1 hlast
      rw [hrecv]
      exact ⟨rfl, .inr ⟨by simp [History.note, hnil], by simp [History.note, hrecv]⟩⟩
    | some newest =>
      rw [hlast] at hrecv
      rw [hrecv]
      simp only [Option.map_some, LiveArgs.startAt]
      split
      · next hsafe =>
        left
        exact ⟨rfl, .inl (Bool.and_eq_true_iff.1 hsafe).1⟩
      · exact .inr ⟨newest, List.mem_of_getLast? hlast, rfl⟩

theorem RoundOk.moves (hm : Moves s.hub id p m) (hret : s.hub.window.Retains evicted)
    (hacc : s.accepted = evicted ++ s.hub.window.ring)
    (hbooks : Books s.hub.window.maxReplay s.accepted (s.hub.registry.view id) p hist)
    (hhand : Handoff (s.hub.registry.cell id) hist.need hist.ring (hist.since s.accepted)
      (batchesOf sent) p)
    (h : RoundOk (s.hub.registry.cell id) s.accepted hist (batchesOf sent) p) :
    RoundOk (m.hub.registry.cell id) s.accepted (hist.note s id p m.phase)
      (batchesOf (sent ++ m.sent.toList)) m.phase := by
  cases hm with
  | resumed cursor batches hfloor hbatches => exact .inl ⟨cursor, rfl⟩
  | installed batches snap => exact .inr ⟨snap, rfl⟩
  | caughtUp args => exact h
  | replayed b batches args => exact h
  | positioned args round => exact .read h hret hacc hbooks.overflow round _ _
  | drained args round pos tick hqueue =>
    refine ⟨h, fun he => ?_⟩
    rw [batchesOf_quiet _ rfl]
    have hfeed := hhand.feeding
    rw [hqueue, List.map_nil] at hfeed
    rw [hfeed.drained]
    -- what had been accepted at the read is part of the stream
    have hread := h.read_le he
    refine feed_mono _ _ ((List.prefix_append_right_inj _).2 ?_)
    exact (List.take_prefix_take_left hread).drop _
  | received args round pos tick item queue hqueue hneed =>
    exact ⟨h, hbooks.mem_take_of_since (by
      show item ∈ (s.hub.registry.cell id).queue
      rw [hqueue]
      exact List.mem_cons_self)⟩
  | skipped args round pos tick item queue hqueue hneed =>
    exact PositionOk.raise h (hbooks.mem_take_of_since (by
      show item ∈ (s.hub.registry.cell id).queue
      rw [hqueue]
      exact List.mem_cons_self))
  | delivered args round pos tick item => exact PositionOk.raise h.1 h.2
  | progressed args round pos tick hdue => exact h.1.fits
  | unchanged args round pos tick => exact h.1.fits
  | woken args progressed tick => exact h
  | turnedAway p p' hp hp' =>
    rcases hp' with ⟨reason, rfl⟩ | ⟨err, rfl⟩ <;> trivial
  | leaves p p' stale hp hp' => cases p' <;> trivial
  | _ => trivial

end Own

/-! ### Every run -/

/-- Accepting a transaction keeps a watcher's projection and scope, and the part of what was
accepted that counts for it grows. -/
theorem Inv.noteAccept {s : System} (h : Inv s) (t : Transaction) {id : WatcherId}
    {ws : WatchState} (hws : s.watches[id]? = some ws) :
    let c' := (s.hub.acceptNew t).registry.cell id
    let ws' := ws.noteAccept s t (s.hub.acceptNew t) id
    c'.projection = (s.hub.registry.cell id).projection ∧
      c'.scope = (s.hub.registry.cell id).scope ∧
      ws'.phase = ws.phase ∧ ws'.sent = ws.sent ∧
      Grows s.accepted ws.history ws'.history t := by
  have hbooks := (h.watch id ws hws).books
  obtain ⟨-, -, hout, hin⟩ := Hub.acceptNew_outcome h.indexed h.scratch t
  unfold WatchState.noteAccept
  by_cases hreg : id ∈ s.hub.registry.watchers
  · have hended : ws.history.ended = none := by
      have hr := hbooks.registered
      simp only [Registry.view, hreg, decide_true] at hr
      simpa using (Bool.and_eq_true_iff.1 hr.symm).2
    have hstatic := (hin id hreg).static
    refine ⟨hstatic.1, hstatic.2, ?_⟩
    split
    · exact ⟨rfl, rfl, .ending t hended⟩
    · exact ⟨rfl, rfl, .refl t hbooks.endAt_le⟩
  · have hcell : (s.hub.acceptNew t).registry.cell id = s.hub.registry.cell id :=
      (Registry.view_eq.1 (hout id hreg)).1
    rw [if_neg fun hh => hreg hh.1, hcell]
    exact ⟨rfl, rfl, rfl, rfl, .refl t hbooks.endAt_le⟩

theorem Reaches.roundOk {ok : System → Label → Prop} {s : System} (h : Reaches machine ok s) :
    ∀ id ws, s.watches[id]? = some ws →
      RoundOk (s.hub.registry.cell id) s.accepted ws.history (batchesOf ws.sent) ws.phase := by
  refine Reaches.watch_rule (P := fun _ c accepted ws =>
    RoundOk c accepted ws.history (batchesOf ws.sent) ws.phase) ?_ ?_ ?_ h
  · rintro id c accepted req p - (rfl | ⟨err, rfl⟩) <;> trivial
  · intro s t id ws hreach _ _ hws hround
    obtain ⟨hproj, hscope, hphase, hsent, hgrows⟩ := (Reaches.inv hreach).noteAccept t hws
    rw [hphase, hsent]
    exact hgrows.roundOk hproj hscope hround
  · intro s id ws m hreach hws hm hround
    have hinv := Reaches.inv hreach
    obtain ⟨evicted, hacc, hret⟩ := hinv.retains
    obtain ⟨hbooks, hhand⟩ := hinv.watch id ws hws
    exact hround.moves hm hret hacc hbooks hhand

/-! ## Progress is complete -/

/-- **Progress is complete.**  When a watch sends Progress, and its watcher had not been ended when
the position was read, every transaction that had been accepted by then, in the ring at
registration or later, with a change for the watch and needed by it, has been sent as a Batch. -/
theorem progress_complete {s : System} (h : Reaches machine anyStep s) {id : WatcherId}
    {ws : WatchState} {c : Cursor} {need : Need} {t : Transaction}
    (hws : s.watches[id]? = some ws) (hsend : s.Sends id (.progress c))
    (hread : ws.history.endedAtRead = false) (hneed : ws.history.need = some need)
    (ht : t ∈ ws.history.ring ++
      (s.accepted.take ws.history.readAt).drop ws.history.registeredAt)
    (hchanges : (s.hub.registry.cell id).changesOf t ≠ []) (hneeded : need.apply t = .ok true) :
    (s.hub.registry.cell id).batchOf t ∈ batchesOf ws.sent := by
  obtain ⟨args, round, tick, hphase⟩ := hsend.progress hws
  have hround := Reaches.roundOk h id ws hws
  have hhand := ((Reaches.inv h).watch id ws hws).handoff
  rw [hphase] at hround hhand
  have hargs : args.need = need := by
    have heq := hhand.need_eq
    rw [hneed] at heq
    exact (Option.some.inj heq).symm
  have hwants : (s.hub.registry.cell id).wants args.need t = true := by
    rw [Watcher.wants, hargs, Need.needs_of_ok hneeded, Bool.and_true]
    exact Watcher.concerns_iff.2 hchanges
  exact (hround.2 hread).subset (mem_feed _ _ ht hwants)

/-- At its first Progress the watch has sent the transaction its snapshot did not cover. -/
theorem progress_complete_run : ∃ s ws, Reaches machine anyStep s ∧ s.watches[0]? = some ws ∧
    s.Sends 0 (.progress ⟨"main", 410⟩) ∧ ws.history.endedAtRead = false ∧
    (s.hub.registry.cell 0).batchOf (Demo.transaction 100 15) ∈ batchesOf ws.sent := by
  obtain ⟨s, ws, hr, hws, hsend, hread, hneed, ht, hchanges⟩ := Demo.exists_of_run anyStep 10 1
    ([.accept (Demo.transaction 100 15)] ++ Demo.openSnapshot ++
      [.accept (Demo.transaction 400 21)] ++ Demo.readSnapshot 300 ++
      List.replicate 6 (Demo.go .run)) 0
    (fun s ws => s.sends? 0 .run = some (.progress ⟨"main", 410⟩) ∧
      ws.history.endedAtRead = false ∧
      ws.history.need = some (.notCovered (Demo.snapshot 300)) ∧
      Demo.transaction 100 15 ∈ ws.history.ring ++
        (s.accepted.take ws.history.readAt).drop ws.history.registeredAt ∧
      (s.hub.registry.cell 0).changesOf (Demo.transaction 100 15) ≠ []) (by decide)
  exact ⟨s, ws, hr, hws, ⟨_, hsend⟩, hread,
    progress_complete hr hws ⟨_, hsend⟩ hread hneed ht hchanges (by decide)⟩

/-! ## Progress after the watcher was ended -/

/-- **An ended watcher is not told it is complete past what it was given.**  Progress that a watch
sends after the hub ended its watcher on a transaction is before that transaction or is the watch's
own resume cursor, if the position was read before the watcher was ended and, on the snapshot path,
after the hub had received something. -/
theorem progress_before_ended {s : System} (h : Reaches machine anyStep s) {id : WatcherId}
    {ws : WatchState} {c : Cursor} {e : Ended}
    (hws : s.watches[id]? = some ws) (hsend : s.Sends id (.progress c))
    (hended : ws.history.ended = some e) (hread : ws.history.endedAtRead = false)
    (hreceived : ∀ snap, ws.history.need = some (.notCovered snap) → 0 < ws.history.readAt) :
    later e.transaction.cursor c = true ∨ ws.history.need = some (.after c) := by
  obtain ⟨args, round, tick, hphase⟩ := hsend.progress hws
  have hround := Reaches.roundOk h id ws hws
  have hinv := Reaches.inv h
  have hhand := (hinv.watch id ws hws).handoff
  have hget := (hinv.watch id ws hws).books.ended e hended
  rw [hphase] at hround hhand
  have hneed := hhand.need_eq
  rcases hround.1.origin hread with ⟨hbase, hsafe⟩ | ⟨t, ht, hpos⟩
  · right
    rw [hneed, hbase]
    rcases hround.1.fits with ⟨cursor, rfl⟩ | ⟨snap, rfl⟩
    · rfl
    · rcases hsafe with hsafe | ⟨hzero, -⟩
      · cases hsafe
      · have hpos := hreceived snap hneed
        omega
  · left
    -- everything that counts for the watch was accepted before the transaction that ended it
    rw [History.endAt_of_some hended] at ht
    rw [hpos]
    exact pairwise_of_mem_take hinv.ordered hget ht

/-- Two watches that are told they are complete at or past the transaction they were ended on.  The
first resumed at 500, ahead of the stream, which is its own cursor.  The second read the hub's
position after the hub had dropped it. -/
theorem progress_past_ended :
    (∃ s ws e, Reaches machine anyStep s ∧ s.watches[1]? = some ws ∧
      ws.history.ended = some e ∧ s.Sends 1 (.progress ⟨"main", 500⟩) ∧
      later e.transaction.cursor ⟨"main", 500⟩ = false) ∧
    (∃ s ws e, Reaches machine anyStep s ∧ s.watches[0]? = some ws ∧
      ws.history.ended = some e ∧ s.Sends 0 (.progress ⟨"main", 210⟩) ∧
      later e.transaction.cursor ⟨"main", 210⟩ = false) := by
  constructor
  · obtain ⟨s, ws, hr, hws, hsend, he⟩ := Demo.exists_of_run anyStep 10 1
      (Demo.openSnapshot ++ Demo.readSnapshot 300 ++
        [.open_ ⟨"members", Demo.tenant, "0/1F4"⟩] ++ List.replicate 4 (.watch 1 .run) ++
        [.accept (Demo.transaction 350 21), .accept (Demo.transaction 400 22)] ++
        List.replicate 2 (.watch 1 .run)) 1
      (fun s ws => s.sends? 1 .run = some (.progress ⟨"main", 500⟩) ∧
        ws.history.ended.any (fun e => !later e.transaction.cursor ⟨"main", 500⟩) = true)
      (by decide)
    obtain ⟨e, he, hlater⟩ := (Option.any_eq_true _ _).1 he
    exact ⟨s, ws, e, hr, hws, he, ⟨_, hsend⟩, by simpa using hlater⟩
  · obtain ⟨s, ws, hr, hws, hsend, he⟩ := Demo.exists_of_run anyStep 10 1
      (Demo.openSnapshot ++ Demo.readSnapshot 50 ++
        [.accept (Demo.transaction 100 21), .accept (Demo.transaction 200 22)] ++
        List.replicate 5 (Demo.go .run)) 0
      (fun s ws => s.sends? 0 .run = some (.progress ⟨"main", 210⟩) ∧
        ws.history.ended.any (fun e => !later e.transaction.cursor ⟨"main", 210⟩) = true)
      (by decide)
    obtain ⟨e, he, hlater⟩ := (Option.any_eq_true _ _).1 he
    exact ⟨s, ws, e, hr, hws, he, ⟨_, hsend⟩, by simpa using hlater⟩

/-- A watch that is dropped at 510 after it read its position reports 410. -/
theorem progress_before_ended_run : ∃ s ws e, Reaches machine anyStep s ∧
    s.watches[0]? = some ws ∧ ws.history.ended = some e ∧ s.Sends 0 (.progress ⟨"main", 410⟩) ∧
    (later e.transaction.cursor ⟨"main", 410⟩ = true ∨
      ws.history.need = some (.after ⟨"main", 410⟩)) := by
  obtain ⟨s, ws, hr, hws, hsend, hended, hread, hreceived⟩ := Demo.exists_of_run anyStep 10 1
    ([.accept (Demo.transaction 100 11)] ++ Demo.openSnapshot ++ Demo.readSnapshot 300 ++
      List.replicate 2 (Demo.go .run) ++
      [.accept (Demo.transaction 400 21), .accept (Demo.transaction 500 22)] ++
      List.replicate 3 (Demo.go .run)) 0
    (fun s ws => s.sends? 0 .run = some (.progress ⟨"main", 410⟩) ∧
      ws.history.ended.isSome = true ∧ ws.history.endedAtRead = false ∧ 0 < ws.history.readAt)
    (by decide)
  obtain ⟨e, he⟩ := Option.isSome_iff_exists.1 hended
  exact ⟨s, ws, e, hr, hws, he, ⟨_, hsend⟩,
    progress_before_ended hr hws ⟨_, hsend⟩ he hread fun _ _ => hreceived⟩

end Watchd.Watch
