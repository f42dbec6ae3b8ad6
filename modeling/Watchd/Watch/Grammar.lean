import Watchd.Watch.Reachable

/-!
# The grammar of a watch's stream

A stream is in one of four stages, and the kind of the next event decides the
stage after it.  The places of `Hub.Watch` each belong to some stages
(`Phase.allows`), so whatever a watch has sent leads through the stages; the
words that do are the prefixes of the streams listed by `Whole`.

`Reaches.stage` states it for every run.
-/

namespace Watchd.Watch

open Watchd.Cdc Watchd.Lib

/-! ## Kinds and stages -/

/-- What the order of a stream depends on. -/
inductive Kind
  | snapshotBegin
  | snapshotRows
  | snapshotEnd
  /-- a batch or a progress -/
  | live
  | resync
  deriving DecidableEq, Repr

/-- The kind of an event. -/
def Event.kind : Event → Kind
  | .snapshotBegin => .snapshotBegin
  | .snapshotRows _ => .snapshotRows
  | .snapshotEnd => .snapshotEnd
  | .batch _ | .progress _ => .live
  | .resync _ => .resync

/-- The stages of a stream. -/
inductive Stage
  /-- nothing has been sent -/
  | opened
  /-- inside a snapshot -/
  | reading
  | live
  /-- after a Resync -/
  | ended
  deriving DecidableEq, Repr

namespace Stage

/-- The stage after one more event. -/
def next : Stage → Kind → Option Stage
  | .opened, .snapshotBegin => some .reading
  | .reading, .snapshotRows => some .reading
  | .reading, .snapshotEnd => some .live
  | .opened, .live | .live, .live => some .live
  | .opened, .resync | .reading, .resync | .live, .resync => some .ended
  | _, _ => none

/-- The stage after a list of events, if they may follow one another. -/
def after : Stage → List Kind → Option Stage
  | q, [] => some q
  | q, k :: ks => (q.next k).bind (after · ks)

@[simp] theorem after_nil (q : Stage) : q.after [] = some q := rfl

theorem after_append (q : Stage) (ks ks' : List Kind) :
    q.after (ks ++ ks') = (q.after ks).bind (after · ks') := by
  induction ks generalizing q with
  | nil => rfl
  | cons k ks ih =>
    simp only [List.cons_append, after, Option.bind_assoc]
    cases q.next k with
    | none => rfl
    | some q' => exact ih q'

/-- What may be sent may be cut off anywhere. -/
theorem after_of_prefix {q q' : Stage} {ks ks' : List Kind} (hpre : ks <+: ks')
    (h : q.after ks' = some q') : ∃ q'', q.after ks = some q'' := by
  obtain ⟨rest, rfl⟩ := hpre
  rw [after_append] at h
  obtain ⟨q'', hq'', -⟩ := Option.bind_eq_some_iff.1 h
  exact ⟨q'', hq''⟩

/-- Any number of row events keeps a stream inside its snapshot. -/
theorem after_rows (n : Nat) : reading.after (List.replicate n .snapshotRows) = some reading := by
  induction n with
  | zero => rfl
  | succ n ih => simpa [List.replicate_succ, after, next] using ih

end Stage

/-! ## The streams -/

/-- The complete streams; a stream that is cut off is a prefix of one of them. -/
inductive Whole : List Event → Prop
  | refused (reason : ResyncReason) : Whole [.resync reason]
  | interrupted (pages : List (List Row)) (reason : ResyncReason) :
    Whole (.snapshotBegin :: (pages.map .snapshotRows ++ [.resync reason]))
  | installed (pages : List (List Row)) (live : List Event) (hlive : ∀ e ∈ live, e.kind = .live)
      (reason : Option ResyncReason) :
    Whole (.snapshotBegin ::
      (pages.map .snapshotRows ++ .snapshotEnd :: (live ++ (reason.map .resync).toList)))
  | resumed (live : List Event) (hlive : ∀ e ∈ live, e.kind = .live)
      (reason : Option ResyncReason) :
    Whole (live ++ (reason.map .resync).toList)

section Words

variable {q : Stage} {es : List Event}

theorem after_ended (h : Stage.ended.after (es.map Event.kind) = some q) : es = [] := by
  cases es with
  | nil => rfl
  | cons e es => simp [Stage.after, Stage.next] at h

/-- What follows once a stream is live. -/
theorem after_live (h : Stage.live.after (es.map Event.kind) = some q) :
    ∃ (live : List Event) (reason : Option ResyncReason), (∀ e ∈ live, e.kind = .live) ∧
      es = live ++ (reason.map .resync).toList := by
  induction es with
  | nil => exact ⟨[], none, nofun, rfl⟩
  | cons e es ih =>
    cases he : e.kind with
    | live =>
      simp only [List.map_cons, he, Stage.after, Stage.next, Option.bind_some] at h
      obtain ⟨live, reason, hlive, rfl⟩ := ih h
      refine ⟨e :: live, reason, ?_, rfl⟩
      intro e' he'
      rcases List.mem_cons.1 he' with rfl | hmem
      · exact he
      · exact hlive e' hmem
    | resync =>
      simp only [List.map_cons, he, Stage.after, Stage.next, Option.bind_some] at h
      obtain rfl := after_ended h
      cases e with
      | resync reason => exact ⟨[], some reason, nofun, rfl⟩
      | _ => cases he
    | snapshotBegin => simp [he, Stage.after, Stage.next] at h
    | snapshotRows => simp [he, Stage.after, Stage.next] at h
    | snapshotEnd => simp [he, Stage.after, Stage.next] at h

/-- What follows inside a snapshot. -/
theorem after_reading (h : Stage.reading.after (es.map Event.kind) = some q) :
    ∃ (pages : List (List Row)) (rest : List Event), es = pages.map .snapshotRows ++ rest ∧
      (rest = [] ∨ (∃ reason, rest = [.resync reason]) ∨
        ∃ live reason, (∀ e ∈ live, Event.kind e = .live) ∧
          rest = .snapshotEnd :: (live ++ (Option.map .resync reason).toList)) := by
  induction es with
  | nil => exact ⟨[], [], rfl, .inl rfl⟩
  | cons e es ih =>
    cases e with
    | snapshotRows rows =>
      obtain ⟨pages, rest, rfl, hrest⟩ :=
        ih (by simpa [Event.kind, Stage.after, Stage.next] using h)
      exact ⟨rows :: pages, rest, rfl, hrest⟩
    | snapshotEnd =>
      obtain ⟨live, reason, hlive, rfl⟩ :=
        after_live (by simpa [Event.kind, Stage.after, Stage.next] using h)
      exact ⟨[], _, rfl, .inr (.inr ⟨live, reason, hlive, rfl⟩)⟩
    | resync reason =>
      obtain rfl :=
        after_ended (by simpa [Event.kind, Stage.after, Stage.next] using h)
      exact ⟨[], _, rfl, .inr (.inl ⟨reason, rfl⟩)⟩
    | snapshotBegin => simp [Event.kind, Stage.after, Stage.next] at h
    | batch b => simp [Event.kind, Stage.after, Stage.next] at h
    | progress cursor => simp [Event.kind, Stage.after, Stage.next] at h

/-- Events that lead through the stages are a prefix of a complete stream. -/
theorem Whole.of_after (h : Stage.opened.after (es.map Event.kind) = some q) :
    ∃ whole, Whole whole ∧ es <+: whole := by
  -- a live event leads on like one of a stream that is already live
  have hresumed : ∀ e rest, es = e :: rest → e.kind = .live →
      ∃ whole, Whole whole ∧ es <+: whole := by
    rintro e rest rfl he
    have hlive : Stage.live.after ((e :: rest).map Event.kind) = some q := by
      simpa [he, Stage.after, Stage.next] using h
    obtain ⟨live, reason, hall, heq⟩ := after_live hlive
    exact ⟨_, .resumed live hall reason, by rw [heq]⟩
  cases es with
  | nil => exact ⟨_, .resumed [] nofun none, List.nil_prefix⟩
  | cons e es =>
    cases e with
    | snapshotBegin =>
      obtain ⟨pages, rest, rfl, rfl | ⟨reason, rfl⟩ | ⟨live, reason, hlive, rfl⟩⟩ :=
        after_reading (by simpa [Event.kind, Stage.after, Stage.next] using h)
      · refine ⟨_, .installed pages [] nofun none, ?_⟩
        rw [List.append_nil, List.prefix_cons_inj]
        exact List.prefix_append _ _
      · exact ⟨_, .interrupted pages reason, List.prefix_rfl⟩
      · exact ⟨_, .installed pages live hlive reason, List.prefix_rfl⟩
    | resync reason =>
      obtain rfl :=
        after_ended (by simpa [Event.kind, Stage.after, Stage.next] using h)
      exact ⟨_, .refused reason, List.prefix_rfl⟩
    | batch b => exact hresumed _ _ rfl rfl
    | progress cursor => exact hresumed _ _ rfl rfl
    | snapshotRows rows => simp [Event.kind, Stage.after, Stage.next] at h
    | snapshotEnd => simp [Event.kind, Stage.after, Stage.next] at h

end Words

/-! ## The stages of a Watch call -/

/-- The stages a stream can be in when its Watch call is at a place. -/
def Phase.allows : Phase → Stage → Prop
  | .start, q | .resume _, q | .snapshot, q | .snapshotBegin _, q | .refuse _, q => q = .opened
  | .reading _, q | .overflowCheck _ _, q | .clearStale _ _, q | .recordSnapshot _ _, q
  | .snapshotEnd _ _, q => q = .reading
  | .backlog _ _, q | .position _ _, q | .drain _ _ _ _, q | .deliver _ _ _ _ _, q
  | .progress _ _ _ _, q | .select _ _ _, q => q = .opened ∨ q = .live
  | .resync _, q => q ≠ .ended
  | .unregister _, _ | .returned _, _ => True

/-- Only a call that is about to return can have sent a Resync. -/
theorem Phase.allows_ne_ended {p : Phase} {q : Stage} (h : p.allows q)
    (hp : ∀ result, p ≠ .unregister result ∧ p ≠ .returned result) : q ≠ .ended := by
  rintro rfl
  cases p with
  | resync reason => exact h rfl
  | unregister result => exact (hp result).1 rfl
  | returned result => exact (hp result).2 rfl
  | _ => simp [Phase.allows] at h

theorem Phase.allows_leaving {p : Phase} {q : Stage} (hp : p.leaving = true) (hq : q ≠ .ended) :
    p.allows q := by
  cases p with
  | resync reason => exact hq
  | unregister result => trivial
  | _ => cases hp

/-- The stage after what one step sends. -/
def Stage.sent (q : Stage) (e : Option Event) : Option Stage := q.after (e.toList.map Event.kind)

section Steps

variable {h : Hub} {id : WatcherId} {p : Phase} {m : Move} {q : Stage}

/-- A stream that is not live yet becomes so by a live event; one that is stays live. -/
theorem Stage.sent_live {e : Event} (he : e.kind = .live) (hq : q = .opened ∨ q = .live) :
    q.sent (some e) = some .live := by
  rcases hq with rfl | rfl <;> simp [Stage.sent, Stage.after, Stage.next, he]

theorem Stage.sent_resync {reason : ResyncReason} (hq : q ≠ .ended) :
    q.sent (some (.resync reason)) = some .ended := by
  cases q with
  | ended => exact absurd rfl hq
  | _ => rfl

/-- A move of a call that is not already unregistering leads from stage to stage. -/
theorem Moves.stage (hm : Moves h id p m) (hq : p.allows q)
    (hp : ∀ result, p ≠ .unregister result) :
    ∃ q', q.sent m.sent = some q' ∧ m.phase.allows q' := by
  cases hm with
  | parsed cursor hsrc => exact ⟨q, rfl, hq⟩
  | scratch => exact ⟨q, rfl, hq⟩
  | turnedAway p p' hp hp' =>
    obtain rfl : q = .opened := by
      rcases hp with rfl | ⟨cursor, rfl⟩ <;> exact hq
    rcases hp' with ⟨reason, rfl⟩ | ⟨err, rfl⟩
    · exact ⟨.opened, rfl, rfl⟩
    · exact ⟨.opened, rfl, trivial⟩
  | resumed cursor batches hfloor hbatches => exact ⟨q, rfl, .inl hq⟩
  | registered => exact ⟨q, rfl, hq⟩
  | begun streamed =>
    cases hq
    exact ⟨.reading, rfl, rfl⟩
  | rows streamed rows =>
    cases hq
    exact ⟨.reading, rfl, rfl⟩
  | read streamed snap => exact ⟨q, rfl, hq⟩
  | installs streamed snap hover => exact ⟨q, rfl, hq⟩
  | cleared streamed snap stale batches hbatches => exact ⟨q, rfl, hq⟩
  | recorded batches snap => exact ⟨q, rfl, hq⟩
  | installed batches snap =>
    cases hq
    exact ⟨.live, rfl, .inr rfl⟩
  | caughtUp args => exact ⟨q, rfl, hq⟩
  | replayed b batches args => exact ⟨.live, Stage.sent_live rfl hq, .inr rfl⟩
  | positioned args round => exact ⟨q, rfl, hq⟩
  | drained args round pos tick hqueue => exact ⟨q, rfl, hq⟩
  | received args round pos tick item queue hqueue hneed => exact ⟨q, rfl, hq⟩
  | skipped args round pos tick item queue hqueue hneed => exact ⟨q, rfl, hq⟩
  | delivered args round pos tick item => exact ⟨.live, Stage.sent_live rfl hq, .inr rfl⟩
  | progressed args round pos tick hdue => exact ⟨.live, Stage.sent_live rfl hq, .inr rfl⟩
  | unchanged args round pos tick => exact ⟨q, rfl, hq⟩
  | woken args progressed tick => exact ⟨q, rfl, hq⟩
  | leaves p p' stale hreg hp' =>
    have hne : q ≠ .ended := Phase.allows_ne_ended hq fun result =>
      ⟨hp result, by rintro rfl; cases hreg⟩
    exact ⟨q, rfl, Phase.allows_leaving hp' hne⟩
  | incomparable args round pos tick item queue hqueue err => exact ⟨q, rfl, trivial⟩
  | resynced reason => exact ⟨.ended, Stage.sent_resync hq, trivial⟩
  | refused reason =>
    cases hq
    exact ⟨.ended, rfl, trivial⟩
  | refusalFailed reason err => exact ⟨q, rfl, trivial⟩
  | unregistered result => exact ⟨q, rfl, trivial⟩

/-- Every step leads from stage to stage. -/
theorem Phase.step_stage {req : Request} {closed : TickId → Bool} {act : Act}
    (hm : p.step req closed h id act = some m) (hq : p.allows q) :
    ∃ q', q.sent m.sent = some q' ∧ m.phase.allows q' := by
  by_cases hp : ∃ result, p = .unregister result
  · obtain ⟨result, rfl⟩ := hp
    -- a call that is unregistering sends nothing more
    cases act <;> simp only [Phase.step, reduceCtorEq] at hm
    cases hm
    exact ⟨q, rfl, trivial⟩
  · exact (Phase.step_moves hm).stage hq fun result heq => hp ⟨result, heq⟩

end Steps

/-- **The stages of a stream**: what a watch has sent leads to a stage its place allows. -/
theorem Reaches.stage {ok : System → Label → Prop} {s : System} (hs : Reaches machine ok s)
    {id : WatcherId} {ws : WatchState} (hws : s.watches[id]? = some ws) :
    ∃ q, Stage.opened.after (ws.sent.map Event.kind) = some q ∧ ws.phase.allows q := by
  refine Reaches.step_rule (P := fun _ _ _ ws =>
    ∃ q, Stage.opened.after (ws.sent.map Event.kind) = some q ∧
      ws.phase.allows q) ?_ ?_ ?_ hs id ws hws
  · intro id c accepted req p _ hp
    refine ⟨.opened, rfl, ?_⟩
    rcases hp with rfl | ⟨err, rfl⟩
    · rfl
    · trivial
  · intro s t id ws _ _ _ _ hq
    obtain ⟨ended, heq, -⟩ := ws.noteAccept_eq s t (s.hub.acceptNew t) id
    rw [heq]
    exact hq
  · rintro s id ws act m - - hm ⟨q, hafter, hq⟩
    obtain ⟨q', hsent, hq'⟩ := Phase.step_stage hm hq
    refine ⟨q', ?_, hq'⟩
    rw [WatchState.moved, List.map_append, Stage.after_append, hafter]
    exact hsent

end Watchd.Watch
