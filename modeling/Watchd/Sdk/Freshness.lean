import Watchd.Sdk.Client

/-!
# Fresh reports and rebuilds

A Resync says that the stored rows cannot be continued from: a rebuild is owed
until a replacement snapshot has been committed.  Only the local `snapshot` of
`Sync` remembers it, and the branch for a lost connection clears that.

* `stale_until_rebuilt`: no fresh state is reported while a rebuild is owed, in
  the runs in which no stream is lost meanwhile;
* `fresh_of_lost`: after any stream lost meanwhile, the next Progress is
  reported as fresh.
-/

namespace Watchd.Sdk

open Watchd.Lib

/-- Whether a rebuild is owed after an observation. -/
def owedAfter (owed : Bool) : Obs → Bool
  | .resync => true
  | .committed => false
  | _ => owed

/-- A Resync was delivered and no `Commit` has succeeded since. -/
def owed (trace : List Obs) : Bool :=
  trace.foldl owedAfter false

/-- No fresh state is reported while a rebuild is owed. -/
def Honest (trace : List Obs) : Prop :=
  ∀ before state after, trace = before ++ .state state :: after → state.fresh = true →
    owed before = false

@[simp] theorem owed_append (trace : List Obs) (o : Obs) :
    owed (trace ++ [o]) = owedAfter (owed trace) o := by
  simp [owed]

theorem honest_nil : Honest [] := by
  intro before state after h
  simp at h

theorem Honest.append {trace : List Obs} (h : Honest trace) {o : Obs}
    (ho : ∀ state, o = .state state → state.fresh = true → owed trace = false) :
    Honest (trace ++ [o]) := by
  intro before state after heq hfresh
  -- the report is the new observation or one of the old ones
  rcases List.eq_nil_or_concat after with rfl | ⟨rest, last, rfl⟩
  · obtain ⟨rfl, hlast⟩ := List.append_inj' heq rfl
    exact ho state (List.singleton_inj.mp hlast) hfresh
  · rw [List.concat_eq_append, ← List.cons_append, ← List.append_assoc] at heq
    exact h before state rest (List.append_inj' heq rfl).1 hfresh

variable {σ ω : Type} {st : Store σ ω} {s s' : Sync σ ω}

namespace Sync

@[simp] theorem trace_ends (s : Sync σ ω) (writer : Option ω) (err : StreamError) :
    (s.ends st writer err).trace = s.trace := by
  cases writer <;> rfl

@[simp] theorem owed_setState (s : Sync σ ω) (fresh : Bool) (cursor : String) :
    owed (s.setState fresh cursor).trace = owed s.trace := by
  unfold setState
  split
  · rfl
  · simp [observe, owedAfter]

theorem honest_setState {fresh : Bool} {cursor : String} (h : Honest s.trace)
    (hfresh : fresh = true → owed s.trace = false) :
    Honest (s.setState fresh cursor).trace := by
  unfold setState
  split
  · exact h
  · refine Honest.append h fun state heq hstate => hfresh ?_
    cases heq
    exact hstate

/-- The next stream is opened without a cursor. -/
def Restarts (st : Store σ ω) (s : Sync σ ω) : Prop :=
  s.snapshot = true ∨ ∀ c ∈ (st.cursor s.store).2.toOption, c = ""

/-- What a phase has to meet while a rebuild is owed: the next stream will be opened without a
cursor, or the current one was, and has not got past its snapshot. -/
def Rebuilds (st : Store σ ω) (s : Sync σ ω) : Prop :=
  match s.phase with
  | .opening | .waiting => s.Restarts st
  | .streaming cursor heard writer => cursor = "" ∧ (heard = true → writer.isSome)
  | .ended _ | .returned _ => True

/-- Where a call stands between two steps: its reports were honest so far, and while a rebuild is
owed it is on its way to one. -/
structure Rebuilding (st : Store σ ω) (s : Sync σ ω) : Prop where
  honest : Honest s.trace
  underway : owed s.trace = true → s.Rebuilds st

/-- Once a stream has ended only the reports matter. -/
theorem Rebuilding.of_ended {err : StreamError} (h : Honest s.trace) (hs : s.phase = .ended err) :
    s.Rebuilding st :=
  ⟨h, fun _ => by simp only [Rebuilds, hs]⟩

/-- Ending a stream observes nothing. -/
theorem Rebuilding.ends (s : Sync σ ω) (writer : Option ω) (err : StreamError)
    (h : Honest s.trace) : (s.ends st writer err).Rebuilding st :=
  .of_ended (by rwa [trace_ends]) (phase_ends st s writer err)

/-- A stream whose rebuild is done, or which writes a snapshot, may go on. -/
theorem Rebuilding.going {cursor : String} {writer : Option ω} (h : Honest s.trace)
    (hs : s.phase = .streaming cursor true writer)
    (howed : owed s.trace = true → cursor = "" ∧ writer.isSome) : s.Rebuilding st := by
  refine ⟨h, fun ho => ?_⟩
  simp only [Rebuilds, hs]
  exact ⟨(howed ho).1, fun _ => (howed ho).2⟩

theorem Rebuilding.stream {cursor : String} {heard : Bool} {writer : Option ω}
    (h : s.Rebuilding st) (hs : s.phase = .streaming cursor heard writer)
    (ho : owed s.trace = true) : cursor = "" ∧ (heard = true → writer.isSome) := by
  have hrebuilds := h.underway ho
  simp only [Rebuilds, hs] at hrebuilds
  exact hrebuilds

end Sync

open Sync

/-- The stream was lost: it ended neither with a Resync, nor in the store, nor with a status that a
retry cannot fix. -/
def StreamError.lost : StreamError → Bool
  | .resync | .store _ _ => false
  | err => !isPermanent err

/-- What the streams of a call do while a rebuild is owed: none is lost, unless the store has no
cursor to resume from.  And a stream opened without a cursor starts with a snapshot, or with another
Resync. -/
def rebuilds (st : Store σ ω) (s : Sync σ ω) : Label → Prop
  | .next cancelled =>
    match s.phase with
    | .ended err => owed s.trace = true → cancelled = false → err.lost = true →
        ∀ c ∈ (st.cursor s.store).2.toOption, c = ""
    | _ => True
  | .recv (.event event) =>
    match s.phase with
    | .streaming cursor heard _ =>
      cursor = "" → heard = false → event = .snapshotBegin ∨ event = .resync
    | _ => True
  | _ => True

instance (s : Sync σ ω) (l : Label) : Decidable (rebuilds st s l) := by
  unfold rebuilds
  split
  · split <;> infer_instance
  · split <;> infer_instance
  · infer_instance

namespace Sync

theorem Rebuilding.watch {failure : Option Code} {cursor : String} (h : Honest s.trace)
    (hcursor : owed s.trace = true → cursor = "") : (s.watch st failure cursor).Rebuilding st := by
  have hhonest : Honest (s.trace ++ [.opened cursor]) :=
    h.append fun _ heq => by cases heq
  unfold Sync.watch
  cases failure with
  | some code => exact .ends _ _ _ hhonest
  | none =>
    refine ⟨hhonest, fun ho => ?_⟩
    have howed : owed s.trace = true := by
      simpa [Sync.watch, observe, owedAfter] using ho
    exact ⟨hcursor howed, fun hheard => by cases hheard⟩

theorem Rebuilding.openStream {failure : Option Code} (h : s.Rebuilding st)
    (hs : s.phase = .opening) : (s.openStream st failure).Rebuilding st := by
  have hrestarts : owed s.trace = true → s.Restarts st := by
    intro ho
    have hrebuilds := h.underway ho
    simp only [Rebuilds, hs] at hrebuilds
    exact hrebuilds
  unfold Sync.openStream
  dsimp only
  split
  · exact .watch h.honest (fun _ => rfl)
  · next hsnapshot =>
    split
    · next store cursor hcursor =>
      refine .watch h.honest fun ho => ?_
      rcases hrestarts ho with hforced | hempty
      · exact absurd hforced hsnapshot
      · exact hempty cursor (by rw [hcursor]; rfl)
    · exact .ends _ _ _ h.honest

/-- While a rebuild is owed, a writer is at work when anything but the start of a snapshot or
another Resync arrives. -/
theorem Rebuilding.writing {cursor : String} {heard : Bool} {writer : Option ω} {event : Event}
    (h : s.Rebuilding st) (hs : s.phase = .streaming cursor heard writer)
    (hok : rebuilds st s (.recv (.event event))) (hbegin : event ≠ .snapshotBegin)
    (hresync : event ≠ .resync) (ho : owed s.trace = true) : cursor = "" ∧ writer.isSome := by
  obtain ⟨hcursor, hheard⟩ := h.stream hs ho
  refine ⟨hcursor, hheard ?_⟩
  by_contra hfirst
  simp only [rebuilds, hs] at hok
  rcases hok hcursor (by simpa using hfirst) with hev | hev
  · exact hbegin hev
  · exact hresync hev

/-- One event keeps the invariant.  Progress, the one event that reports a fresh state, is refused
while a snapshot is being written and does not start a stream that rebuilds. -/
theorem Rebuilding.handle {cursor : String} {heard : Bool} {writer : Option ω} {event : Event}
    (h : s.Rebuilding st) (hs : s.phase = .streaming cursor heard writer)
    (hok : rebuilds st s (.recv (.event event))) :
    (s.handle st cursor writer event).Rebuilding st := by
  have howed := h.stream hs
  have hwriter := h.writing hs hok
  cases event with
  | snapshotBegin =>
    have hhonest : Honest (s.setState false "").trace :=
      honest_setState h.honest fun hf => by cases hf
    unfold Sync.handle
    dsimp only
    split
    · exact .ends _ _ _ hhonest
    · refine .going hhonest rfl fun ho => ?_
      exact ⟨(howed (by simpa using ho)).1, rfl⟩
  | snapshotRows rows =>
    unfold Sync.handle
    cases writer with
    | none => exact .ends _ _ _ h.honest
    | some w =>
      dsimp only
      split
      · exact .ends _ _ _ h.honest
      · exact .going h.honest rfl fun ho => ⟨(howed ho).1, rfl⟩
  | snapshotEnd =>
    unfold Sync.handle
    cases writer with
    | none => exact .ends _ _ _ h.honest
    | some w =>
      dsimp only
      split
      · exact .ends _ _ _ h.honest
      · refine .going (h.honest.append fun _ heq => by cases heq) rfl fun ho => ?_
        simp [observe, owedAfter] at ho
  | batch batch =>
    unfold Sync.handle
    cases writer with
    | some w => exact .ends _ _ _ h.honest
    | none =>
      dsimp only
      split
      · exact .ends _ _ _ h.honest
      · exact .going h.honest rfl (hwriter nofun nofun)
  | progress confirmed =>
    unfold Sync.handle
    cases writer with
    | some w => exact .ends _ _ _ h.honest
    | none =>
      have hrebuilt : owed s.trace = false := by
        by_contra ho
        have := (hwriter nofun nofun (by simpa using ho)).2
        cases this
      dsimp only
      split
      · exact .ends _ _ _ h.honest
      · refine .going (honest_setState h.honest fun _ => hrebuilt) (phase_setState _ _ _) ?_
        intro ho
        simp [hrebuilt] at ho
  | resync => exact .ends _ _ _ (h.honest.append fun _ heq => by cases heq)
  | unknown type => exact .ends _ _ _ h.honest

/-- Unless the stream was lost, the call forces a snapshot or returns. -/
theorem snapshot_of_retry {s' : Sync σ ω} {err : StreamError} {retryNow : Bool}
    (h : s.retry err = some (s', retryNow)) (hlost : err.lost = false) : s'.snapshot = true := by
  unfold retry at h
  split at h
  · cases h
    rfl
  · cases h
  · next hresync hstore =>
    have hpermanent : isPermanent err = true := by
      cases err with
      | resync => exact absurd rfl hresync
      | store doing text => exact absurd rfl (hstore doing text)
      | status code => simpa [StreamError.lost] using hlost
      | new text => simpa [StreamError.lost] using hlost
    split at h
    · cases h
      rfl
    · cases h

/-- What follows a stream reports the projection stale.  The next stream rebuilds: a lost one is
followed by one that resumes, but then there is nothing to resume from. -/
theorem Rebuilding.recover {err : StreamError} {cancelled : Bool} (h : s.Rebuilding st)
    (hs : s.phase = .ended err) (hok : rebuilds st s (.next cancelled)) :
    (s.recover err cancelled).Rebuilding st := by
  have hhonest : Honest (s.setState false s.state.cursor).trace :=
    honest_setState h.honest fun hf => by cases hf
  have htrace : (s.recover err cancelled).trace = (s.setState false s.state.cursor).trace := by
    obtain ⟨_, _, _, _, heq, -⟩ := s.recover_eq err cancelled
    rw [heq]
  refine ⟨htrace ▸ hhonest, fun ho => ?_⟩
  rw [htrace, owed_setState] at ho
  simp only [rebuilds, hs] at hok
  unfold Sync.recover
  dsimp only
  split
  · trivial
  · next hcancelled =>
    split
    · trivial
    · next t retryNow hretry =>
      have hrestarts : t.Restarts st := by
        cases hlost : err.lost with
        | false => exact .inl (snapshot_of_retry hretry hlost)
        | true =>
          obtain ⟨_, _, rfl⟩ := retry_eq hretry
          right
          rw [store_setState]
          exact hok ho (by simpa using hcancelled) hlost
      split <;> (cases retryNow <;> exact hrestarts)

theorem Rebuilding.step {l : Label} (h : s.Rebuilding st) (hok : rebuilds st s l)
    (hs : s.step st l = some s') : s'.Rebuilding st := by
  cases step_cases hs with
  | opens failure hphase => exact h.openStream hphase
  | handles event hphase => exact h.handle hphase hok
  | eof => exact .ends _ _ _ h.honest
  | fails code => exact .ends _ _ _ h.honest
  | recovers cancelled hphase => exact h.recover hphase hok
  | stops => exact ⟨h.honest, fun _ => trivial⟩
  | waits hphase =>
    refine ⟨h.honest, fun ho => ?_⟩
    have hrebuilds := h.underway ho
    simp only [Rebuilds, hphase] at hrebuilds
    exact hrebuilds

end Sync

/-- **A resync keeps the projection stale.**  In every run of a Sync call that loses no stream while
a rebuild is owed, no fresh state is reported between a Resync and the next committed snapshot. -/
theorem stale_until_rebuilt (h : Reaches (machine st) (rebuilds st) s) :
    ∀ before state after, s.trace = before ++ .state state :: after → state.fresh = true →
      owed before = false := by
  have hinv : s.Rebuilding st := by
    refine h.invariant ?_ fun _ _ _ _ hI hok hs => hI.step hok hs
    rintro _ ⟨store, low, high, rfl⟩
    exact ⟨honest_nil, fun ho => by cases ho⟩
  exact hinv.honest

/-- After a lost stream the call waits, and will resume from the stored cursor. -/
theorem Sync.recover_of_lost (s : Sync σ ω) {err : StreamError} (hlost : err.lost = true) :
    (s.recover err false).phase = .waiting ∧ (s.recover err false).snapshot = false ∧
      (s.recover err false).store = s.store ∧ (s.recover err false).state.fresh = false ∧
      owed (s.recover err false).trace = owed s.trace := by
  have hretry : ∀ t : Sync σ ω, t.retry err = some ({ t with snapshot := false }, false) := by
    intro t
    cases err with
    | resync => cases hlost
    | store doing text => cases hlost
    | new text => rfl
    | status code => cases code <;> first | rfl | cases hlost
  unfold Sync.recover
  simp only [Bool.false_eq_true, if_false, hretry]
  split <;> simp

/-- A call that waits and forces no snapshot opens its next stream with the stored cursor. -/
theorem Sync.resumes_of_waiting {cursor : String} (h : Reaches (machine st) anyStep s)
    (hphase : s.phase = .waiting) (hsnapshot : s.snapshot = false)
    (hcursor : (st.cursor s.store).2 = .ok cursor) :
    ∃ s', Reaches (machine st) anyStep s' ∧ s'.phase = .streaming cursor false none ∧
      s'.state = s.state ∧ s'.trace = s.trace ++ [.opened cursor] := by
  obtain ⟨store, hread⟩ : ∃ store, st.cursor s.store = (store, .ok cursor) :=
    ⟨_, Prod.ext rfl hcursor⟩
  have hopens : (machine st).step s (.wait false) = some { s with
      phase := .opening, backoff := min (s.backoff * 2) s.maxBackoff } := by
    simp only [machine, step, hphase, Bool.false_eq_true, if_false]
  have hopening := h.step trivial hopens
  refine ⟨_, hopening.step (l := .open_ none) trivial rfl, ?_⟩
  simp [openStream, watch, observe, hsnapshot, hread]

/-- The first Progress that is saved reports a fresh state. -/
theorem Sync.trace_progress {store : σ} {cursor confirmed : String} (hfresh : s.state.fresh = false)
    (hsave : st.saveCursor s.store confirmed = (store, none)) :
    (s.handle st cursor none (.progress confirmed)).trace =
      s.trace ++ [.state ⟨true, confirmed⟩] := by
  have hnew : (⟨true, confirmed⟩ : State) ≠ s.state := by
    intro heq
    rw [← heq] at hfresh
    cases hfresh
  simp [Sync.handle, hsave, setState, hnew, observe]

namespace Demo

/-- A store that keeps nothing but its cursor; installing a snapshot clears it. -/
def keeping : Store String Unit where
  cursor c := (c, .ok c)
  beginSnapshot c := (c, .ok ())
  put c w _ := (c, w, none)
  commit _ _ := ("", none)
  abort c _ := (c, none)
  apply _ batch := (batch.cursor, none)
  saveCursor _ c := (c, none)

/-- A client with an empty store. -/
def start : Sync String Unit := .start "" 0 0

/-- Events received one after the other. -/
def recvs (events : List Event) : List Label := events.map fun e => .recv (.event e)

/-- A snapshot is installed and confirmed, then the server asks for a resync. -/
def resynced : List Label :=
  .open_ none :: recvs [.snapshotBegin, .snapshotEnd, .progress "c1", .resync] ++ [.next false]

/-- The stream that should rebuild is lost before its snapshot. -/
def cutOff : List Label := resynced ++ [.open_ none, .recv (.status .unavailable)]

/-- The next one resumes. -/
def lost : List Label :=
  cutOff ++ [.next false, .wait false, .open_ none] ++ recvs [.progress "c2"]

/-- The snapshot after a Resync is installed. -/
def rebuilt : List Label :=
  resynced ++ .open_ none :: recvs [.snapshotBegin, .snapshotEnd, .progress "c2"]

end Demo

/-- A stream lost during the rebuild makes the call forget it: it resumes from the cursor that
cannot be continued from, and the first progress is reported as fresh. -/
theorem fresh_while_owed :
    ∃ (s : Sync String Unit) (before after : List Obs) (state : State),
      Reaches (machine Demo.keeping) anyStep s ∧ s.trace = before ++ .state state :: after ∧
      state.fresh = true ∧ owed before = true := by
  have hrun : ∃ s ∈ runWhile (machine Demo.keeping) anyStep Demo.start Demo.lost,
      s.trace = [.opened "", .state ⟨false, ""⟩, .committed, .state ⟨true, "c1"⟩, .resync,
        .state ⟨false, "c1"⟩, .opened "", .opened "c1"] ++ [.state ⟨true, "c2"⟩] := by
    decide
  obtain ⟨s, hs, htrace⟩ := hrun
  exact ⟨s, _, [], ⟨true, "c2"⟩, .of_runWhile (.init ⟨"", 0, 0, rfl⟩) hs, htrace, rfl, by decide⟩

theorem stale_until_rebuilt_run :
    ∃ s : Sync String Unit, .resync ∈ s.trace ∧ .state ⟨true, "c2"⟩ ∈ s.trace ∧
      ∀ before state after, s.trace = before ++ .state state :: after → state.fresh = true →
        owed before = false := by
  have hrun : ∃ s ∈ runWhile (machine Demo.keeping) (rebuilds Demo.keeping) Demo.start Demo.rebuilt,
      .resync ∈ s.trace ∧ .state ⟨true, "c2"⟩ ∈ s.trace := by
    decide
  obtain ⟨s, hs, hresync, hfresh⟩ := hrun
  exact ⟨s, hresync, hfresh, stale_until_rebuilt (.of_runWhile (.init ⟨"", 0, 0, rfl⟩) hs)⟩

end Watchd.Sdk
