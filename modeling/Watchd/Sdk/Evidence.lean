import Watchd.Lib.History
import Watchd.Sdk.Freshness

/-!
# Fresh on current evidence

What `OnState` is told by each step of a Sync call: nothing, that the projection
is stale, or, once the store has saved the cursor of a Progress, that it is fresh.
So a fresh report needs a Progress on the open stream, and what a SnapshotBegin or
the end of a stream takes back stays taken back until the next one.

`fresh_on_evidence` states it over every run.
-/

namespace Watchd.Sdk

open Watchd.Lib

variable {σ ω : Type} {st : Store σ ω} {s s' : Sync σ ω} {l : Label}

/-- The state `OnState` was called with last. -/
def lastReported (trace : List Obs) : Option State :=
  trace.foldl (fun last o =>
    match o with
    | .state r => some r
    | _ => last) none

theorem lastReported_append_state (trace : List Obs) (r : State) :
    lastReported (trace ++ [.state r]) = some r := by
  simp [lastReported]

theorem lastReported_append {trace obs : List Obs} (hobs : ∀ r, .state r ∉ obs) :
    lastReported (trace ++ obs) = lastReported trace := by
  induction obs using List.reverseRecOn with
  | nil => rw [List.append_nil]
  | append_singleton obs o ih =>
    have hrest : ∀ r, .state r ∉ obs := fun r hr => hobs r (List.mem_append_left _ hr)
    rw [← ih hrest, ← List.append_assoc]
    simp only [lastReported, List.foldl_append, List.foldl_cons, List.foldl_nil]
    split
    · exact absurd (List.mem_append_right _ (List.mem_singleton.2 rfl)) (hobs _)
    · rfl

/-- The step takes a Progress on the open stream, with no snapshot being built, and saves its
cursor. -/
structure Confirms (st : Store σ ω) (s : Sync σ ω) (l : Label) (cursor : String) : Prop where
  received : l = .recv (.event (.progress cursor))
  streaming : ∃ opened heard, s.phase = .streaming opened heard none
  saved : (st.saveCursor s.store cursor).2 = none

namespace Sync

/-- What the reports depend on. -/
def report (s : Sync σ ω) : State × Bool × List Obs := (s.state, s.reported, s.trace)

@[simp] theorem report_ends (s : Sync σ ω) (writer : Option ω) (err : StreamError) :
    (s.ends st writer err).report = s.report := by
  cases writer <;> rfl

/-- What a step tells `OnState`. -/
inductive Told (st : Store σ ω) (s : Sync σ ω) (l : Label) (s' : Sync σ ω) : Prop
  | quiet (obs : List Obs) (hobs : ∀ r, .state r ∉ obs)
      (hreport : s'.report = (s.state, s.reported, s.trace ++ obs))
      (hbegin : l ≠ .recv (.event .snapshotBegin)) (hnext : ∀ cancelled, l ≠ .next cancelled)
  | stale (cursor : String) (hreport : s'.report = (s.setState false cursor).report)
  | fresh (cursor : String) (hreport : s'.report = (s.setState true cursor).report)
      (hconfirms : Confirms st s l cursor) (hstore : s'.store = (st.saveCursor s.store cursor).1)

/-- A step that observes nothing. -/
theorem Told.silent (hreport : s'.report = s.report) (hbegin : l ≠ .recv (.event .snapshotBegin))
    (hnext : ∀ cancelled, l ≠ .next cancelled) : Told st s l s' :=
  .quiet [] (fun _ => List.not_mem_nil) (by rw [hreport, List.append_nil]; rfl) hbegin hnext

theorem Told.watch {t : Sync σ ω} (ht : t.report = s.report) (failure : Option Code)
    (cursor : String) (hl : l = .open_ failure) : Told st s l (t.watch st failure cursor) := by
  subst hl
  refine .quiet [.opened cursor] (by simp) ?_ nofun nofun
  have htrace : t.trace = s.trace := congrArg (·.2.2) ht
  have hstate : t.state = s.state := congrArg (·.1) ht
  have hreported : t.reported = s.reported := congrArg (·.2.1) ht
  cases failure <;> simp [Sync.watch, report, observe, ends, htrace, hstate, hreported]

theorem Told.openStream (failure : Option Code) :
    Told st s (.open_ failure) (s.openStream st failure) := by
  unfold Sync.openStream
  dsimp only
  split
  · refine .watch ?_ failure _ rfl
    rfl
  · split
    · refine .watch ?_ failure _ rfl
      rfl
    · exact .silent (report_ends ..) nofun nofun

theorem Told.handle {cursor : String} {heard : Bool} {writer : Option ω}
    (hs : s.phase = .streaming cursor heard writer) (event : Event) :
    Told st s (.recv (.event event)) (s.handle st cursor writer event) := by
  cases event with
  | snapshotBegin =>
    refine .stale "" ?_
    unfold Sync.handle
    dsimp only
    split
    · exact report_ends ..
    · rfl
  | snapshotRows rows =>
    refine .silent ?_ nofun nofun
    unfold Sync.handle
    cases writer with
    | none => exact report_ends ..
    | some w =>
      dsimp only
      split
      · exact report_ends ..
      · rfl
  | snapshotEnd =>
    unfold Sync.handle
    cases writer with
    | none => exact .silent (report_ends ..) nofun nofun
    | some w =>
      dsimp only
      split
      · exact .silent (report_ends ..) nofun nofun
      · exact .quiet [.committed] (by simp) rfl nofun nofun
  | batch batch =>
    refine .silent ?_ nofun nofun
    unfold Sync.handle
    cases writer with
    | some w => exact report_ends ..
    | none =>
      dsimp only
      split
      · exact report_ends ..
      · rfl
  | progress confirmed =>
    unfold Sync.handle
    cases writer with
    | some w => exact .silent (report_ends ..) nofun nofun
    | none =>
      dsimp only
      split
      · exact .silent (report_ends ..) nofun nofun
      · next store hsave =>
        refine .fresh confirmed ?_ ⟨rfl, ⟨cursor, heard, hs⟩, by rw [hsave]⟩ ?_
        · unfold setState
          split <;> rfl
        · rw [store_setState, hsave]
  | resync => exact .quiet [.resync] (by simp) (report_ends ..) nofun nofun
  | unknown type => exact .silent (report_ends ..) nofun nofun

theorem report_recover (s : Sync σ ω) (err : StreamError) (cancelled : Bool) :
    (s.recover err cancelled).report = (s.setState false s.state.cursor).report := by
  obtain ⟨phase, backoff, snapshot, resyncs, heq, -⟩ := s.recover_eq err cancelled
  rw [heq]
  rfl

theorem store_recover (s : Sync σ ω) (err : StreamError) (cancelled : Bool) :
    (s.recover err cancelled).store = s.store := by
  obtain ⟨phase, backoff, snapshot, resyncs, heq, -⟩ := s.recover_eq err cancelled
  rw [heq]
  exact store_setState ..

theorem Told.step (hs : s.step st l = some s') : Told st s l s' := by
  cases step_cases hs with
  | opens failure => exact .openStream failure
  | handles event hphase => exact .handle hphase event
  | eof => exact .silent (report_ends ..) (by simp) (by simp)
  | fails code => exact .silent (report_ends ..) (by simp) (by simp)
  | recovers cancelled => exact .stale _ (report_recover ..)
  | stops => exact .silent rfl (by simp) (by simp)
  | waits => exact .silent rfl (by simp) (by simp)

@[simp] theorem reported_setState (s : Sync σ ω) (fresh : Bool) (cursor : String) :
    (s.setState fresh cursor).reported = true := by
  unfold setState
  split
  · next h => exact h.1
  · rfl

theorem trace_setState (s : Sync σ ω) (fresh : Bool) (cursor : String) :
    (s.setState fresh cursor).trace = s.trace ∨
      (s.setState fresh cursor).trace = s.trace ++ [.state ⟨fresh, cursor⟩] := by
  unfold setState
  split
  · exact .inl rfl
  · exact .inr rfl

/-- Once there is a report, the last one is the current state. -/
def Current (s : Sync σ ω) : Prop :=
  lastReported s.trace = if s.reported then some s.state else none

theorem Current.of_report (h : s.Current) (hreport : s'.report = s.report) : s'.Current := by
  obtain ⟨hstate, hrest⟩ := Prod.ext_iff.1 hreport
  obtain ⟨hreported, htrace⟩ := Prod.ext_iff.1 hrest
  unfold Current
  simp only [report] at hstate hreported htrace
  rw [htrace, hreported, hstate]
  exact h

theorem Current.setState (h : s.Current) (fresh : Bool) (cursor : String) :
    (s.setState fresh cursor).Current := by
  unfold Sync.setState
  split
  · exact h
  · exact lastReported_append_state ..

theorem Current.step (h : s.Current) (hs : s.step st l = some s') : s'.Current := by
  cases Told.step hs with
  | quiet obs hobs hreport =>
    have hobserved : Sync.Current { s with trace := s.trace ++ obs } := by
      unfold Current
      rw [lastReported_append hobs]
      exact h
    exact hobserved.of_report hreport
  | stale cursor hreport => exact (h.setState false cursor).of_report hreport
  | fresh cursor hreport => exact (h.setState true cursor).of_report hreport

/-- The last report says that the projection is stale. -/
structure Stale (s : Sync σ ω) : Prop where
  current : s.Current
  reported : s.reported = true
  stale : s.state.fresh = false

theorem Stale.of_report {cursor : String} (h : s.Current)
    (hreport : s'.report = (s.setState false cursor).report) : s'.Stale := by
  refine ⟨(h.setState false cursor).of_report hreport, ?_, ?_⟩
  · exact (congrArg (·.2.1) hreport).trans (reported_setState ..)
  · have hstate : s'.state = (s.setState false cursor).state := congrArg (·.1) hreport
    rw [hstate, state_setState]

/-- Only a confirmed Progress changes that. -/
theorem Stale.step (h : s.Stale) (hno : ∀ cursor, ¬Confirms st s l cursor)
    (hs : s.step st l = some s') : s'.Stale := by
  cases Told.step hs with
  | quiet obs hobs hreport =>
    exact ⟨h.current.step hs, (congrArg (·.2.1) hreport).trans h.reported,
      (congrArg (·.1.fresh) hreport).trans h.stale⟩
  | stale cursor hreport => exact .of_report h.current hreport
  | fresh cursor _ hconfirms => exact absurd hconfirms (hno cursor)

/-- A SnapshotBegin and the end of a stream are reported. -/
theorem Told.takenBack (ht : Told st s l s') (h : s.Current)
    (hl : l = .recv (.event .snapshotBegin) ∨ ∃ cancelled, l = .next cancelled) : s'.Stale := by
  cases ht with
  | quiet obs hobs hreport hbegin hnext =>
    rcases hl with hl | ⟨cancelled, hl⟩
    · exact absurd hl hbegin
    · exact absurd hl (hnext cancelled)
  | stale cursor hreport => exact .of_report h hreport
  | fresh cursor hreport hconfirms =>
    rw [hconfirms.received] at hl
    rcases hl with hl | ⟨cancelled, hl⟩ <;> cases hl

theorem Told.evidence (ht : Told st s l s') :
    ∃ obs, s'.trace = s.trace ++ obs ∧ ∀ cursor, .state ⟨true, cursor⟩ ∈ obs →
      obs = [.state ⟨true, cursor⟩] ∧ Confirms st s l cursor ∧
        s'.store = (st.saveCursor s.store cursor).1 := by
  cases ht with
  | quiet obs hobs hreport =>
    exact ⟨obs, congrArg (·.2.2) hreport, fun cursor hmem => absurd hmem (hobs _)⟩
  | stale cursor hreport =>
    have htrace : s'.trace = (s.setState false cursor).trace := congrArg (·.2.2) hreport
    rcases s.trace_setState false cursor with hsame | hnew
    · exact ⟨[], by rw [htrace, hsame, List.append_nil], fun _ hmem => absurd hmem List.not_mem_nil⟩
    · exact ⟨_, htrace.trans hnew, fun _ hmem => by simp at hmem⟩
  | fresh cursor hreport hconfirms hstore =>
    have htrace : s'.trace = (s.setState true cursor).trace := congrArg (·.2.2) hreport
    rcases s.trace_setState true cursor with hsame | hnew
    · exact ⟨[], by rw [htrace, hsame, List.append_nil], fun _ hmem => absurd hmem List.not_mem_nil⟩
    · refine ⟨_, htrace.trans hnew, fun cursor' hmem => ?_⟩
      cases List.mem_singleton.1 hmem
      exact ⟨rfl, hconfirms, hstore⟩

/-- Once `stream` has returned, `Sync` goes on, without the store. -/
theorem step_of_ended {err : StreamError} (hphase : s.phase = .ended err)
    (hs : s.step st l = some s') :
    (∃ cancelled, l = .next cancelled) ∧ s'.store = s.store := by
  cases l with
  | next cancelled =>
    simp only [step, hphase] at hs
    cases hs
    exact ⟨⟨cancelled, rfl⟩, store_recover s err cancelled⟩
  | _ =>
    simp only [step, hphase] at hs
    cases hs

theorem Stale.last (h : s.Stale) : ∃ r, lastReported s.trace = some r ∧ r.fresh = false :=
  ⟨s.state, by rw [h.current, h.reported]; rfl, h.stale⟩

end Sync

/-- From `s` on, until a Progress is confirmed, the last reported state is not fresh. -/
def StaleFrom (st : Store σ ω) (s : Sync σ ω) : Prop :=
  ∀ t, Reaches ((machine st).startedAt s) (fun s l => ∀ cursor, ¬Confirms st s l cursor) t →
    ∃ r, lastReported t.trace = some r ∧ r.fresh = false

theorem Sync.Stale.lasts (h : s.Stale) : StaleFrom st s := by
  intro t ht
  have hstale : t.Stale := by
    refine ht.invariant ?_ fun _ _ _ _ hI hno hs => hI.step hno hs
    rintro _ rfl
    exact h
  exact hstale.last

theorem current_of_reaches (h : Reaches (machine st) anyStep s) : s.Current := by
  refine h.invariant ?_ fun _ _ _ _ hI _ hs => hI.step hs
  rintro _ ⟨store, low, high, rfl⟩
  rfl

/-- **The SDK is fresh only on current evidence.**  In every run of a Sync call, over any store: a
step that reports the projection fresh at a cursor takes a Progress with that cursor on the open
stream, with no snapshot being built, and reports it once the store has saved the cursor; from each
SnapshotBegin, and from the step that follows the end of a stream, the projection stays reported
stale until the next such Progress. -/
theorem fresh_on_evidence (h : Reaches (machine st) anyStep s) (hs : s.step st l = some s') :
    (∃ obs, s'.trace = s.trace ++ obs ∧ ∀ cursor, .state ⟨true, cursor⟩ ∈ obs →
      obs = [.state ⟨true, cursor⟩] ∧ Confirms st s l cursor ∧
        s'.store = (st.saveCursor s.store cursor).1) ∧
    (l = .recv (.event .snapshotBegin) → StaleFrom st s') ∧
    (∀ err, s.phase = .ended err →
      (∃ cancelled, l = .next cancelled) ∧ s'.store = s.store ∧ StaleFrom st s') := by
  have hcurrent := current_of_reaches h
  have htold := Sync.Told.step hs
  refine ⟨htold.evidence, fun hl => (htold.takenBack hcurrent (.inl hl)).lasts,
    fun err hphase => ?_⟩
  obtain ⟨hnext, hstore⟩ := Sync.step_of_ended hphase hs
  exact ⟨hnext, hstore, (htold.takenBack hcurrent (.inr hnext)).lasts⟩

/-- The stream that confirmed a cursor is lost, with the projection reported fresh. -/
def Demo.confirmed : List Label :=
  .open_ none :: Demo.recvs [.snapshotBegin, .snapshotEnd, .progress "c1"] ++ [.recv .eof]

theorem fresh_on_evidence_run :
    ∃ s s' : Sync String Unit, lastReported s.trace = some ⟨true, "c1"⟩ ∧
      s.step Demo.keeping (.next false) = some s' ∧ lastReported s'.trace = some ⟨false, "c1"⟩ ∧
      StaleFrom Demo.keeping s' := by
  have hrun : ∃ s ∈ runWhile (machine Demo.keeping) anyStep Demo.start Demo.confirmed,
      lastReported s.trace = some ⟨true, "c1"⟩ ∧
      s.phase = .ended (.new "watchd: server ended the stream") ∧
      ∃ s' ∈ s.step Demo.keeping (.next false), lastReported s'.trace = some ⟨false, "c1"⟩ :=
    ⟨_, rfl, rfl, rfl, _, rfl, rfl⟩
  obtain ⟨s, hs, hfresh, hphase, s', hs', hstale⟩ := hrun
  have hreaches : Reaches (machine Demo.keeping) anyStep s :=
    .of_runWhile (.init ⟨"", 0, 0, rfl⟩) hs
  exact ⟨s, s', hfresh, hs', hstale, ((fresh_on_evidence hreaches hs').2.2 _ hphase).2.2⟩

end Watchd.Sdk
