import Watchd.Sdk.Pacing
import Watchd.Server.Status

/-!
# A client that does not give up

What the server tells a Watch call, taken together with what `Sync` makes of it.
While the projection is configured and the source in order, no status that the
server can end a stream with is permanent, and a cursor it refuses is dropped for a
snapshot; so a Sync call that is not cancelled ends only with its own store.

`sync_persists` states it.
-/

namespace Watchd.Sdk

open Watchd.Cdc Watchd.Lib Watchd.Wire

/-- A server and a hub that serve a projection, where Watch calls are given such errors. -/
structure Serving where
  srv : Server
  hub : Watch.Hub
  fromError : GoError → Option Status
  given : GoError → Prop
  projection : String
  scope : Text
  configured : hub.projections.lookup projection ≠ none
  /-- no snapshot finds the source misconfigured -/
  inOrder : ∀ err, given err →
    err.is .invalidReaderConfig = false ∧ err.is .insufficientPrivileges = false
  /-- no send fails for good -/
  transient : ∀ err st, given err → fromError err = some st → isPermanent (.status st.code) = false

namespace Serving

variable (V : Serving)

/-- How the server may end a stream that was opened with `cursor`. -/
inductive Ends (cursor : String) : Code → Prop
  | refused {text : String}
      (hreq : V.srv.request V.hub.parseLSN V.projection V.scope cursor = .error text) :
    Ends cursor .invalidArgument
  | told {req : Watch.Request} {status : Status}
      (hreq : V.srv.request V.hub.parseLSN V.projection V.scope cursor = .ok req)
      (htold : Disclosed V.fromError V.hub req V.given status) : Ends cursor status.code
  /-- the connection fails -/
  | dropped {code : Code} (hcode : isPermanent (.status code) = false) : Ends cursor code

/-- The call is not cancelled, and its streams end as the server ends them. -/
def answers {σ ω : Type} (s : Sync σ ω) : Label → Prop
  | .open_ (some code) => isPermanent (.status code) = false
  | .recv (.status code) => ∀ cursor heard writer, s.phase = .streaming cursor heard writer →
      V.Ends cursor code
  | .next cancelled | .wait cancelled => cancelled = false
  | _ => True

variable {V}

theorem disclosed_transient {req : Watch.Request} {status : Status}
    (hreq : req.projection = V.projection)
    (h : Disclosed V.fromError V.hub req V.given status) :
    isPermanent (.status status.code) = false := by
  cases h with
  | context ctxErr => cases ctxErr <;> rfl
  | unknownProjection hp =>
    rw [hreq] at hp
    exact absurd hp V.configured
  | sent err herr hst => exact V.transient err _ herr hst
  | unavailable => rfl
  | misconfigured err herr hkind =>
    obtain ⟨hconfig, hprivileges⟩ := V.inOrder err herr
    rw [hconfig, hprivileges] at hkind
    obtain hkind | hkind := hkind <;> cases hkind
  | internal => rfl

/-- A stream is ended for good only if it had a cursor, and then as one that is refused. -/
theorem Ends.transient {cursor : String} {code : Code} (h : V.Ends cursor code) :
    isPermanent (.status code) = false ∨ code = .invalidArgument ∧ cursor ≠ "" := by
  cases h with
  | refused hreq =>
    refine .inr ⟨rfl, ?_⟩
    rintro rfl
    cases hreq
  | told hreq htold =>
    refine .inl (disclosed_transient ?_ htold)
    rcases Server.request_ok hreq with rfl | ⟨_, -, rfl⟩ <;> rfl
  | dropped hcode => exact .inl hcode

end Serving

/-! ## Every run -/

section Run

variable {σ ω : Type} {st : Store σ ω} {V : Serving}

/-- What a call that is never refused for good is up to. -/
def Phase.Persists {ω : Type} (snapshot : Bool) : Phase ω → Prop
  | .streaming cursor _ _ => snapshot = true → cursor = ""
  | .ended err => (∃ doing text, err = .store doing text) ∨ isPermanent err = false ∨
      err.code = .invalidArgument ∧ snapshot = false
  | .returned result => ∃ doing text, result = some (.store doing text)
  | .opening | .waiting => True

/-- `Sync` has not given up. -/
def Persists (s : Sync σ ω) : Prop := s.phase.Persists s.snapshot

theorem snapshot_setState (s : Sync σ ω) (fresh : Bool) (cursor : String) :
    (s.setState fresh cursor).snapshot = s.snapshot :=
  congrArg Plan.snapshot (Sync.plan_setState s fresh cursor)

theorem persists_ends (st : Store σ ω) {s : Sync σ ω} {err : StreamError} (writer : Option ω)
    (h : (Phase.ended err : Phase ω).Persists s.snapshot) : Persists (s.ends st writer err) := by
  cases writer <;> exact h

theorem persists_watch {s : Sync σ ω} {failure : Option Code} {cursor : String}
    (hfailure : ∀ code, failure = some code → isPermanent (.status code) = false)
    (hcursor : s.snapshot = true → cursor = "") : Persists (s.watch st failure cursor) := by
  cases failure with
  | none => exact hcursor
  | some code => exact .inr (.inl (hfailure code rfl))

theorem persists_openStream (s : Sync σ ω) {failure : Option Code}
    (hfailure : ∀ code, failure = some code → isPermanent (.status code) = false) :
    Persists (s.openStream st failure) := by
  unfold Sync.openStream
  dsimp only
  split
  · exact persists_watch hfailure fun _ => rfl
  · next hsnapshot =>
    split
    · exact persists_watch hfailure fun h => absurd h hsnapshot
    · exact .inl ⟨_, _, rfl⟩

/-- Events end a stream with the store's failure or with something that passes. -/
theorem persists_handle {s : Sync σ ω} {cursor : String} (writer : Option ω)
    (hcursor : s.snapshot = true → cursor = "") (event : Event) :
    Persists (s.handle st cursor writer event) := by
  cases event with
  | snapshotBegin =>
    simp only [Sync.handle]
    split
    · exact persists_ends st none (.inl ⟨_, _, rfl⟩)
    · exact fun h => hcursor ((snapshot_setState s false "").symm.trans h)
  | snapshotRows rows =>
    cases writer with
    | none => exact persists_ends st none (.inr (.inl rfl))
    | some w =>
      simp only [Sync.handle]
      split
      · exact persists_ends st _ (.inl ⟨_, _, rfl⟩)
      · exact hcursor
  | snapshotEnd =>
    cases writer with
    | none => exact persists_ends st none (.inr (.inl rfl))
    | some w =>
      simp only [Sync.handle]
      split
      · exact persists_ends st none (.inl ⟨_, _, rfl⟩)
      · exact hcursor
  | batch batch =>
    cases writer with
    | some w => exact persists_ends st (some w) (.inr (.inl rfl))
    | none =>
      simp only [Sync.handle]
      split
      · exact persists_ends st none (.inl ⟨_, _, rfl⟩)
      · exact hcursor
  | progress confirmed =>
    cases writer with
    | some w => exact persists_ends st (some w) (.inr (.inl rfl))
    | none =>
      simp only [Sync.handle]
      split
      · exact persists_ends st none (.inl ⟨_, _, rfl⟩)
      · unfold Persists
        rw [Sync.phase_setState, snapshot_setState]
        exact hcursor
  | resync => exact persists_ends st writer (.inr (.inl rfl))
  | unknown type => exact persists_ends st writer (.inr (.inl rfl))

theorem Persists.recover {s : Sync σ ω} {err : StreamError} (h : Persists s)
    (hphase : s.phase = .ended err) : Persists (s.recover err false) := by
  unfold Persists at h
  rw [hphase] at h
  unfold Sync.recover
  dsimp only
  rw [if_neg Bool.false_ne_true]
  cases hretry : (s.setState false s.state.cursor).retry err with
  | none =>
    obtain ⟨doing, text, rfl⟩ | ⟨hpermanent, hcode⟩ := retry_eq_none hretry
    · exact ⟨doing, text, rfl⟩
    · rw [snapshot_setState] at hcode
      obtain ⟨doing, text, rfl⟩ | htransient | ⟨hinvalid, hkept⟩ := h
      · cases hpermanent
      · rw [htransient] at hpermanent
        cases hpermanent
      · rw [hcode hinvalid] at hkept
        cases hkept
  | some next =>
    obtain ⟨t, retryNow⟩ := next
    cases retryNow <;> trivial

theorem Persists.step {s s' : Sync σ ω} {l : Label} (h : Persists s) (hok : V.answers s l)
    (hs : s.step st l = some s') : Persists s' := by
  cases Sync.step_cases hs with
  | opens failure hphase =>
    refine persists_openStream s fun code hcode => ?_
    subst hcode
    exact hok
  | handles event hphase =>
    unfold Persists at h
    rw [hphase] at h
    exact persists_handle _ h event
  | eof hphase => exact persists_ends st _ (.inr (.inl rfl))
  | fails code hphase =>
    unfold Persists at h
    rw [hphase] at h
    obtain htransient | ⟨rfl, hcursor⟩ := (hok _ _ _ hphase).transient
    · exact persists_ends st _ (.inr (.inl htransient))
    · refine persists_ends st _ (.inr (.inr ⟨rfl, ?_⟩))
      by_contra hsnapshot
      exact hcursor (h (by simpa using hsnapshot))
  | recovers cancelled hphase =>
    cases (show cancelled = false from hok)
    exact h.recover hphase
  | stops hphase => cases hok
  | waits hphase => trivial

/-- **A Sync call outlasts its server.**  While the projection is configured and the source in
order, whatever fails between the store of the client and PostgreSQL: a call that is not cancelled
returns only a failure of that store. -/
theorem sync_persists {s : Sync σ ω} (h : Reaches (machine st) V.answers s)
    {result : Option StreamError} (hresult : s.phase = .returned result) :
    ∃ doing text, result = some (.store doing text) := by
  have hpersists : Persists s := by
    refine Reaches.invariant ?_ (fun _ _ _ _ hs hok hstep => hs.step hok hstep) h
    rintro s ⟨store, minBackoff, maxBackoff, rfl⟩
    trivial
  unfold Persists at hpersists
  rw [hresult] at hpersists
  exact hpersists

end Run

namespace Demo

/-- A store that has a cursor of another source, and no room for a new one. -/
def full : Store Unit Unit := { obliging with saveCursor := fun s _ => (s, some "disk full") }

/-- What a stream was opened with. -/
def openedWith : Phase Unit → Option String
  | .streaming cursor _ _ => some cursor
  | _ => none

/-- The stored cursor is refused, and the server may be unavailable. -/
def flaky (s : Sync Unit Unit) : Label → Prop
  | .open_ (some _) => False
  | .recv (.status code) => code = .unavailable ∨
      code = .invalidArgument ∧ openedWith s.phase = some "old@0/64"
  | .next cancelled | .wait cancelled => cancelled = false
  | _ => True

instance (s : Sync Unit Unit) : (l : Label) → Decidable (flaky s l)
  | .open_ (some _) => .isFalse id
  | .recv (.status code) => inferInstanceAs (Decidable (code = .unavailable ∨
      code = .invalidArgument ∧ openedWith s.phase = some "old@0/64"))
  | .next cancelled | .wait cancelled => instDecidableEqBool cancelled false
  | .open_ none | .recv (.event _) | .recv .eof => .isTrue trivial

/-- A hub that serves the members. -/
def servingHub : Watch.Hub where
  sourceID := "main"
  projections := (∅ : Finmap fun _ : String => Watch.Projection).insert "members"
    ⟨Watch.Demo.spec, "public.members"⟩
  parseLSN := Wire.Demo.parseHexLSN
  window := { maxReplay := 10 }
  registry := { queueSize := 1, cell := fun _ => .blank }

/-- The members projection, served by a hub whose calls fail only for want of a connection. -/
def served : Serving where
  srv := Wire.Demo.mainServer
  hub := servingHub
  fromError _ := none
  given err := err = errSourceUnavailable
  projection := "members"
  scope := Watch.Demo.tenant
  configured := by decide
  inOrder err herr := by
    rw [herr]
    exact ⟨rfl, rfl⟩
  transient _ _ _ hst := by cases hst

theorem answers_of_flaky (s : Sync Unit Unit) (l : Label) (h : flaky s l) : served.answers s l := by
  cases l with
  | open_ failure =>
    cases failure with
    | none => trivial
    | some code => exact h.elim
  | recv r =>
    cases r with
    | status code =>
      intro cursor heard writer hphase
      obtain rfl | ⟨rfl, hcursor⟩ := h
      · exact .dropped rfl
      · rw [hphase] at hcursor
        cases hcursor
        have hreq : served.srv.request served.hub.parseLSN served.projection served.scope
            "old@0/64" = .error "cursor belongs to source \"old\", not \"main\"" := by decide
        exact .refused hreq
    | event | eof => trivial
  | next | wait => exact h

/-- The call starts over without its cursor, outlasts an outage, and cannot store its progress. -/
def outage : List Label :=
  [.open_ none, .recv (.status .invalidArgument), .next false, .open_ none] ++ unavailable ++
    [.open_ none, .recv (.event (.progress "main@0/64")), .next false]

end Demo

theorem sync_persists_full :
    ∃ s doing text, Reaches (machine Demo.full) Demo.served.answers s ∧
      s.phase = .returned (some (.store doing text)) ∧ lastOpened s.trace = some "old@0/64" := by
  have hinit : Reaches (machine Demo.full) Demo.flaky (.start () 0 0) := .init ⟨(), 0, 0, rfl⟩
  have hrun : (runWhile (machine Demo.full) Demo.flaky (.start () 0 0) Demo.outage).map
      (fun s => (s.phase.result.isSome, lastOpened s.trace)) = some (true, some "old@0/64") := by
    decide
  obtain ⟨s, hs, hends⟩ := Option.map_eq_some_iff.1 hrun
  obtain ⟨hreturned, hopened⟩ := Prod.ext_iff.1 hends
  have hreach : Reaches (machine Demo.full) Demo.served.answers s :=
    (Reaches.of_runWhile hinit hs).mono Demo.answers_of_flaky
  obtain ⟨result, hresult⟩ := Option.isSome_iff_exists.1 hreturned
  have hphase := Phase.eq_returned hresult
  obtain ⟨doing, text, rfl⟩ := sync_persists hreach hphase
  exact ⟨s, doing, text, hreach, hphase, hopened⟩

end Watchd.Sdk
