import Watchd.Cdc.Sessions
import Watchd.Sdk.Client
import Watchd.Server.Order
import Watchd.Watch.Causes
import Watchd.Watch.Delivery

/-!
# What a Watch call tells its client

The server turns the error of a Watch call into a gRPC status.  Behind it the hub
fails a call only for its request, for a comparison across sources, or with what the
call was given; so every status is accounted for, and its text is a fixed one, the
request's own, or that of a failed send.

`watch_tells` states it for every run.
-/

namespace Watchd.Wire

open Watchd.Cdc Watchd.Lib Watchd.Watch

/-- A gRPC status. -/
structure Status where
  code : Sdk.Code
  message : String
  deriving DecidableEq

/-- `ctx.Err()`. -/
inductive ContextError
  | canceled
  | deadlineExceeded
  deriving DecidableEq

/-- `status.FromContextError`. -/
def fromContextError : ContextError → Status
  | .canceled => ⟨.canceled, "context canceled"⟩
  | .deadlineExceeded => ⟨.deadlineExceeded, "context deadline exceeded"⟩

/-- `Server.status` of an error, over `status.FromError` and the state of the stream's context. -/
def status (fromError : GoError → Option Status) (ctx : Option ContextError) (err : GoError) :
    Status :=
  match ctx with
  | some ctxErr => fromContextError ctxErr
  | none =>
    match fromError err with
    -- already a status, e.g. from `stream.Send`
    | some st => st
    | none =>
      if err.is .unknownProjection then ⟨.notFound, err.text⟩
      else if err.is .invalidCursor then ⟨.invalidArgument, err.text⟩
      else if err.isErr errSourceUnavailable ∨ err.is .sourceNotStarted ∨ err.is .slotInUse then
        ⟨.unavailable, "source unavailable"⟩
      else if err.is .invalidReaderConfig ∨ err.is .insufficientPrivileges then
        ⟨.failedPrecondition, "source is misconfigured for this projection"⟩
      else ⟨.internal, "internal error"⟩

/-! ## Calls through the server -/

/-- The server and the hub behind it are of one source, and read each other's positions. -/
structure Server.Fits (srv : Server) (h : Hub) : Prop where
  serves : srv.Serves
  source : h.sourceID = srv.sourceID
  readsBack : ReadsBack srv.lsnString h.parseLSN
  bounded : ∀ text lsn, h.parseLSN text = some lsn → lsn < 2 ^ 64

theorem Server.Fits.of_fixed {srv : Server} {h h' : Hub} (hfits : srv.Fits h')
    (hsource : h'.sourceID = h.sourceID) (hparse : h'.parseLSN = h.parseLSN) : srv.Fits h :=
  ⟨hfits.serves, hsource ▸ hfits.source, hparse ▸ hfits.readsBack, hparse ▸ hfits.bounded⟩

/-- The error does not speak about a request. -/
structure Blameless (err : GoError) : Prop where
  projection : err.is .unknownProjection = false
  cursor : err.is .invalidCursor = false

/-- Every call comes through the server, and what fails around it with no status of its own blames
no request. -/
def through (srv : Server) (fromError : GoError → Option Status) (p : System × Given) :
    Watch.Label → Prop
  | .open_ req => ∃ projection scope resumeCursor,
      srv.request p.1.hub.parseLSN projection scope resumeCursor = .ok req
  | .watch _ act => ∀ err, act.error = some err → fromError err = none → Blameless err
  | _ => True

/-- The statuses a Watch call can end with. -/
inductive Disclosed (fromError : GoError → Option Status) (h : Hub) (req : Request)
    (given : GoError → Prop) : Status → Prop
  | context (ctxErr : ContextError) : Disclosed fromError h req given (fromContextError ctxErr)
  | unknownProjection (hp : h.projections.lookup req.projection = none) :
    Disclosed fromError h req given
      ⟨.notFound, "watch: unknown projection: " ++ quote req.projection⟩
  /-- what a send failed with -/
  | sent {st : Status} (err : GoError) (herr : given err) (hst : fromError err = some st) :
    Disclosed fromError h req given st
  | unavailable : Disclosed fromError h req given ⟨.unavailable, "source unavailable"⟩
  | misconfigured (err : GoError) (herr : given err)
      (hkind : err.is .invalidReaderConfig = true ∨ err.is .insufficientPrivileges = true) :
    Disclosed fromError h req given
      ⟨.failedPrecondition, "source is misconfigured for this projection"⟩
  | internal : Disclosed fromError h req given ⟨.internal, "internal error"⟩

section

variable {srv : Server} {fromError : GoError → Option Status} {h : Hub} {req : Request}
  {given : GoError → Prop} {err : GoError}

theorem Server.decodeCursor_parsed {parseLSN : String → Option Nat} {text : String} {c : Cursor}
    (hc : srv.decodeCursor parseLSN text = .ok c) : ∃ position, parseLSN position = some c.lsn := by
  unfold Server.decodeCursor at hc
  split at hc
  · cases hc
  · next sourceID position _ =>
    split at hc
    · cases hc
    · split at hc
      · cases hc
      · next cursor hparse =>
        cases hc
        refine ⟨position, ?_⟩
        unfold parseCursor at hparse
        split at hparse
        · cases hparse
        · split at hparse
          · cases hparse
          · next lsn hlsn =>
            cases hparse
            exact hlsn

/-- The cursor of a request that the server has made is one that the hub can read. -/
theorem Server.Fits.parses (hfits : srv.Fits h) {projection : String} {scope : Text}
    {resumeCursor : String}
    (hreq : srv.request h.parseLSN projection scope resumeCursor = .ok req)
    (hcursor : req.resumeCursor ≠ "") :
    ∃ c, parseCursor h.parseLSN h.sourceID req.resumeCursor = .ok c := by
  rcases Server.request_ok hreq with rfl | ⟨c, hdecode, rfl⟩
  · exact absurd rfl hcursor
  · obtain ⟨position, hposition⟩ := Server.decodeCursor_parsed hdecode
    have hbound := hfits.bounded position c.lsn hposition
    exact ⟨⟨h.sourceID, c.lsn⟩, by
      simp only [parseCursor, hfits.source, if_neg hfits.serves.1, hfits.readsBack c.lsn hbound]⟩

theorem apply_eq_new {need : Need} {t : Transaction} (h : need.apply t = .error err) :
    ∃ text, err = .new text := by
  cases need with
  | after cursor =>
    simp only [Need.apply, Transaction.after] at h
    split at h
    · cases h
      exact ⟨_, rfl⟩
    · cases h
  | notCovered snapshot =>
    simp only [Need.apply, Snapshot.covers] at h
    split at h
    · cases h
      exact ⟨_, rfl⟩
    · split at h
      · cases h
      · cases h

/-- A blameless error is told in a fixed text, or in its own status. -/
theorem disclosed_of_given (hblameless : fromError err = none → Blameless err)
    (hgiven : given err) :
    Disclosed fromError h req given (status fromError none err) := by
  unfold status
  dsimp only
  split
  · next st hst => exact .sent err hgiven hst
  · next hnone =>
    have hb := hblameless hnone
    rw [hb.projection, hb.cursor, if_neg Bool.false_ne_true, if_neg Bool.false_ne_true]
    split
    · exact .unavailable
    · split
      · next hkind => exact .misconfigured err hgiven hkind
      · exact .internal

theorem disclosed_of_cause (hown : ∀ err, Cause h req (fun _ => False) err → fromError err = none)
    (hparses : req.resumeCursor ≠ "" →
      ∃ c, parseCursor h.parseLSN h.sourceID req.resumeCursor = .ok c)
    (hblameless : ∀ err, given err → fromError err = none → Blameless err)
    (hcause : Cause h req given err) (ctx : Option ContextError) :
    Disclosed fromError h req given (status fromError ctx err) := by
  cases ctx with
  | some ctxErr => exact .context ctxErr
  | none =>
    cases hcause with
    | unknownProjection hp =>
      have hnone := hown _ (.unknownProjection hp)
      have htext : (errorf .unknownProjection (": " ++ quote req.projection)).text =
          "watch: unknown projection: " ++ quote req.projection := by
        simp only [errorf, GoError.text, Sentinel.text, String.empty_append, ← String.append_assoc]
        rfl
      have hstatus : status fromError none
          (errorf .unknownProjection (": " ++ quote req.projection)) =
          ⟨.notFound, "watch: unknown projection: " ++ quote req.projection⟩ := by
        unfold status
        rw [hnone, ← htext]
        rfl
      rw [hstatus]
      exact .unknownProjection hp
    | cursor hcursor herr =>
      obtain ⟨c, hc⟩ := hparses hcursor
      rw [hc] at herr
      cases herr
    | incomparable need t herr =>
      have hnone := hown _ (.incomparable need t herr)
      obtain ⟨text, rfl⟩ := apply_eq_new herr
      unfold status
      rw [hnone]
      simp only [GoError.is, Bool.false_eq_true, if_false, or_false]
      split
      · exact .unavailable
      · exact .internal
    | given herr => exact disclosed_of_given (hblameless _ herr) herr

end

/-! ## Every run -/

section Run

variable {srv : Server} {fromError : GoError → Option Status}

/-- The hub can read the cursor of every request, and nothing given to a watch blames it. -/
structure Proper (fromError : GoError → Option Status) (p : System × Given) : Prop where
  parses : ∀ (id : WatcherId) (ws : WatchState), p.1.watches[id]? = some ws →
    ws.request.resumeCursor ≠ "" →
      ∃ c, parseCursor p.1.hub.parseLSN p.1.hub.sourceID ws.request.resumeCursor = .ok c
  blameless : ∀ id err, (id, err) ∈ p.2 → fromError err = none → Blameless err

theorem Proper.step {p p' : System × Given} {l : Watch.Label} (h : Proper fromError p)
    (hfits : srv.Fits p.1.hub) (hok : through srv fromError p l)
    (hs : notingGiven.step p l = some p') : Proper fromError p' := by
  obtain ⟨hstep, hnote⟩ := Machine.noting_step hs
  obtain ⟨hsource, hparse, -⟩ := System.step_fixed hstep
  refine ⟨fun id ws' hws' hcursor => ?_, fun id err hmem hnone => ?_⟩
  · rw [hsource, hparse]
    obtain ⟨ws, hws, hreq, -⟩ | ⟨req, rfl, hreq, -⟩ | ⟨act, ws, m, -, hws, -, hreq, -⟩ :=
      System.step_watch hstep hws'
    · rw [hreq] at hcursor ⊢
      exact h.parses id ws hws hcursor
    · obtain ⟨projection, scope, resumeCursor, hmade⟩ := hok
      rw [hreq] at hcursor ⊢
      exact hfits.parses hmade hcursor
    · rw [hreq] at hcursor ⊢
      exact h.parses id ws hws hcursor
  · rw [hnote] at hmem
    cases l with
    | watch id' act =>
      obtain hold | hnew := List.mem_append.1 hmem
      · exact h.blameless id err hold hnone
      · obtain ⟨e, he, heq⟩ := List.mem_map.1 hnew
        cases heq
        exact hok err (Option.mem_toList.1 he) hnone
    | accept | close | stop | open_ => exact h.blameless id err hmem hnone

theorem proper {p : System × Given} (h : Reaches notingGiven (through srv fromError) p)
    (hfits : srv.Fits p.1.hub) : Proper fromError p := by
  induction h with
  | @init p h =>
    obtain ⟨⟨parseLSN, cfg, hub, -, hs⟩, hg⟩ := h
    refine ⟨fun id ws hws => ?_, fun id err hmem => ?_⟩
    · rw [hs] at hws
      cases hws
    · rw [hg] at hmem
      cases hmem
  | step _ hok hs ih =>
    obtain ⟨hsource, hparse, -⟩ := System.step_fixed (Machine.noting_step hs).1
    have hbefore := hfits.of_fixed hsource hparse
    exact (ih hbefore).step hbefore hok hs

end Run

namespace Demo

/-- What the snapshotter fails with when the publication is gone. -/
def unpublished : GoError := errorf .invalidReaderConfig ": publication \"pub\" does not exist"

/-- A send on a broken connection, which gRPC gives a status. -/
def broken : GoError := .wrap "rpc error: " (.new "transport is closing") ""

/-- The status of a send on a broken stream. -/
def sendStatus (err : GoError) : Option Status :=
  if err = broken then some ⟨.unavailable, "transport is closing"⟩ else none

theorem sendStatus_errorf (sentinel : Sentinel) (after : String) :
    sendStatus (errorf sentinel after) = none := by
  refine if_neg fun h => ?_
  injection h with hbefore
  exact absurd hbefore (by decide)

theorem sendStatus_own {h : Hub} {req : Request} {err : GoError}
    (herr : Cause h req (fun _ => False) err) : sendStatus err = none := by
  cases herr with
  | unknownProjection hp => exact sendStatus_errorf ..
  | cursor hcursor hparse =>
    unfold parseCursor at hparse
    split at hparse
    · cases hparse
      exact sendStatus_errorf ..
    · split at hparse
      · cases hparse
        exact sendStatus_errorf ..
      · cases hparse
  | incomparable need t happly =>
    obtain ⟨text, rfl⟩ := apply_eq_new happly
    exact if_neg fun h => by cases h
  | given hgiven => exact hgiven.elim

theorem mainServer_fits {h : Hub} (hsource : h.sourceID = "main")
    (hparse : h.parseLSN = parseHexLSN) :
    mainServer.Fits h := by
  refine ⟨⟨by decide, by decide⟩, hsource, ?_, ?_⟩
  · rw [hparse]
    exact readsBack_of_hex (fun _ _ => rfl) parseHexLSN_parses
  · rw [hparse]
    intro text lsn hlsn
    unfold parseHexLSN at hlsn
    split at hlsn
    · obtain ⟨upper, -, hlsn⟩ := Option.bind_eq_some_iff.1 hlsn
      obtain ⟨lower, -, rfl⟩ := Option.map_eq_some_iff.1 hlsn
      exact Nat.mod_lt _ (by decide)
    · cases hlsn

/-- Calls without a cursor, whose snapshots find no publication. -/
def gone (_ : System × Given) : Watch.Label → Prop
  | .open_ req => req.resumeCursor = ""
  | .watch _ act => act.error = none ∨ act.error = some unpublished
  | _ => True

instance (p : System × Given) : (l : Watch.Label) → Decidable (gone p l)
  | .open_ req => instDecidableEqString req.resumeCursor ""
  | .watch _ act => inferInstanceAs (Decidable (act.error = none ∨ act.error = some unpublished))
  | .accept _ | .close _ | .stop => .isTrue trivial

theorem through_of_gone (p : System × Given) (l : Watch.Label) (h : gone p l) :
    through mainServer sendStatus p l := by
  cases l with
  | open_ req =>
    obtain ⟨projection, scope, resumeCursor⟩ := req
    cases h
    exact ⟨projection, scope, "", rfl⟩
  | watch id act =>
    rintro err herr -
    obtain hnone | hsome := h
    · rw [hnone] at herr
      cases herr
    · rw [hsome] at herr
      cases herr
      exact ⟨rfl, rfl⟩
  | accept | close | stop => trivial

theorem parseLSN_eq {p₀ p : System × Given} {ok : System × Given → Watch.Label → Prop}
    (h : Reaches (notingGiven.startedAt p₀) ok p) : p.1.hub.parseLSN = p₀.1.hub.parseLSN := by
  induction h with
  | init h => rw [h]
  | @step q q' l _ _ hs ih =>
    have hstep : notingGiven.step q l = some q' := hs
    rw [(System.step_fixed (Machine.noting_step hstep).1).2.1, ih]

theorem unpublished_runs :
    ∃ s given ws, Reaches notingGiven (through mainServer sendStatus) (s, given) ∧
      s.watches[0]? = some ws ∧ ws.phase = .returned (some unpublished) ∧
      s.hub.sourceID = "main" ∧ s.hub.parseLSN = parseHexLSN := by
  let ls := Watch.Demo.openSnapshot ++
    [Watch.Demo.go (.read (.error unpublished)), Watch.Demo.go .run]
  have hrun : ((Hub.new parseHexLSN (Watch.Demo.config 10 1)).toOption.bind fun h =>
      runWhile (notingGiven.startedAt ({ hub := h }, [])) gone ({ hub := h }, []) ls).any (fun p =>
        p.1.hub.sourceID = "main" ∧
          p.1.watches[0]?.any fun ws => ws.phase = .returned (some unpublished)) = true := by
    decide
  obtain ⟨⟨s, given⟩, hp, hP⟩ := (Option.any_eq_true _ _).1 hrun
  obtain ⟨hub, hhub, hrun⟩ := Option.bind_eq_some_iff.1 hp
  obtain ⟨hsource, hwatch⟩ := of_decide_eq_true hP
  obtain ⟨ws, hws, hphase⟩ := (Option.any_eq_true _ _).1 hwatch
  have hnew := toOption_eq_some_iff.1 hhub
  obtain ⟨_, _, _, hhub⟩ := Hub.new_ok hnew
  have hstarted : Reaches (notingGiven.startedAt ({ hub := hub }, [])) gone (s, given) :=
    .of_runWhile (.init rfl) hrun
  have hreach : Reaches notingGiven gone (s, given) :=
    .of_startedAt (.init ⟨⟨_, _, _, hnew, rfl⟩, rfl⟩) hstarted
  refine ⟨s, given, ws, hreach.mono through_of_gone, hws, of_decide_eq_true hphase, hsource, ?_⟩
  rw [parseLSN_eq hstarted, hhub]

end Demo

end Watchd.Wire
