import Watchd.Lib.History
import Watchd.Watch.Reachable

/-!
# Why a Watch call fails

A Watch call returns an error for its own request, for a transaction of another
source, or because its surroundings failed: a send, the snapshotter, its context.
A history variable notes what each call was given; the hub makes up nothing else.

`accounted` states it for every run.
-/

namespace Watchd.Watch

open Watchd.Cdc Watchd.Lib

/-- The error that its surroundings give a Watch call. -/
def Act.error : Act → Option GoError
  | .fail err | .read (.error err) | .choose (.ctxDone err) => some err
  | _ => none

/-- The error a Watch call has returned, or is about to. -/
def Phase.error : Phase → Option GoError
  | .unregister result | .returned result => result
  | _ => none

/-- The errors given to the watches so far. -/
abbrev Given := List (WatcherId × GoError)

/-- An error that a watch is given is noted. -/
def noteGiven (_ : System) (l : Label) (_ : System) (given : Given) : Given :=
  match l with
  | .watch id act => given ++ act.error.toList.map (id, ·)
  | _ => given

/-- The hub with its watches, and what they were given. -/
def notingGiven : Machine (System × Given) Label := machine.noting [] noteGiven

/-- What an error of a Watch call comes from. -/
inductive Cause (h : Hub) (req : Request) (given : GoError → Prop) : GoError → Prop
  | unknownProjection (hp : h.projections.lookup req.projection = none) :
    Cause h req given (errorf .unknownProjection (": " ++ quote req.projection))
  | cursor {err : GoError} (hcursor : req.resumeCursor ≠ "")
      (herr : parseCursor h.parseLSN h.sourceID req.resumeCursor = .error err) :
    Cause h req given err
  | incomparable {err : GoError} (need : Need) (t : Transaction)
      (herr : need.apply t = .error err) :
    Cause h req given err
  | given {err : GoError} (herr : given err) : Cause h req given err

theorem Cause.mono {h h' : Hub} {req : Request} {given given' : GoError → Prop} {err : GoError}
    (hfixed : h'.sourceID = h.sourceID ∧ h'.parseLSN = h.parseLSN ∧ h'.projections = h.projections)
    (hgiven : ∀ err, given err → given' err) (hc : Cause h req given err) :
    Cause h' req given' err := by
  obtain ⟨hsource, hparse, hprojections⟩ := hfixed
  cases hc with
  | unknownProjection hp => exact .unknownProjection (by rw [hprojections, hp])
  | cursor hcursor herr => exact .cursor hcursor (by rw [hsource, hparse, herr])
  | incomparable need t herr => exact .incomparable need t herr
  | given herr => exact .given (hgiven _ herr)

/-! ## One step -/

theorem Watcher.backlog_error {w : Watcher} {need : Need} {ts : List Transaction} {err : GoError}
    (h : w.backlog need ts = .error err) : ∃ t, need.apply t = .error err := by
  suffices hall : ∀ (ts : List Transaction) (acc : List Batch),
      ts.foldlM (fun batches t => (need.apply t).map fun needed =>
        if needed then w.appendBatch batches t else batches) acc = .error err →
      ∃ t, need.apply t = .error err from hall ts [] h
  intro ts
  induction ts with
  | nil => exact fun acc h => by cases h
  | cons t ts ih =>
    intro acc h
    rw [List.foldlM_cons] at h
    cases happly : need.apply t with
    | error e =>
      rw [happly] at h
      cases h
      exact ⟨t, happly⟩
    | ok needed =>
      rw [happly] at h
      exact ih _ h

section Step

variable {req : Request} {closed : TickId → Bool} {h : Hub} {id : WatcherId} {act : Act} {m : Move}
  {err : GoError}

theorem sending_error {event : Event} {next : Phase} {failed : Option GoError → Phase}
    (hm : sending h event next failed act = some m) (hnext : next.error = none)
    (hfailed : ∀ result, (failed result).error = result) (herr : m.phase.error = some err) :
    act.error = some err := by
  cases act with
  | run =>
    cases hm
    rw [hnext] at herr
    cases herr
  | fail e =>
    cases hm
    rw [hfailed] at herr
    exact herr
  | rows | read | choose => cases hm

/-- A step of a Watch call that ends it with an error. -/
theorem Phase.step_error {p : Phase} (hm : p.step req closed h id act = some m)
    (herr : m.phase.error = some err) :
    p.error = some err ∨ Cause h req (fun err => act.error = some err) err := by
  -- every phase but the last two fails only by what its act gives, by a cursor or by a comparison
  suffices hcause : (∀ result, p ≠ .unregister result) →
      Cause h req (fun err => act.error = some err) err by
    cases p with
    | unregister result =>
      cases act with
      | run =>
        cases hm
        exact .inl herr
      | fail | rows | read | choose => cases hm
    | _ => exact .inr (hcause (fun _ h => by cases h))
  intro hp
  cases p with
  | start =>
    cases act <;> simp only [Phase.step, reduceCtorEq] at hm
    split at hm
    · cases hm
      cases herr
    · split at hm
      · next hcursor =>
        split at hm
        · cases hm
          cases herr
        · next hparse =>
          cases hm
          cases herr
          exact .cursor hcursor hparse
      · cases hm
        cases herr
  | resume cursor =>
    cases act <;> simp only [Phase.step, reduceCtorEq] at hm
    split at hm
    · cases hm
      cases herr
    · split at hm
      · cases hm
        cases herr
      · split at hm
        · next hbacklog =>
          cases hm
          cases herr
          obtain ⟨t, ht⟩ := Watcher.backlog_error hbacklog
          exact .incomparable _ t ht
        · cases hm
          cases herr
  | reading streamed =>
    cases act with
    | rows rows =>
      cases hm
      cases herr
    | read result =>
      cases result with
      | ok snap =>
        cases hm
        cases herr
      | error e =>
        simp only [Phase.step] at hm
        split at hm
        · cases hm
          cases herr
        · split at hm
          · cases hm
            cases herr
          · cases hm
            exact .given herr
    | run | fail | choose => cases hm
  | overflowCheck streamed snap =>
    cases act <;> simp only [Phase.step, reduceCtorEq] at hm
    split at hm <;> cases hm <;> cases herr
  | clearStale streamed snap =>
    cases act <;> simp only [Phase.step, reduceCtorEq] at hm
    split at hm
    · next hbacklog =>
      cases hm
      cases herr
      obtain ⟨t, ht⟩ := Watcher.backlog_error hbacklog
      exact .incomparable _ t ht
    · cases hm
      cases herr
  | backlog batches args =>
    cases batches with
    | nil =>
      cases act <;> simp only [Phase.step, reduceCtorEq] at hm
      cases hm
      cases herr
    | cons b batches => exact .given (sending_error hm rfl (fun _ => rfl) herr)
  | drain args round pos tick =>
    cases act <;> simp only [Phase.step, reduceCtorEq] at hm
    split at hm
    · cases hm
      cases herr
    · split at hm
      · next happly =>
        cases hm
        cases herr
        exact .incomparable _ _ happly
      · cases hm
        cases herr
      · cases hm
        cases herr
  | progress args round pos tick =>
    simp only [Phase.step] at hm
    split at hm
    · exact .given (sending_error hm rfl (fun _ => rfl) herr)
    · split at hm
      · cases hm
        cases herr
      · cases hm
  | select args progressed tick =>
    cases act with
    | choose case =>
      cases case with
      | ctxDone e =>
        cases hm
        exact .given herr
      | overflow | stopped | tick =>
        simp only [Phase.step] at hm
        split at hm
        · cases hm
          cases herr
        · cases hm
    | run | fail | rows | read => cases hm
  | snapshotBegin | snapshotEnd | deliver | resync | refuse =>
    exact .given (sending_error hm rfl (fun _ => rfl) herr)
  | snapshot | recordSnapshot | position =>
    cases act <;> simp only [Phase.step, reduceCtorEq] at hm
    cases hm
    cases herr
  | unregister result => exact absurd rfl (hp result)
  | returned result => cases act <;> cases hm

end Step

/-- Where a watch after the step `l` comes from, as far as its errors go. -/
theorem System.step_watch {s s' : System} {l : Label} (h : s.step l = some s') {id : WatcherId}
    {ws' : WatchState} (hws' : s'.watches[id]? = some ws') :
    (∃ ws, s.watches[id]? = some ws ∧ ws'.request = ws.request ∧ ws'.phase = ws.phase) ∨
    (∃ req, l = .open_ req ∧ ws'.request = req ∧
      (ws'.phase = .start ∨ s.hub.projections.lookup req.projection = none ∧
        ws'.phase = .returned (some (errorf .unknownProjection (": " ++ quote req.projection))))) ∨
    ∃ act ws m, l = .watch id act ∧ s.watches[id]? = some ws ∧
      ws.phase.step ws.request (fun tick => decide (tick ∈ s.closed)) s.hub id act = some m ∧
      ws'.request = ws.request ∧ ws'.phase = m.phase := by
  cases l with
  | open_ req =>
    simp only [System.step, System.openWatch, Option.some.injEq] at h
    subst h
    cases hp : s.hub.projections.lookup req.projection with
    | none =>
      rw [hp] at hws'
      obtain hold | ⟨-, rfl⟩ := getElem?_append_singleton hws'
      · exact .inl ⟨ws', hold, rfl, rfl⟩
      · exact .inr (.inl ⟨req, rfl, rfl, .inr ⟨hp, rfl⟩⟩)
    | some p =>
      rw [hp] at hws'
      obtain hold | ⟨-, rfl⟩ := getElem?_append_singleton hws'
      · exact .inl ⟨ws', hold, rfl, rfl⟩
      · exact .inr (.inl ⟨req, rfl, rfl, .inl rfl⟩)
  | watch id' act =>
    obtain ⟨ws, hws, hmap⟩ := Option.bind_eq_some_iff.1 h
    obtain ⟨m, hm, rfl⟩ := Option.map_eq_some_iff.1 hmap
    rw [System.moved, List.getElem?_set, if_pos (List.getElem?_eq_some_iff.1 hws).1] at hws'
    split at hws'
    · next heq =>
      subst heq
      cases hws'
      exact .inr (.inr ⟨act, ws, m, rfl, hws, hm, rfl, rfl⟩)
    · exact .inl ⟨ws', hws', rfl, rfl⟩
  | accept | close | stop =>
    cases (System.step_stepped h).origin hws' with
    | kept ws ended hws hended => exact .inl ⟨ws, hws, rfl, rfl⟩
    | opened _ _ hl => cases hl
    | moved _ _ _ hl => cases hl

/-! ## Every run -/

/-- Every error of a watch has its cause. -/
def Accounted (p : System × Given) : Prop :=
  ∀ id ws err, p.1.watches[id]? = some ws → ws.phase.error = some err →
    Cause p.1.hub ws.request (fun err => (id, err) ∈ p.2) err

theorem Accounted.step {p p' : System × Given} {l : Label} (h : Accounted p)
    (hs : notingGiven.step p l = some p') : Accounted p' := by
  obtain ⟨hstep, hnote⟩ := Machine.noting_step hs
  have hfixed := System.step_fixed hstep
  have hgiven : ∀ e ∈ p.2, e ∈ p'.2 := by
    rw [hnote]
    cases l with
    | watch id act => exact fun e he => List.mem_append_left _ he
    | accept | close | stop | open_ => exact fun e he => he
  intro id ws' err hws' herr
  obtain ⟨ws, hws, hreq, hphase⟩ | ⟨req, -, hreq, hphase⟩ |
      ⟨act, ws, m, hl, hws, hm, hreq, hphase⟩ :=
    System.step_watch hstep hws'
  · rw [hphase] at herr
    rw [hreq]
    exact (h id ws err hws herr).mono hfixed fun e he => hgiven _ he
  · obtain hphase | ⟨hp, hphase⟩ := hphase
    · rw [hphase] at herr
      cases herr
    · rw [hphase] at herr
      cases herr
      rw [hreq]
      exact .unknownProjection (by rw [hfixed.2.2, hp])
  · rw [hphase] at herr
    rw [hreq]
    obtain hold | hcause := Phase.step_error hm herr
    · exact (h id ws err hws hold).mono hfixed fun e he => hgiven _ he
    · refine hcause.mono hfixed fun e he => ?_
      rw [hnote, hl]
      refine List.mem_append_right _ ?_
      rw [he]
      exact List.mem_singleton_self _

/-- **The hub makes up no error.**  In every run, what a Watch call returns, or is about to, is its
request's own fault, a comparison across sources, or what the call was given. -/
theorem accounted {ok : System × Given → Label → Prop} {p : System × Given}
    (h : Reaches notingGiven ok p) : Accounted p := by
  refine Reaches.invariant ?_ (fun _ _ _ _ hacc _ hs => hacc.step hs) h
  rintro ⟨s, given⟩ ⟨⟨parseLSN, cfg, hub, -, rfl⟩, -⟩ id ws err hws
  cases hws

end Watchd.Watch
