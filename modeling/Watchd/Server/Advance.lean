import Watchd.Server.Order
import Watchd.Server.Shared
import Watchd.Watch.Delivery

/-!
# Progress only advances

On one stream each Progress is after the one before.  The hub compares the cursors
themselves; a client has their wire forms and may only ask the server which of two
comes first.  Both agree on every stream.

`progress_advances` states it for the texts on the stream.
-/

namespace Watchd.Watch

open Watchd.Cdc Watchd.Lib

/-! ## In the hub -/

/-- The cursor of a Progress. -/
def Event.progressed : Event → Option Cursor
  | .progress c => some c
  | _ => none

/-- The cursors of the Progress events, oldest first. -/
def progresses (sent : List Event) : List Cursor := sent.filterMap Event.progressed

/-- No cursor is after the mark. -/
def UpTo (told : List Cursor) (mark : Cursor) : Prop := ∀ c ∈ told, c = mark ∨ later mark c = true

/-- What a watch has told, by where it stands: nothing before `live`, and then nothing after what it
remembers. -/
def Phase.Told (told : List Cursor) : Phase → Prop
  | .position _ round | .drain _ round _ _ | .deliver _ round _ _ _ | .progress _ round _ _ =>
    (round.first = true → told = []) ∧ UpTo told round.progressed
  | .select _ progressed _ => UpTo told progressed
  | .resync _ | .refuse _ | .unregister _ | .returned _ => True
  | _ => told = []

/-- Each cursor is after those before it. -/
def Ascending (told : List Cursor) : Prop := told.Pairwise fun a b => later b a = true

/-- A cursor after the mark goes on with what was told. -/
theorem Ascending.append {told : List Cursor} {mark c : Cursor} (h : Ascending told)
    (hmark : UpTo told mark) (hc : later c mark = true) : Ascending (told ++ [c]) := by
  refine List.pairwise_append.2 ⟨h, List.pairwise_singleton _ _, fun a ha b hb => ?_⟩
  rw [List.mem_singleton.1 hb]
  obtain rfl | hlater := hmark a ha
  · exact hc
  · exact later_trans hc hlater

/-- One step of a Watch call. -/
theorem Phase.Told.moves {h : Hub} {id : WatcherId} {p : Phase} {m : Move} {told : List Cursor}
    (hm : Moves h id p m) (htold : p.Told told) (hasc : Ascending told) :
    m.phase.Told (told ++ progresses m.sent.toList) ∧
      Ascending (told ++ progresses m.sent.toList) := by
  have hsilent : ∀ {p' : Phase}, p'.Told told → p'.Told (told ++ []) ∧ Ascending (told ++ []) := by
    intro p' hp'
    rw [List.append_nil]
    exact ⟨hp', hasc⟩
  cases hm with
  | progressed args round pos tick hdue =>
    have hnew : Ascending (told ++ [pos]) := by
      obtain hfirst | hlater := hdue
      · rw [htold.1 hfirst]
        exact List.pairwise_singleton _ _
      · exact hasc.append htold.2 hlater
    refine ⟨?_, hnew⟩
    intro c hc
    obtain hold | hlast := List.mem_append.1 hc
    · exact .inr ((List.pairwise_append.1 hnew).2.2 c hold pos (List.mem_singleton_self _))
    · exact .inl (List.mem_singleton.1 hlast)
  | turnedAway p p' hp hp' =>
    refine hsilent ?_
    obtain ⟨reason, rfl⟩ | ⟨err, rfl⟩ := hp' <;> trivial
  | leaves p p' stale hp hp' =>
    refine hsilent ?_
    cases p' with
    | resync | unregister => trivial
    | _ => cases hp'
  | caughtUp args =>
    refine hsilent ⟨fun _ => htold, fun c hc => ?_⟩
    rw [show told = [] from htold] at hc
    cases hc
  | woken args progressed tick => exact hsilent ⟨fun h => (by cases h), htold⟩
  | unchanged args round pos tick => exact hsilent htold.2
  | _ => exact hsilent (by first | exact htold | trivial)

/-- Every watch has been told positions in ascending order, and is told later ones from here. -/
def Advancing (s : System) : Prop :=
  ∀ (id : WatcherId) (ws : WatchState), s.watches[id]? = some ws →
    ws.phase.Told (progresses ws.sent) ∧ Ascending (progresses ws.sent)

theorem Advancing.step {s s' : System} {l : Label} (h : Advancing s) (hs : s.step l = some s') :
    Advancing s' := by
  intro id ws' hws'
  cases (System.step_stepped hs).origin hws' with
  | kept ws ended hws _ => exact h id ws hws
  | opened req p _ _ hp =>
    refine ⟨?_, .nil⟩
    obtain rfl | ⟨err, rfl⟩ := hp
    · rfl
    · trivial
  | moved act ws m _ hws hm _ =>
    obtain ⟨htold, hasc⟩ := h id ws hws
    have hsent : progresses (ws.moved s id m).sent =
        progresses ws.sent ++ progresses m.sent.toList := List.filterMap_append ..
    rw [hsent]
    exact htold.moves hm hasc

/-- In every run the cursors of a watch's Progress events ascend. -/
theorem advancing {ok : System → Label → Prop} {s : System} (h : Reaches machine ok s) :
    Advancing s := by
  refine h.invariant ?_ fun _ _ _ _ hadv _ hs => hadv.step hs
  rintro s ⟨parseLSN, cfg, hub, -, rfl⟩ id ws hws
  cases hws

end Watchd.Watch

namespace Watchd.Wire

open Watchd.Cdc Watchd.Lib Watchd.Watch

/-! ## On the wire -/

/-- The cursor of a Progress message. -/
def Message.progressed : Message → Option String
  | .progress cursor => some cursor
  | _ => none

/-- The wire cursors of the Progress messages of a stream. -/
def progressTexts (stream : List Message) : List String := stream.filterMap Message.progressed

section Texts

variable {srv : Server} {memos : Memos}

theorem progressTexts_of_rows {msgs : List Message}
    (h : ∀ msg ∈ msgs, msg.kind = some .snapshotRows) : progressTexts msgs = [] := by
  refine List.filterMap_eq_nil_iff.2 fun msg hmsg => ?_
  have hkind := h msg hmsg
  cases msg with
  | progress cursor => cases hkind
  | _ => rfl

/-- An event is sent as its wire cursor, if it is a Progress, and otherwise without one. -/
theorem progressTexts_send (hmemos : ∀ memo msg, memos memo = some msg → ∃ b, msg = .batch b)
    (e : Event) :
    progressTexts (srv.send memos e) = (progresses [e]).map srv.encodeCursor := by
  cases e with
  | snapshotRows rows => exact progressTexts_of_rows (srv.sendRows_kind rows)
  | batch b =>
    have hbatch : ∃ wb, srv.batchMessage memos b = .batch wb := by
      unfold Server.batchMessage
      cases hload : b.memo.bind memos with
      | none => exact ⟨_, rfl⟩
      | some msg =>
        obtain ⟨memo, -, hmsg⟩ := Option.bind_eq_some_iff.1 hload
        exact hmemos memo msg hmsg
    obtain ⟨wb, hwb⟩ := hbatch
    show progressTexts [srv.batchMessage memos b] = []
    rw [hwb]
    rfl
  | _ => rfl

end Texts

namespace Served

variable {srv : Server} {s : Served}

theorem memos_batch {ok : Served → Served.Label → Prop} (h : Reaches (served srv) ok s)
    (memo : MemoId)
    (msg : Message) (hmsg : s.memos memo = some msg) : ∃ b, msg = .batch b := by
  obtain ⟨content, -, hfaithful⟩ := sharing h
  exact ⟨_, (hfaithful memo msg hmsg).2⟩

/-- The Progress messages of every stream are those of its watch's events. -/
def Reports (srv : Server) (s : Served) : Prop :=
  ∀ (id : WatcherId) (ws : WatchState), s.system.watches[id]? = some ws →
    progressTexts (s.streams id) = (progresses ws.sent).map srv.encodeCursor

/-- A step of one watch that puts messages on its stream. -/
theorem Reports.moved (h : s.Reports srv) {id : WatcherId} {ws : WatchState} {m : Move}
    {memos : Memos} {new : List Message} (hws : s.system.watches[id]? = some ws)
    (hnew : progressTexts new = (progresses m.sent.toList).map srv.encodeCursor) :
    Reports srv ⟨s.system.moved id ws m, memos, s.put id new⟩ := by
  have hlt : id < s.system.watches.length := (List.getElem?_eq_some_iff.1 hws).1
  intro id' ws' hws'
  simp only [System.moved, List.getElem?_set, if_pos hlt] at hws'
  split at hws'
  · next heq =>
    subst heq
    cases hws'
    have htexts : progressTexts (s.streams id ++ new) =
        progressTexts (s.streams id) ++ progressTexts new := List.filterMap_append ..
    have hsent : progresses (ws.sent ++ m.sent.toList) =
        progresses ws.sent ++ progresses m.sent.toList := List.filterMap_append ..
    show progressTexts (s.put id new id) =
      (progresses (ws.sent ++ m.sent.toList)).map srv.encodeCursor
    rw [put_self, htexts, hsent, List.map_append, h id ws hws, hnew]
  · next hne =>
    show progressTexts (s.put id new id') = _
    rw [s.put_of_ne (Ne.symm hne)]
    exact h id' ws' hws'

theorem Reports.hub (h : s.Reports srv) (hstaged : s.Staged)
    (hmemos : ∀ memo msg, s.memos memo = some msg → ∃ b, msg = .batch b) {l : Watch.Label}
    {system : System} (hstep : s.system.step l = some system) :
    Reports srv ⟨system, s.loaded srv l, s.written srv l⟩ := by
  have hother : (∀ id act, l ≠ .watch id act) → s.written srv l = s.streams →
      Reports srv ⟨system, s.loaded srv l, s.written srv l⟩ := by
    intro hl hwritten id ws' hws'
    show progressTexts (s.written srv l id) = _
    rw [hwritten]
    cases (System.step_stepped hstep).origin hws' with
    | kept ws ended hws _ => exact h id ws hws
    | opened req p _ hid _ =>
      rw [hstaged.fresh id hid.ge]
      rfl
    | moved act ws m hl' _ _ _ => exact absurd hl' (hl id act)
  cases l with
  | watch id act =>
    obtain ⟨ws, hws, hmap⟩ := Option.bind_eq_some_iff.1 hstep
    obtain ⟨m, hm, rfl⟩ := Option.map_eq_some_iff.1 hmap
    have hsends : s.sends id act = m.sent := by simp [sends, hws, hm]
    refine h.moved hws ?_
    rw [hsends]
    cases m.sent with
    | none => rfl
    | some e =>
      rw [Option.toList_some, List.flatMap_singleton]
      exact progressTexts_send hmemos e
  | accept | close | stop | open_ => exact hother (fun _ _ h => by cases h) rfl

theorem reports {ok : Served → Served.Label → Prop} (h : Reaches (served srv) ok s) :
    s.Reports srv := by
  refine h.invariant ?_ ?_
  · rintro s ⟨system, ⟨parseLSN, cfg, hub, -, rfl⟩, rfl⟩ id ws hws
    cases hws
  · intro s l s' hreach hs _ hstep
    cases l with
    | hub l =>
      obtain ⟨system, hsystem, rfl⟩ := Option.map_eq_some_iff.1 hstep
      exact hs.hub (staged hreach) (memos_batch hreach) hsystem
    | cut id rows n err =>
      simp only [served, step] at hstep
      split at hstep
      · next streamed hphase =>
        obtain ⟨ws, hws, hp⟩ := Option.map_eq_some_iff.1 hphase
        obtain ⟨system, hsystem, rfl⟩ := Option.map_eq_some_iff.1 hstep
        obtain ⟨ws', hws', hmap⟩ := Option.bind_eq_some_iff.1 hsystem
        obtain rfl : ws' = ws := Option.some.inj (hws'.symm.trans hws)
        obtain ⟨m, hm, rfl⟩ := Option.map_eq_some_iff.1 hmap
        have hnone : m.sent = none := by
          rw [hp] at hm
          simp only [Phase.step] at hm
          split at hm
          · cases hm
            rfl
          · split at hm <;> cases hm <;> rfl
        refine hs.moved hws ?_
        rw [hnone]
        exact progressTexts_of_rows fun msg hmsg =>
          srv.sendRows_kind rows msg (List.mem_of_mem_take hmsg)
      · cases hstep

end Served

/-! ## As a client sees it -/

/-- `Client.CompareCursors` over the server's answer; an error is its text. -/
def clientCompareCursors (api : String → String → Except String CursorOrder) (a b : String) :
    Except String Int :=
  match api a b with
  | .error err => .error err
  | .ok .before => .ok (-1)
  | .ok .equal => .ok 0
  | .ok .after => .ok 1
  | .ok .unspecified => .error "watchd: unknown cursor order CURSOR_ORDER_UNSPECIFIED"

theorem clientCompareCursors_after {srv : Server} {parseLSN : String → Option Nat}
    (hsrv : srv.Serves) (hlsn : ReadsBack srv.lsnString parseLSN) {a b : Cursor}
    (ha : a.lsn < 2 ^ 64) (hb : b.lsn < 2 ^ 64) (hlater : later b a = true) :
    clientCompareCursors (srv.compareCursors parseLSN) (srv.encodeCursor b) (srv.encodeCursor a) =
      .ok 1 := by
  unfold clientCompareCursors
  rw [Server.compareCursors_encodeCursor hsrv hlsn hb ha,
    Nat.compare_eq_gt.2 (later_iff.1 hlater).2]
  rfl

/-- **Progress only advances.**  However the hub is run and its streams are cut off: of two Progress
messages on one stream the later one names the later position, and so the client is told if it asks
the server to compare the two. -/
theorem progress_advances {srv : Server} {parseLSN : String → Option Nat} (hsrv : srv.Serves)
    (hlsn : ReadsBack srv.lsnString parseLSN) {s : Served} (h : Reaches (served srv) anyStep s)
    {id : WatcherId} {ws : WatchState} (hws : s.system.watches[id]? = some ws)
    (hbound : ∀ c, Event.progress c ∈ ws.sent → c.lsn < 2 ^ 64) :
    (progressTexts (s.streams id)).Pairwise fun earlier later =>
      clientCompareCursors (srv.compareCursors parseLSN) later earlier = .ok 1 := by
  have hmem : ∀ c ∈ progresses ws.sent, c.lsn < 2 ^ 64 := by
    intro c hc
    obtain ⟨e, he, hprogressed⟩ := List.mem_filterMap.1 hc
    cases e with
    | progress c' =>
      cases hprogressed
      exact hbound c he
    | _ => cases hprogressed
  rw [Served.reports h id ws hws, List.pairwise_map]
  refine List.Pairwise.imp_of_mem ?_ (advancing (Served.reaches h) id ws hws).2
  intro a b ha hb hlater
  exact clientCompareCursors_after hsrv hlsn (hmem a ha) (hmem b hb) hlater

namespace Demo

open Watchd.Watch.Demo (go openSnapshot readSnapshot transaction)

/-- A watch that installs a snapshot, reports its position, and does so again after a
transaction. -/
def twoProgresses : List Watch.Label :=
  openSnapshot ++ readSnapshot 500 ++ List.replicate 4 (go .run) ++
    [.accept (transaction 600 30), .close 0, go (.choose .tick)] ++ List.replicate 5 (go .run)

theorem twoProgresses_run :
    ∃ s ws, Reaches (served mainServer) anyStep s ∧ s.system.watches[0]? = some ws ∧
      progresses ws.sent = [⟨"main", 500⟩, ⟨"main", 610⟩] := by
  obtain ⟨s, hreach, hwatch⟩ :=
    Served.exists_of_run mainServer parseHexLSN (Watch.Demo.config 10 10) (twoProgresses.map .hub)
      (fun s => (s.system.watches[0]?.any fun ws =>
        progresses ws.sent = [⟨"main", 500⟩, ⟨"main", 610⟩]) = true) (by decide)
  obtain ⟨ws, hws, htold⟩ := (Option.any_eq_true _ _).1 hwatch
  exact ⟨s, ws, hreach, hws, of_decide_eq_true htold⟩

end Demo

theorem progress_advances_run :
    ∃ s, Reaches (served Demo.mainServer) anyStep s ∧
      progressTexts (s.streams 0) =
        [Demo.mainServer.encodeCursor ⟨"main", 500⟩, Demo.mainServer.encodeCursor ⟨"main", 610⟩] ∧
      clientCompareCursors (Demo.mainServer.compareCursors Demo.parseHexLSN)
        (Demo.mainServer.encodeCursor ⟨"main", 610⟩) (Demo.mainServer.encodeCursor ⟨"main", 500⟩) =
          .ok 1 := by
  obtain ⟨s, ws, hreach, hws, htold⟩ := Demo.twoProgresses_run
  have hserves : Demo.mainServer.Serves := ⟨by decide, by decide⟩
  have hlsn : ReadsBack Demo.mainServer.lsnString Demo.parseHexLSN :=
    readsBack_of_hex (fun _ _ => rfl) Demo.parseHexLSN_parses
  have htexts := Served.reports hreach 0 ws hws
  rw [htold] at htexts
  have hbound : ∀ c, Event.progress c ∈ ws.sent → c.lsn < 2 ^ 64 := by
    intro c hc
    have hmem : c ∈ progresses ws.sent := List.mem_filterMap.2 ⟨_, hc, rfl⟩
    rw [htold] at hmem
    have hall : ∀ c ∈ [(⟨"main", 500⟩ : Cursor), ⟨"main", 610⟩], c.lsn < 2 ^ 64 := by decide
    exact hall c hmem
  have hpairs := progress_advances hserves hlsn hreach hws hbound
  rw [htexts] at hpairs
  refine ⟨s, hreach, htexts, ?_⟩
  exact (List.pairwise_cons.1 hpairs).1 _ (List.mem_singleton_self _)

end Watchd.Wire
