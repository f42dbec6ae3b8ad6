import Watchd.Sdk.Boundary
import Watchd.Sdk.Mirror
import Watchd.Server.Order

/-!
# A fresh client shows a state that existed

The client's rows are those of a prefix of the history whenever it is told only
true messages, and a stream starts true when its cursor stands for what the rows
hold.  A cursor need not: a snapshot may cover more than the position under which
it is stored, and a resumed watch repeats everything after the position.

* `Mirror.mirrored`: the invariant of every undisturbed run whose cursors stand for
  their rows;
* `fresh_state_existed`: a fresh report is then about a state that existed;
* `fresh_mixture`: without the assumption on cursors it need not be.
-/

namespace Watchd.Sdk

open Watchd.Cdc Watchd.Lib Watchd.Wire

/-! ## The hub's part of a run -/

namespace Mirror

variable {X : Scene} {s : Mirror}

/-- Taking a Watch call is a step of the hub, unless the server refuses it. -/
theorem connect_served (X : Scene) (s : Mirror) (cursor : String) :
    (s.connect X cursor).served = s.served ∨
      ∃ req, (s.connect X cursor).served =
        { s.served with system := s.served.system.openWatch req } := by
  unfold connect
  split
  · exact .inl rfl
  · next req _ => exact .inr ⟨req, rfl⟩

theorem undisturbed.calm {l : Watch.Label} (h : s.undisturbed X (.serve (.hub l))) :
    Watch.calm X.history s.served.system l := by
  cases l with
  | watch id act => trivial
  | _ => exact h

theorem reaches (h : Reaches (mirror X) (undisturbed X) s) :
    Reaches (Wire.served X.srv) anyStep s.served ∧
      Reaches Watch.machine (Watch.calm X.history) s.served.system := by
  refine h.invariant (I := fun s => Reaches (Wire.served X.srv) anyStep s.served ∧
    Reaches Watch.machine (Watch.calm X.history) s.served.system) ?_ ?_
  · rintro s ⟨cfg, hub, low, high, hnew, -, rfl⟩
    have hinit : Watch.machine.init { hub := hub } := ⟨_, _, _, hnew, rfl⟩
    exact ⟨.init ⟨_, hinit, rfl⟩, .init hinit⟩
  · intro s l s' _ hreach hok hstep
    cases l with
    | serve l =>
      obtain ⟨served', hserved, rfl⟩ := Option.map_eq_some_iff.1 hstep
      refine ⟨.step hreach.1 trivial hserved, ?_⟩
      cases l with
      | hub l =>
        obtain ⟨system, hsystem, rfl⟩ := Option.map_eq_some_iff.1 hserved
        exact .step hreach.2 hok.calm hsystem
      | cut id rows n err =>
        simp only [Served.step] at hserved
        split at hserved
        · obtain ⟨system, hsystem, rfl⟩ := Option.map_eq_some_iff.1 hserved
          exact .step (l := .watch id (.read (.error err))) hreach.2 trivial hsystem
        · cases hserved
    | open_ failure =>
      obtain ⟨client, -, rfl⟩ := Option.map_eq_some_iff.1 hstep
      split
      · next cursor heard writer _ =>
        rcases connect_served X { s with client := client } cursor with heq | ⟨req, heq⟩
        · rw [heq]
          exact hreach
        · rw [heq]
          exact ⟨.step (l := .hub (.open_ req)) hreach.1 trivial rfl,
            .step (l := .open_ req) hreach.2 trivial rfl⟩
      · exact hreach
    | recv =>
      obtain ⟨id, -, hmsg⟩ := Option.bind_eq_some_iff.1 hstep
      obtain ⟨msg, -, hclient⟩ := Option.bind_eq_some_iff.1 hmsg
      obtain ⟨client, -, rfl⟩ := Option.map_eq_some_iff.1 hclient
      exact hreach
    | lose status =>
      cases status with
      | none =>
        obtain ⟨client, -, rfl⟩ := Option.map_eq_some_iff.1 hstep
        exact hreach
      | some code =>
        obtain ⟨client, -, rfl⟩ := Option.map_eq_some_iff.1 hstep
        exact hreach
    | next cancelled =>
      obtain ⟨client, -, rfl⟩ := Option.map_eq_some_iff.1 hstep
      exact hreach
    | wait cancelled =>
      obtain ⟨client, -, rfl⟩ := Option.map_eq_some_iff.1 hstep
      exact hreach

end Mirror

/-! ## The invariant -/

/-- The client stands somewhere on the stream of watch `id`, and the messages it has yet to receive
are true. -/
def Following (X : Scene) (s : Mirror) (id : Watch.WatcherId) : Prop :=
  ∃ ws v v', s.served.system.watches[id]? = some ws ∧
    (s.served.system.hub.registry.cell id).Static X.watcher ∧
    s.received ≤ (s.served.streams id).length ∧ ClientAt X s.installed s.client v ∧
    Path (Tells X ws.history.need) v ((s.served.streams id).drop s.received) v' ∧
    HubAt X s.served.system.accepted.length ws.request ws.history ws.sent ws.phase v'

/-- The hub shows the scene, the store stands for a prefix of it, and the stream follows on. -/
structure Mirrored (X : Scene) (s : Mirror) : Prop where
  hub : Hosts X s.served.system.hub
  kept : ∃ n, Kept X s.installed s.client.store s.client.state n
  stream : ∀ id cursor heard writer, s.watch = some id →
    s.client.phase = .streaming cursor heard writer → Following X s id

section Steps

variable {X : Scene} {s : Mirror}

theorem Hosts.stepped {system system' : Watch.System} {l : Watch.Label} (h : Hosts X system.hub)
    (hstep : system.step l = some system') : Hosts X system'.hub := by
  obtain ⟨hsource, hparse, hprojections⟩ := Watch.System.step_fixed hstep
  exact ⟨hsource.trans h.source, hparse.trans h.parse, hprojections ▸ h.projection⟩

/-- A watch's need is set once, before any message depends on it. -/
theorem HubAt.need_noted {accepted : Nat} {req : Watch.Request} {hist : Watch.History}
    {sent : List Watch.Event} {p : Watch.Phase} {v : View} (h : HubAt X accepted req hist sent p v)
    (system : Watch.System) (id : Watch.WatcherId) (p' : Watch.Phase) :
    (hist.note system id p p').need = hist.need ∨ hist.need = none := by
  unfold Watch.History.note
  split
  · exact .inr h.1
  · exact .inr h.1
  · exact .inl rfl
  · exact .inl rfl
  · exact .inl rfl
  · exact .inl rfl

theorem Tells.noted {need need' : Option Watch.Need} (h : need' = need ∨ need = none) {v v' : View}
    {msgs : List Wire.Message} (hpath : Path (Tells X need) v msgs v') :
    Path (Tells X need') v msgs v' := by
  rcases h with rfl | rfl
  · exact hpath
  · exact hpath.mono fun _ _ _ htells => htells.of_none need'

/-- More messages on the stream. -/
theorem Following.sent {served' : Served} {id : Watch.WatcherId} (ws : Watch.WatchState)
    (new : List Wire.Message) {v v' v'' : View} {need : Option Watch.Need}
    (hle : s.received ≤ (s.served.streams id).length) (hclient : ClientAt X s.installed s.client v)
    (hpath : Path (Tells X need) v ((s.served.streams id).drop s.received) v')
    (hneed : ws.history.need = need ∨ need = none) (hws : served'.system.watches[id]? = some ws)
    (hstatic : (served'.system.hub.registry.cell id).Static X.watcher)
    (hstreams : served'.streams id = s.served.streams id ++ new)
    (hnew : Path (Tells X ws.history.need) v' new v'')
    (hhub : HubAt X served'.system.accepted.length ws.request ws.history ws.sent ws.phase v'') :
    Following X { s with served := served' } id := by
  refine ⟨ws, v, v'', hws, hstatic, ?_, hclient, ?_, hhub⟩
  · show s.received ≤ (served'.streams id).length
    rw [hstreams, List.length_append]
    exact hle.trans (Nat.le_add_right ..)
  · show Path _ _ ((served'.streams id).drop s.received) _
    rw [hstreams, List.drop_append_of_le_length hle]
    exact (Tells.noted hneed hpath).append hnew

/-- A step of the hub that is not one of the client's watch. -/
theorem Following.others {id : Watch.WatcherId} {served' : Served} {l : Watch.Label}
    (hinv : Watch.Inv s.served.system) (hstep : s.served.system.step l = some served'.system)
    (hl : ∀ act, l ≠ .watch id act) (hstreams : served'.streams id = s.served.streams id)
    (h : Following X s id) : Following X { s with served := served' } id := by
  obtain ⟨ws, v, v', hws, hstatic, hle, hclient, hpath, hhub⟩ := h
  obtain ⟨⟨ended, hws'⟩, hsame, hpre⟩ := hinv.step_others hstep hws hl
  refine .sent { ws with history := { ws.history with ended := ended } } [] hle hclient hpath
    (.inl rfl) hws' ?_ ?_ (.nil v') (hhub.grow hpre.length_le rfl rfl)
  · exact ⟨hsame.1.trans hstatic.1, hsame.2.trans hstatic.2⟩
  · rw [hstreams, List.append_nil]

/-- A step of the client's watch. -/
theorem Following.moved (hX : X.Sound) (hserved : Reaches (served X.srv) anyStep s.served)
    (hcalm : Watch.Calm X.history s.served.system) (hhosts : Hosts X s.served.system.hub)
    {id : Watch.WatcherId} {act : Watch.Act} {system : Watch.System}
    (hstep : s.served.system.step (.watch id act) = some system)
    (hread : ∀ snap, act = .read (.ok snap) → ∀ ws ∈ s.served.system.watches[id]?,
      ∃ n ≤ X.history.length, X.Taken snap (Watch.rowsOf ws.sent) n)
    (hsettled : ∀ ws ∈ s.served.system.watches[id]?,
      settled X.history s.served.system.hub ws.phase) (h : Following X s id) :
    Following X { s with served := ⟨system, s.served.loaded X.srv (.watch id act),
      s.served.written X.srv (.watch id act)⟩ } id := by
  obtain ⟨ws, v, v', hws, hstatic, hle, hclient, hpath, hhub⟩ := h
  obtain ⟨ws₀, hws₀, hmap⟩ := Option.bind_eq_some_iff.1 hstep
  obtain rfl : ws₀ = ws := Option.some.inj (hws₀.symm.trans hws)
  obtain ⟨m, hm, rfl⟩ := Option.map_eq_some_iff.1 hmap
  have hsends : s.served.sends id act = m.sent := by simp [Served.sends, hws, hm]
  obtain ⟨v'', hnew, hhub'⟩ := hhub.moves hX hserved hcalm hhosts hws hstatic hm
    (fun streamed snap _ hact =>
      (hread snap hact ws₀ hws).imp fun _ htaken => htaken.2) (hsettled ws₀ hws)
  have hsame := (Watch.Phase.step_moves hm).static
  refine .sent (ws₀.moved s.served.system id m)
    (m.sent.toList.flatMap (X.srv.send s.served.memos)) hle
    hclient hpath (hhub.need_noted ..) ?_ ⟨hsame.1.trans hstatic.1, hsame.2.trans hstatic.2⟩
      ?_ hnew hhub'
  · exact List.getElem?_set_self (List.getElem?_eq_some_iff.1 hws).1
  · show s.served.put id ((s.served.sends id act).toList.flatMap (X.srv.send s.served.memos)) id = _
    rw [hsends, Served.put_self]

/-- A page that is cut off ends the client's watch. -/
theorem Following.cut {id : Watch.WatcherId} {streamed : List Transaction} {err : GoError}
    {system : Watch.System} {msgs : List Wire.Message}
    (hphase : s.served.system.watches[id]?.map Watch.WatchState.phase = some (.reading streamed))
    (hstep : s.served.system.step (.watch id (.read (.error err))) = some system)
    (hmsgs : ∀ msg ∈ msgs, msg.kind = some .snapshotRows) (h : Following X s id) :
    Following X { s with served := ⟨system, s.served.memos, s.served.put id msgs⟩ } id := by
  obtain ⟨ws, v, v', hws, hstatic, hle, hclient, hpath, hhub⟩ := h
  obtain ⟨ws₀, hws₀, hmap⟩ := Option.bind_eq_some_iff.1 hstep
  obtain rfl : ws₀ = ws := Option.some.inj (hws₀.symm.trans hws)
  obtain ⟨m, hm, rfl⟩ := Option.map_eq_some_iff.1 hmap
  have hp : ws₀.phase = .reading streamed := by
    rw [hws] at hphase
    exact Option.some.inj hphase
  have hsame := (Watch.Phase.step_moves hm).static
  have hneed := hhub.need_noted s.served.system id m.phase
  rw [hp] at hm hhub
  obtain ⟨-, -, n, rfl⟩ := hhub
  have hleft : ∀ accepted req hist sent v, HubAt X accepted req hist sent m.phase v := by
    intro accepted req hist sent v
    simp only [Watch.Phase.step] at hm
    split at hm
    · cases hm
      trivial
    · split at hm <;> cases hm <;> trivial
  refine .sent (ws₀.moved s.served.system id m) msgs hle hclient hpath hneed ?_
    ⟨hsame.1.trans hstatic.1, hsame.2.trans hstatic.2⟩ (Served.put_self ..) (Tells.rows hmsgs _)
    (hleft ..)
  exact List.getElem?_set_self (List.getElem?_eq_some_iff.1 hws).1

/-- Whatever the hub and its server do. -/
theorem Mirrored.served (hX : X.Sound) (hreach : Reaches (mirror X) (Mirror.undisturbed X) s)
    (h : Mirrored X s) {l : Served.Label} {served' : Served}
    (hok : s.undisturbed X (.serve l)) (haligned : s.aligned X (.serve l))
    (hstep : s.served.step X.srv l = some served') : Mirrored X { s with served := served' } := by
  obtain ⟨hserved, hsystem⟩ := Mirror.reaches hreach
  have hinv := Watch.Reaches.inv hsystem
  have hcalm := Watch.Reaches.calm hX.committed hsystem
  cases l with
  | hub l =>
    obtain ⟨system, hl, rfl⟩ := Option.map_eq_some_iff.1 hstep
    refine ⟨h.hub.stepped hl, h.kept, fun id cursor heard writer hid hphase => ?_⟩
    have hfollowing := h.stream id cursor heard writer hid hphase
    by_cases hown : ∃ act, l = .watch id act
    · obtain ⟨act, rfl⟩ := hown
      refine hfollowing.moved hX hserved hcalm h.hub hl ?_ (haligned hid)
      rintro snap rfl
      exact hok hid
    · refine hfollowing.others hinv hl (fun act heq => hown ⟨act, heq⟩) ?_
      cases l with
      | watch id' act =>
        have hne : id ≠ id' := fun heq => hown ⟨act, by rw [heq]⟩
        exact s.served.put_of_ne hne _
      | _ => rfl
  | cut id' rows n err =>
    simp only [Served.step] at hstep
    split at hstep
    · next streamed hreading =>
      obtain ⟨system, hl, rfl⟩ := Option.map_eq_some_iff.1 hstep
      refine ⟨h.hub.stepped hl, h.kept, fun id cursor heard writer hid hphase => ?_⟩
      have hfollowing := h.stream id cursor heard writer hid hphase
      by_cases hown : id = id'
      · subst hown
        exact hfollowing.cut hreading hl fun msg hmsg =>
          X.srv.sendRows_kind rows msg (List.mem_of_mem_take hmsg)
      · refine hfollowing.others hinv hl (fun act heq => ?_) (s.served.put_of_ne hown _)
        cases heq
        exact hown rfl
    · cases hstep

/-- The stored cursor stands for what the rows hold. -/
theorem Kept.asks (hX : X.Sound) {store : MemoryStore} {state : State} {installed : Option Snapshot}
    {n : Nat} (h : Kept X installed store state n) (hne : store.cursor ≠ "")
    (haligned : ∀ snap ∈ installed, ∀ c ∈ (X.srv.decodeCursor X.parseLSN store.cursor).toOption,
      ∀ t ∈ X.history, snap.covers t = .ok true → t.after c = .ok false) :
    ∃ lsn < 2 ^ 64, X.srv.decodeCursor X.parseLSN store.cursor = .ok ⟨X.srv.sourceID, lsn⟩ ∧
      X.passed lsn = n := by
  rcases h.cursor with hempty | ⟨c, hc, hcursor, hle, hcovers⟩
  · exact absurd hempty hne
  · have hdecode := Server.decodeCursor_encodeCursor hX.serves hX.readsBack hc
    rw [← hcursor] at hdecode
    refine ⟨c.lsn, hc, hdecode, ?_⟩
    rcases hcovers with heq | ⟨snap, hsnap, hcovered, -⟩
    · exact heq
    · refine Nat.le_antisymm hle (Nat.le_of_not_lt fun hlt => ?_)
      -- the first transaction after the cursor would be covered, hence not after it
      obtain ⟨t, ht⟩ : ∃ t, X.history[X.passed c.lsn]? = some t :=
        ⟨_, List.getElem?_eq_getElem (hlt.trans_le h.le)⟩
      have hbefore : t ∈ X.history.take n :=
        List.mem_iff_getElem?.2 ⟨_, by rw [List.getElem?_take_of_lt hlt]; exact ht⟩
      have hmem := List.mem_of_getElem? ht
      have hafter := haligned snap hsnap _ (by rw [hdecode]; rfl) t hmem (hcovered t hbefore)
      simp only [Transaction.after, hX.committed.source t hmem, ne_eq, not_true_eq_false, if_false,
        Except.ok.injEq, decide_eq_false_iff_not, ge_iff_le, Nat.not_le] at hafter
      exact Nat.lt_irrefl _ ((Scene.lt_passed_iff hX ht).2 hafter)

/-- The server takes the client's Watch call, which asks for what its rows do not hold. -/
theorem Kept.request (hX : X.Sound) {client : Sync MemoryStore RowMap} {installed : Option Snapshot}
    {n : Nat} (h : Kept X installed client.store client.state n)
    (haligned : client.snapshot = false → ∀ snap ∈ installed,
      ∀ c ∈ (X.srv.decodeCursor X.parseLSN client.store.cursor).toOption,
        ∀ t ∈ X.history, snap.covers t = .ok true → t.after c = .ok false) :
    ∃ resumeCursor, X.srv.request X.parseLSN X.name X.scope
        (if client.snapshot then "" else client.store.cursor) =
          .ok ⟨X.name, X.scope, resumeCursor⟩ ∧
      Asks X ⟨X.name, X.scope, resumeCursor⟩ n := by
  by_cases hempty : (if client.snapshot then "" else client.store.cursor) = ""
  · rw [hempty]
    exact ⟨"", rfl, .inl rfl⟩
  · have hforced : client.snapshot = false := by
      rw [← Bool.not_eq_true]
      exact fun hsnapshot => hempty (if_pos hsnapshot)
    rw [hforced, if_neg Bool.false_ne_true] at hempty ⊢
    obtain ⟨lsn, hlsn, hdecode, hpassed⟩ := h.asks hX hempty (haligned hforced)
    refine ⟨X.srv.lsnString lsn, ?_, .inr ⟨lsn, hlsn, rfl, hpassed⟩⟩
    unfold Server.request
    rw [if_pos hempty, hdecode]
    rfl

/-- The client opens a stream. -/
theorem Mirrored.opened (hX : X.Sound) (hreach : Reaches (mirror X) (Mirror.undisturbed X) s)
    (h : Mirrored X s) {failure : Option Code} {s' : Mirror}
    (haligned : s.aligned X (.open_ failure)) (hstep : s.step X (.open_ failure) = some s') :
    Mirrored X s' := by
  obtain ⟨client, hclient, rfl⟩ := Option.map_eq_some_iff.1 hstep
  obtain ⟨hstore, hstate, hopened⟩ := Sync.step_open hclient
  obtain ⟨n, hkept⟩ := h.kept
  have hkept' : Kept X s.installed client.store client.state n := by
    rw [hstore, hstate]
    exact hkept
  split
  · next cursor heard writer hphase =>
    obtain ⟨rfl, hcursor⟩ := hopened cursor heard writer hphase
    obtain ⟨resumeCursor, hrequest, hasks⟩ := hkept.request hX haligned
    rw [← hcursor, ← h.hub.parse] at hrequest
    have hwatch : s.served.system.openWatch ⟨X.name, X.scope, resumeCursor⟩ =
        { s.served.system with
          hub := { s.served.system.hub with
            registry := s.served.system.hub.registry.setCell s.served.system.watches.length
              X.watcher }
          watches := s.served.system.watches ++
            [⟨⟨X.name, X.scope, resumeCursor⟩, .start, [], {}⟩] } := by
      simp only [Watch.System.openWatch, h.hub.projection]
      rfl
    have hfresh : s.served.streams s.served.system.watches.length = [] :=
      (Served.staged (Mirror.reaches hreach).1).fresh _ (Nat.le_refl _)
    simp only [Mirror.connect, hrequest, hwatch]
    refine ⟨⟨h.hub.source, h.hub.parse, h.hub.projection⟩, ⟨n, hkept'⟩, ?_⟩
    rintro id cursor' heard' writer' hid -
    cases hid
    refine ⟨⟨⟨X.name, X.scope, resumeCursor⟩, .start, [], {}⟩, .live n none,
      .live n none, ?_, ?_, ?_,
      ⟨⟨cursor, heard, hphase⟩, hkept', fun _ hsnap => by cases hsnap⟩, ?_, rfl, rfl, rfl, n, rfl,
      hasks⟩
    · exact List.getElem?_concat_length
    · simp [Watch.Registry.setCell, Watch.Watcher.Static]
    · exact Nat.zero_le _
    · show Path _ _ ((s.served.streams s.served.system.watches.length).drop 0) _
      rw [hfresh]
      exact .nil _
  · next hphase =>
    refine ⟨h.hub, ⟨n, hkept'⟩, fun id cursor heard writer _ hstreaming => ?_⟩
    exact absurd hstreaming (hphase cursor heard writer)

/-- The client receives a message. -/
theorem Mirrored.received (hX : X.Sound) (h : Mirrored X s) {s' : Mirror}
    (hstep : s.step X .recv = some s') : Mirrored X s' := by
  obtain ⟨id, hid, hstep⟩ := Option.bind_eq_some_iff.1 hstep
  obtain ⟨msg, hmsg, hstep⟩ := Option.bind_eq_some_iff.1 hstep
  obtain ⟨client, hclient, rfl⟩ := Option.map_eq_some_iff.1 hstep
  obtain ⟨cursor, heard, writer, hphase⟩ := Sync.streaming_of_recv hclient
  obtain ⟨ws, v, v', hws, hstatic, hle, hat, hpath, hhub⟩ :=
    h.stream id cursor heard writer hid hphase
  have hlt : s.received < (s.served.streams id).length := (List.getElem?_eq_some_iff.1 hmsg).1
  have hdrop : (s.served.streams id).drop s.received =
      msg :: (s.served.streams id).drop (s.received + 1) := by
    rw [List.drop_eq_getElem_cons hlt, (List.getElem?_eq_some_iff.1 hmsg).2]
  have hneed : s.needOf id = ws.history.need := by simp [Mirror.needOf, hws]
  rw [hdrop] at hpath
  cases hpath with
  | cons htells hrest =>
    rw [hneed]
    rcases hat.told hX htells hclient with hat' | ⟨⟨err, hended⟩, hkept⟩
    · refine ⟨h.hub, hat'.kept, fun id' cursor' heard' writer' hid' _ => ?_⟩
      cases hid.symm.trans hid'
      exact ⟨ws, _, v', hws, hstatic, hlt, hat', hrest, hhub⟩
    · refine ⟨h.hub, hkept, fun id' cursor' heard' writer' _ hphase' => ?_⟩
      cases hended.symm.trans hphase'

/-- The client does something off the stream. -/
theorem Mirrored.offStream (h : Mirrored X s) {l : Label} (hl : l.offStream = true)
    {client : Sync MemoryStore RowMap} (hstep : s.client.step memoryStore l = some client) :
    Mirrored X { s with client := client } := by
  obtain ⟨hstore, hstate, hphase⟩ := Sync.step_offStream hl hstep
  obtain ⟨n, hkept⟩ := h.kept
  refine ⟨h.hub, ⟨n, ?_⟩, fun id cursor heard writer _ hstreaming => ?_⟩
  · show Kept X s.installed client.store client.state n
    rw [hstore]
    exact hkept.stale hstate
  · exact absurd hstreaming (hphase cursor heard writer)

theorem Mirrored.initial (hs : (mirror X).init s) : Mirrored X s := by
  obtain ⟨cfg, hub, low, high, -, hhosts, rfl⟩ := hs
  refine ⟨hhosts, ⟨0, rfl, Nat.zero_le _, ?_, .inl rfl, nofun⟩, nofun⟩
  exact .empty

/-- **Every run** that is undisturbed and aligned is mirrored. -/
theorem Mirror.mirrored (hX : X.Sound)
    (h : Reaches (mirror X) (fun s l => s.undisturbed X l ∧ s.aligned X l) s) : Mirrored X s := by
  refine h.invariant (fun s hs => .initial hs) ?_
  intro s l s' hreach hs hok hstep
  have hreach' : Reaches (mirror X) (Mirror.undisturbed X) s := hreach.mono fun _ _ hok => hok.1
  cases l with
  | serve l =>
    obtain ⟨served', hserved, rfl⟩ := Option.map_eq_some_iff.1 hstep
    exact hs.served hX hreach' hok.1 hok.2 hserved
  | open_ failure => exact hs.opened hX hreach' hok.2 hstep
  | recv => exact hs.received hX hstep
  | lose status =>
    cases status with
    | none =>
      obtain ⟨client, hclient, rfl⟩ := Option.map_eq_some_iff.1 hstep
      exact hs.offStream rfl hclient
    | some code =>
      obtain ⟨client, hclient, rfl⟩ := Option.map_eq_some_iff.1 hstep
      exact hs.offStream rfl hclient
  | next cancelled =>
    obtain ⟨client, hclient, rfl⟩ := Option.map_eq_some_iff.1 hstep
    exact hs.offStream rfl hclient
  | wait cancelled =>
    obtain ⟨client, hclient, rfl⟩ := Option.map_eq_some_iff.1 hstep
    exact hs.offStream rfl hclient

end Steps

/-- **A fresh client shows a state that existed.**  In every undisturbed run in which cursors stand
for what the client's rows hold, a client that is fresh at a position holds the scope's rows after
some prefix of the history, and that prefix contains every transaction at or before the position. -/
theorem fresh_state_existed (X : Scene) (hX : X.Sound) {s : Mirror}
    (h : Reaches (mirror X) (fun s l => s.undisturbed X l ∧ s.aligned X l) s)
    (hfresh : s.client.state.fresh = true) :
    ∃ (c : Cursor) (n : Nat), s.client.state.cursor = X.srv.encodeCursor c ∧
      Represents X.primaryKey s.client.store.rows (X.rowsAfter n) ∧
      ∀ t ∈ X.history, t.cursor.lsn ≤ c.lsn → t ∈ X.history.take n := by
  obtain ⟨n, hkept⟩ := (Mirror.mirrored hX h).kept
  obtain ⟨c, hcursor, hpassed⟩ := hkept.fresh hfresh
  refine ⟨c, n, hcursor, hkept.rows, fun t ht hle => ?_⟩
  obtain ⟨i, hi⟩ := List.mem_iff_getElem?.1 ht
  have hlt : i < X.passed c.lsn :=
    (Scene.lt_passed_iff hX hi).2 ((hX.committed.commit t ht).trans_le hle)
  have htaken : (X.history.take n)[i]? = some t := by
    rw [List.getElem?_take_of_lt (hlt.trans_le hpassed), hi]
  exact List.mem_iff_getElem?.2 ⟨i, htaken⟩

namespace Demo

open Watch.Demo
open Wire.Demo (mainServer parseHexLSN parseHexLSN_parses)

/-- A transaction of the tenant whose commit record is at `lsn`. -/
def commit (lsn : Nat) (xid : UInt32) (changes : List Cdc.Change) : Transaction :=
  { cursor := ⟨"main", lsn + 1⟩, changes := changes, commitLSN := lsn, xid := xid }

/-- The third transaction replaces the member that the second one inserts. -/
def scene : Scene where
  srv := mainServer
  parseLSN := parseHexLSN
  name := "members"
  projection := members
  scope := tenant
  history := [commit 2 11 [member .insert 0x30 ⟨.null, []⟩],
    commit 4 12 [member .insert 0x31 ⟨.null, []⟩],
    commit 6 13 [member .delete 0x31 ⟨.null, []⟩, member .insert 0x32 ⟨.null, []⟩]]

theorem scene_sound : scene.Sound where
  serves := ⟨by decide, by decide⟩
  readsBack := readsBack_of_hex (fun _ _ => rfl) parseHexLSN_parses
  committed := ⟨by decide, by decide, by decide, by decide, by decide⟩
  wellFormed t ht c hc := by
    have hmem : c ∈ t.changes := List.mem_of_mem_filter hc
    have hmember : ∃ operation user, user ≠ 0 ∧ c = member operation user ⟨.null, []⟩ := by
      simp only [scene, List.mem_cons, List.not_mem_nil, or_false] at ht
      rcases ht with rfl | rfl | rfl
      · exact ⟨_, _, by decide, List.mem_singleton.1 hmem⟩
      · exact ⟨_, _, by decide, List.mem_singleton.1 hmem⟩
      · rcases List.mem_pair.1 hmem with rfl | rfl
        · exact ⟨_, _, by decide, rfl⟩
        · exact ⟨_, _, by decide, rfl⟩
    obtain ⟨operation, user, huser, rfl⟩ := hmember
    exact member_wellFormed operation huser _

/-- A new hub and a client with an empty store. -/
def begun : Option Mirror :=
  (Watch.Hub.new parseHexLSN (config 10 10)).toOption.map fun hub =>
    { served := { system := { hub := hub } }
      client := .start { primaryKey := spec.primaryKey } 0 0 }

theorem exists_of_begun (ok : Mirror → Mirror.Label → Prop) [∀ s l, Decidable (ok s l)]
    (ls : List Mirror.Label) (P : Mirror → Prop) [DecidablePred P]
    (h : (begun.bind fun s => runWhile (mirror scene) ok s ls).any (fun s => P s) = true) :
    ∃ s, Reaches (mirror scene) ok s ∧ P s := by
  obtain ⟨s, hs, hP⟩ := (Option.any_eq_true _ _).1 h
  obtain ⟨s₀, hs₀, hrun⟩ := Option.bind_eq_some_iff.1 hs
  cases hs₀
  have hinit : (mirror scene).init _ := ⟨config 10 10, _, 0, 0, rfl, ⟨rfl, rfl, rfl⟩, rfl⟩
  exact ⟨s, .of_runWhile (.init hinit) hrun, of_decide_eq_true hP⟩

/-- Steps of a watch. -/
def steps (id : Watch.WatcherId) (n : Nat) : List Mirror.Label :=
  List.replicate n (.serve (.hub (.watch id .run)))

/-- The hub accepts transactions. -/
def accepts (ts : List Transaction) : List Mirror.Label := ts.map fun t => .serve (.hub (.accept t))

/-- A snapshot of another tenant sets the replay floor. -/
def elsewhere : List Mirror.Label :=
  .serve (.hub (.open_ ⟨"members", [0x38], ""⟩)) :: steps 0 3 ++
    .serve (.hub (.watch 0 (.read (.ok (snapshot 1))))) :: steps 0 3

/-- A member. -/
def row (user : UInt8) : Watch.Row :=
  fill ∅ [("tenant_id", some tenant), ("user_id", some [user]), ("note", none)]

/-- The client gets a snapshot that covers the whole history, and is told how far it is. -/
def installs : List Mirror.Label :=
  .open_ none :: steps 1 3 ++
    [.serve (.hub (.watch 1 (.rows [row 0x30, row 0x32]))),
      .serve (.hub (.watch 1 (.read (.ok (snapshot 7)))))] ++ steps 1 8 ++ List.replicate 5 .recv

/-- The client loses its stream and waits. -/
def disconnects : List Mirror.Label := [.lose none, .next false, .wait false]

/-- The hub is behind the snapshot when the client disconnects, and has accepted part of what the
snapshot covers when it resumes. -/
def behind : List Mirror.Label :=
  elsewhere ++ accepts (scene.history.take 1) ++ installs ++ disconnects ++
    accepts ((scene.history.take 2).drop 1) ++ .open_ none :: steps 2 7 ++ [.recv, .recv]

/-- The hub has accepted everything the snapshot covers. -/
def abreast : List Mirror.Label :=
  elsewhere ++ accepts scene.history ++ installs ++ disconnects ++
    .open_ none :: steps 2 6 ++ [.recv]

end Demo

/-- A client that is fresh on rows that never existed: it resumed behind the snapshot it had
installed, and holds the member that was replaced along with the one that replaced it. -/
theorem fresh_mixture :
    ∃ s : Mirror, Demo.scene.Sound ∧
      Reaches (mirror Demo.scene) (Mirror.undisturbed Demo.scene) s ∧
      s.client.state = ⟨true, Demo.scene.srv.encodeCursor ⟨"main", 5⟩⟩ ∧
      ∀ n, ¬Represents Demo.scene.primaryKey s.client.store.rows (Demo.scene.rowsAfter n) := by
  obtain ⟨s, hs, hstate, hreplaced, hreplacement⟩ :=
    Demo.exists_of_begun (Mirror.undisturbed Demo.scene) Demo.behind
      (fun s => s.client.state = ⟨true, Demo.scene.srv.encodeCursor ⟨"main", 5⟩⟩ ∧
        (s.client.store.rows.lookup (joinKey [Watch.Demo.tenant, [0x31]])).isSome = true ∧
        (s.client.store.rows.lookup (joinKey [Watch.Demo.tenant, [0x32]])).isSome = true)
      (by decide)
  refine ⟨s, Demo.scene_sound, hs, hstate, fun n hrows => ?_⟩
  rw [hrows.lookup _ ⟨rfl, by decide⟩, Option.isSome_map] at hreplaced hreplacement
  have hnever : ∀ n ≤ 3, ¬((Demo.scene.rowsAfter n [Watch.Demo.tenant, [0x31]]).isSome = true ∧
      (Demo.scene.rowsAfter n [Watch.Demo.tenant, [0x32]]).isSome = true) := by decide
  have htake : Demo.scene.rowsAfter n = Demo.scene.rowsAfter (min n 3) := by
    unfold Scene.rowsAfter
    rw [List.take_eq_take_min]
    rfl
  rw [htake] at hreplaced hreplacement
  exact hnever (min n 3) (Nat.min_le_right ..) ⟨hreplaced, hreplacement⟩

/-- The client reconnects to a hub that has accepted everything its snapshot covers. -/
theorem fresh_state_existed_abreast :
    ∃ s : Mirror, Reaches (mirror Demo.scene)
        (fun s l => s.undisturbed Demo.scene l ∧ s.aligned Demo.scene l) s ∧
      s.watch = some 2 ∧ s.client.state.fresh = true ∧
      ∃ (c : Cursor) (n : Nat), s.client.state.cursor = Demo.scene.srv.encodeCursor c ∧
        Represents Demo.scene.primaryKey s.client.store.rows (Demo.scene.rowsAfter n) ∧
        ∀ t ∈ Demo.scene.history, t.cursor.lsn ≤ c.lsn → t ∈ Demo.scene.history.take n := by
  obtain ⟨s, hs, hwatch, hfresh⟩ := Demo.exists_of_begun
    (fun s l => s.undisturbed Demo.scene l ∧ s.aligned Demo.scene l) Demo.abreast
    (fun s => s.watch = some 2 ∧ s.client.state.fresh = true) (by decide)
  exact ⟨s, hs, hwatch, hfresh, fresh_state_existed Demo.scene Demo.scene_sound hs hfresh⟩

end Watchd.Sdk
