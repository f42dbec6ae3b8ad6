import Watchd.Watch.Progress

/-!
# A hub that follows a history undisturbed

The hub accepts the transactions of one history in commit order, with room in the
ring and in every queue and without shape changes.  Nothing is evicted and no
watcher is ended then, so every watch is owed what it needs of everything the hub
has accepted.

`Reaches.calm` states it.
-/

namespace Watchd.Watch

open Watchd.Cdc Watchd.Lib

/-- Transactions of one source in commit order, none of which changes a shape. -/
structure Committed (sourceID : String) (history : List Transaction) : Prop where
  source : ∀ t ∈ history, t.cursor.sourceID = sourceID
  commit : ∀ t ∈ history, t.commitLSN < t.cursor.lsn
  ordered : history.Pairwise fun t t' => t.cursor.lsn ≤ t'.commitLSN
  bounded : ∀ t ∈ history, t.cursor.lsn < 2 ^ 64
  shapes : ∀ t ∈ history, t.incompatible = []

/-- A new transaction is the history's next one, and there is room for it. -/
def calm (history : List Transaction) (s : System) : Label → Prop
  | .accept t => s.hub.isNew t = .ok true →
    s.accepted ++ [t] <+: history ∧ s.hub.window.ring.length < s.hub.window.maxReplay ∧
      ∀ id ∈ s.hub.registry.watchers, (s.hub.registry.cell id).changesOf t ≠ [] →
        (s.hub.registry.cell id).queue.length < s.hub.registry.queueSize
  | _ => True

instance (history : List Transaction) (s : System) : (l : Label) → Decidable (calm history s l)
  | .accept _ => inferInstanceAs (Decidable (_ → _))
  | .close _ | .stop | .open_ _ | .watch _ _ => .isTrue trivial

/-- Nothing was lost on the way from the history to the watches. -/
structure Calm (history : List Transaction) (s : System) : Prop where
  follows : s.accepted <+: history
  ring : s.hub.window.ring = s.accepted
  ended : ∀ (id : WatcherId) ws, s.watches[id]? = some ws → ws.history.ended = none
  rings : ∀ (id : WatcherId) ws, s.watches[id]? = some ws →
    ws.history.ring = s.accepted.take ws.history.registeredAt

section Calm

variable {history : List Transaction} {sourceID : String} {s s' : System}

theorem Window.append_ring_of_room {w : Window} {evicted : List Transaction} {t : Transaction}
    (hret : w.Retains evicted) (hroom : w.ring.length < w.maxReplay) :
    (w.append t).ring = w.ring ++ [t] := by
  rcases hret.append_cases t with ⟨-, heq⟩ | ⟨oldest, ring, hsplit, hfull, -⟩
  · rw [heq]
  · have hlen := congrArg List.length hsplit
    simp only [List.length_append, List.length_cons, List.length_nil] at hlen
    omega

/-- With room in its queue and without a shape change, a watcher stays registered. -/
theorem Hub.registered_of_room {h : Hub} (hidx : Indexed h.registry) (hscratch : h.scratch = {})
    {t : Transaction} (ht : t.incompatible = []) {id : WatcherId} (hid : id ∈ h.registry.watchers)
    (hroom : (h.registry.cell id).changesOf t ≠ [] →
      (h.registry.cell id).queue.length < h.registry.queueSize) :
    id ∈ (h.acceptNew t).registry.watchers := by
  obtain ⟨-, -, -, hin⟩ := Hub.acceptNew_outcome hidx hscratch t
  have hnot : ¬reports t (h.registry.cell id).projection.table := by
    rintro ⟨i, hi, -⟩
    rw [ht] at hi
    cases hi
  have hview : ((h.acceptNew t).registry.view id).2 = true := by
    have hout := hin id hid
    generalize (h.acceptNew t).registry.view id = v at hout ⊢
    cases hout with
    | schemaChanged hrep => exact absurd hrep hnot
    | unconcerned hrep hc => rfl
    | queued hrep hc hqueue memo => rfl
    | slow hrep hc hfull => exact absurd (hroom hc) (by omega)
  simpa [Registry.view] using hview

theorem Calm.accepted (hinv : Inv s) (h : Calm history s) (hhist : Committed sourceID history)
    {t : Transaction} (hnew : s.hub.isNew t = .ok true) (hok : calm history s (.accept t))
    (closing : List TickId) :
    Calm history { s with
      hub := s.hub.acceptNew t
      watches := s.watches.mapIdx (WatchState.noteAccept s t (s.hub.acceptNew t))
      closing := closing
      accepted := s.accepted ++ [t] } := by
  obtain ⟨hpre, hring, hroom⟩ := hok hnew
  obtain ⟨evicted, hacc, hret⟩ := hinv.retains
  have ht : t.incompatible = [] := hhist.shapes t (hpre.subset (by simp))
  have hkept : ∀ (id : WatcherId) (ws : WatchState),
      ws.noteAccept s t (s.hub.acceptNew t) id = ws := by
    intro id ws
    unfold WatchState.noteAccept
    refine if_neg fun hout => hout.2 ?_
    exact Hub.registered_of_room hinv.indexed hinv.scratch ht hout.1 (hroom id hout.1)
  refine ⟨hpre, ?_, fun id ws hws => ?_, fun id ws hws => ?_⟩
  · show (s.hub.acceptNew t).window.ring = s.accepted ++ [t]
    rw [Hub.acceptNew_ring, Window.append_ring_of_room hret hring, h.ring]
  · rw [List.getElem?_mapIdx, Option.map_eq_some_iff] at hws
    obtain ⟨ws₀, hws₀, rfl⟩ := hws
    rw [hkept]
    exact h.ended id ws₀ hws₀
  · rw [List.getElem?_mapIdx, Option.map_eq_some_iff] at hws
    obtain ⟨ws₀, hws₀, rfl⟩ := hws
    rw [hkept, List.take_append_of_le_length (hinv.watch id ws₀ hws₀).books.registeredAt_le_length]
    exact h.rings id ws₀ hws₀

/-- A watch's step notes at most its registration. -/
theorem History.note_ring (hist : History) (s : System) (id : WatcherId) (p p' : Phase) :
    ((hist.note s id p p').ring = hist.ring ∧
        (hist.note s id p p').registeredAt = hist.registeredAt) ∨
      (hist.note s id p p').ring = s.hub.window.ring ∧
        (hist.note s id p p').registeredAt = s.accepted.length := by
  unfold History.note
  split
  · exact .inl ⟨rfl, rfl⟩
  · exact .inl ⟨rfl, rfl⟩
  · exact .inr ⟨rfl, rfl⟩
  · exact .inr ⟨rfl, rfl⟩
  · exact .inl ⟨rfl, rfl⟩
  · exact .inl ⟨rfl, rfl⟩

theorem Calm.moved (h : Calm history s) {id : WatcherId} {ws : WatchState} {m : Move}
    (hws : s.watches[id]? = some ws) (hm : Moves s.hub id ws.phase m) :
    Calm history (s.moved id ws m) := by
  have hlt : id < s.watches.length := (List.getElem?_eq_some_iff.1 hws).1
  refine ⟨h.follows, hm.ring_eq.1.trans h.ring, fun id' ws' hws' => ?_, fun id' ws' hws' => ?_⟩
  · simp only [System.moved, List.getElem?_set, if_pos hlt] at hws'
    split at hws'
    · cases hws'
      exact (History.note_ended ..).trans (h.ended id ws hws)
    · exact h.ended id' ws' hws'
  · simp only [System.moved, List.getElem?_set, if_pos hlt] at hws'
    split at hws'
    · cases hws'
      show (ws.history.note s id ws.phase m.phase).ring =
        s.accepted.take (ws.history.note s id ws.phase m.phase).registeredAt
      rcases ws.history.note_ring s id ws.phase m.phase with ⟨hring, hat⟩ | ⟨hring, hat⟩
      · rw [hring, hat]
        exact h.rings id ws hws
      · rw [hring, hat, List.take_length]
        exact h.ring
    · exact h.rings id' ws' hws'

theorem Calm.joined (h : Calm history s) {hub : Hub} {ws : WatchState}
    (hwindow : hub.window = s.hub.window) (hws : ws.history = {}) :
    Calm history { s with hub := hub, watches := s.watches ++ [ws] } := by
  refine ⟨h.follows, (congrArg Window.ring hwindow).trans h.ring, fun id ws' hws' => ?_,
    fun id ws' hws' => ?_⟩
  · rcases getElem?_append_singleton hws' with hold | ⟨-, rfl⟩
    · exact h.ended id ws' hold
    · rw [hws]
  · rcases getElem?_append_singleton hws' with hold | ⟨-, rfl⟩
    · exact h.rings id ws' hold
    · rw [hws]
      rfl

/-- **An undisturbed hub loses nothing.** -/
theorem Reaches.calm (hhist : Committed sourceID history) (h : Reaches machine (calm history) s) :
    Calm history s := by
  refine h.invariant ?_ ?_
  · rintro s ⟨parseLSN, cfg, hub, hnew, rfl⟩
    obtain ⟨projections, maxReplay, queueSize, rfl⟩ := Hub.new_ok hnew
    exact ⟨List.nil_prefix, rfl, fun id ws hws => by simp at hws, fun id ws hws => by simp at hws⟩
  · intro s l s' hreach hcalm hok hstep
    cases System.step_stepped hstep with
    | accepted t hnew closing => exact hcalm.accepted (Reaches.inv hreach) hhist hnew hok closing
    | idle l stopped closing closed =>
      exact ⟨hcalm.follows, hcalm.ring, hcalm.ended, hcalm.rings⟩
    | unknown req err hp => exact hcalm.joined rfl rfl
    | opened req p hp => exact hcalm.joined rfl rfl
    | moved id act ws m hws hm => exact hcalm.moved hws hm

/-- The stream of a watch is everything the hub has accepted. -/
theorem Calm.stream (h : Calm history s) {id : WatcherId} {ws : WatchState}
    (hws : s.watches[id]? = some ws) :
    ws.history.ring ++ ws.history.since s.accepted = s.accepted := by
  rw [h.rings id ws hws, History.since, History.endAt_of_none (h.ended id ws hws), List.take_length,
    List.take_append_drop]

/-- What was accepted is the history up to there. -/
theorem Calm.accepted_eq (h : Calm history s) : s.accepted = history.take s.accepted.length :=
  List.prefix_iff_eq_take.1 h.follows

end Calm

end Watchd.Watch
