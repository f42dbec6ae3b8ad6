import Watchd.Watch.Delivery

/-!
# The replay floor

The floor is set by the first snapshot and raised by evictions and shape changes.
Until it is set, what it has to dominate is kept in `lastEvicted`, which a shape
change raises and an eviction overwrites: a mark of a shape change that is still
in the ring is lost by the eviction of an older transaction.

* `Window.Remembers`: what `lastEvicted` is, over every order of accepted
  transactions and evictions;
* `Window.above_record_iff`: when the first snapshot sets a floor that dominates
  every shape change, told by the accepted transactions alone;
* `floor_dominates`: the floor dominates every shape change in every run whose
  first snapshot is such a one.
-/

namespace Watchd.Watch

open Watchd.Cdc Watchd.Lib

/-- The cursor a Watch call is about to record as its snapshot's. -/
def Phase.recording? : Phase → Option Cursor
  | .recordSnapshot _ snap => some snap.cursor
  | _ => none

theorem Phase.step_window {req : Request} {closed : TickId → Bool} {h : Hub} {id : WatcherId}
    {p : Phase} {act : Act} {m : Move} (hm : p.step req closed h id act = some m) :
    m.hub.window = (p.recording?.map h.window.recordSnapshotLocked).getD h.window := by
  cases hp : p.recording? with
  | some c =>
    cases p with
    | recordSnapshot batches snap =>
      cases act <;> simp only [Phase.step, reduceCtorEq] at hm
      cases hm
      cases hp
      rfl
    | _ => cases hp
  | none =>
    have hmoves := Phase.step_moves hm
    cases hmoves with
    | recorded batches snap => cases hp
    | _ => rfl

/-- What a step of the system does to the window and to the list of accepted transactions. -/
theorem System.step_window {s s' : System} {l : Label} (hs : s.step l = some s') :
    (∃ t, l = .accept t ∧ s.hub.isNew t = .ok true ∧ s'.accepted = s.accepted ++ [t] ∧
      s'.hub.window = (s.hub.acceptNew t).window) ∨
    (∃ id act ws c, l = .watch id act ∧ s.watches[id]? = some ws ∧ ws.phase.recording? = some c ∧
      s'.accepted = s.accepted ∧ s'.hub.window = s.hub.window.recordSnapshotLocked c) ∨
    ((∀ id act ws, l = .watch id act → s.watches[id]? = some ws → ws.phase.recording? = none) ∧
      s'.accepted = s.accepted ∧ s'.hub.window = s.hub.window) := by
  have hother (hne : ∀ id act, l ≠ .watch id act) :
      (∃ t, l = .accept t ∧ s.hub.isNew t = .ok true ∧ s'.accepted = s.accepted ++ [t] ∧
        s'.hub.window = (s.hub.acceptNew t).window) ∨
      s'.accepted = s.accepted ∧ s'.hub.window = s.hub.window := by
    have hstepped := System.step_stepped hs
    cases hstepped with
    | accepted t hnew closing => exact .inl ⟨t, rfl, hnew, rfl, rfl⟩
    | moved id act ws m hws hm => exact absurd rfl (hne id act)
    | _ => exact .inr ⟨rfl, rfl⟩
  cases l with
  | watch id act =>
    right
    simp only [System.step] at hs
    obtain ⟨ws, hws, hmap⟩ := Option.bind_eq_some_iff.1 hs
    obtain ⟨m, hm, rfl⟩ := Option.map_eq_some_iff.1 hmap
    have hwindow := Phase.step_window hm
    cases hp : ws.phase.recording? with
    | some c =>
      rw [hp] at hwindow
      exact .inl ⟨id, act, ws, c, rfl, hws, hp, rfl, hwindow⟩
    | none =>
      rw [hp] at hwindow
      refine .inr ⟨?_, rfl, hwindow⟩
      rintro _ _ ws' ⟨⟩ hws'
      rw [hws] at hws'
      cases hws'
      exact hp
  | _ =>
    rcases hother (fun _ _ hl => by cases hl) with haccept | ⟨hacc, hw⟩
    · exact .inl haccept
    · exact .inr (.inr ⟨(fun _ _ _ hl => by cases hl), hacc, hw⟩)

/-! ## What the floor dominates -/

/-- The floor, once set, is at or after every cursor in `Q` that it can be compared with. -/
def Window.Above (Q : Cursor → Prop) (w : Window) : Prop :=
  ∀ f ∈ w.floor, ∀ c, Q c → c.sourceID = f.sourceID → c.lsn ≤ f.lsn

namespace Window.Above

variable {Q Q' : Cursor → Prop} {w w' : Window}

/-- Raising the floor to `mark` makes it dominate `mark` as well. -/
theorem raised (mark : Cursor) (h : w.Above Q) (hfloor : w'.floor = w.floor.map (raise mark))
    (hQ : ∀ c, Q' c → Q c ∨ c = mark) : w'.Above Q' := by
  intro f hf c hc hsrc
  rw [hfloor] at hf
  obtain ⟨f₀, hf₀, rfl⟩ := Option.map_eq_some_iff.1 hf
  have hle := le_raise mark f₀
  rcases hQ c hc with hc | rfl
  · exact (h f₀ hf₀ c hc (hsrc.trans hle.1)).trans hle.2
  · exact le_raise_of_source (hsrc.trans hle.1)

theorem invalidateAll {t : Transaction} (is : List IncompatibleRelationError) :
    ∀ {w : Window}, w.Above Q → (∀ c, Q' c → Q c ∨ is ≠ [] ∧ c = t.cursor) →
      (is.foldl (fun w _ => w.invalidate t.cursor) w).Above Q' := by
  induction is generalizing Q with
  | nil =>
    intro w h hQ f hf c hc
    rcases hQ c hc with hc | ⟨hne, -⟩
    · exact h f hf c hc
    · exact absurd rfl hne
  | cons i is ih =>
    intro w h hQ
    have hraised : (w.invalidate t.cursor).Above Q' :=
      h.raised t.cursor rfl fun c hc => (hQ c hc).imp_right And.right
    exact ih hraised fun c hc => .inl hc

theorem acceptNew {h : Hub} {evicted : List Transaction} (hret : h.window.Retains evicted)
    (hw : h.window.Above Q) {t : Transaction}
    (hQ : ∀ c, Q' c → Q c ∨ t.incompatible ≠ [] ∧ c = t.cursor) :
    (h.acceptNew t).window.Above Q' := by
  rw [Hub.acceptNew_window]
  refine invalidateAll t.incompatible (Q := Q) ?_ hQ
  rcases hret.append_cases t with ⟨-, heq⟩ | ⟨oldest, ring, -, -, heq⟩
  · rw [heq]
    exact hw
  · exact hw.raised oldest.cursor (by rw [heq]) fun c hc => .inl hc

end Window.Above

/-- The cursors of the accepted transactions that changed a shape. -/
def System.ShapeChange (s : System) (c : Cursor) : Prop :=
  ∃ t ∈ s.accepted, t.incompatible ≠ [] ∧ c = t.cursor

/-- The mark of every shape change that is still in the ring and after `c` has survived in
`lastEvicted`. -/
def Window.MarksKept (w : Window) (c : Cursor) : Prop :=
  ∀ t ∈ w.ring, t.incompatible ≠ [] → later t.cursor c = true →
    ∃ e ∈ w.lastEvicted, t.cursor.sourceID = e.sourceID ∧ t.cursor.lsn ≤ e.lsn

/-- What has been accepted before the first snapshot, at `c`, is recorded: no more than the ring
holds; or the newest transaction changes a shape; or none of the newest `maxReplay` changes one
after `c`. -/
def MarksSurvive (maxReplay : Nat) (accepted : List Transaction) (c : Cursor) : Prop :=
  accepted.length ≤ maxReplay ∨ (∃ t ∈ accepted.getLast?, t.incompatible ≠ []) ∨
    ∀ t ∈ accepted.drop (accepted.length - maxReplay), t.incompatible ≠ [] →
      later t.cursor c = false

instance (maxReplay : Nat) (accepted : List Transaction) (c : Cursor) :
    Decidable (MarksSurvive maxReplay accepted c) :=
  inferInstanceAs (Decidable (_ ∨ (∃ t ∈ accepted.getLast?, t.incompatible ≠ []) ∨ _))

/-- The first snapshot is recorded while the marks of the shape changes after it survive. -/
def recordsMarked (s : System) : Label → Prop
  | .watch id _ => ∀ ws ∈ s.watches[id]?, ∀ c ∈ ws.phase.recording?,
      s.hub.window.floor = none → MarksSurvive s.hub.window.maxReplay s.accepted c
  | _ => True

instance (s : System) : (l : Label) → Decidable (recordsMarked s l)
  | .watch id _ => inferInstanceAs (Decidable (∀ ws ∈ s.watches[id]?,
      ∀ c ∈ ws.phase.recording?, s.hub.window.floor = none →
        MarksSurvive s.hub.window.maxReplay s.accepted c))
  | .accept _ | .close _ | .stop | .open_ _ => .isTrue trivial

/-! ## The mark -/

/-- What the mark in `lastEvicted` is. -/
structure Window.Remembers (w : Window) (evicted : List Transaction) : Prop where
  /-- it is the end of an accepted transaction -/
  accepted : ∀ e ∈ w.lastEvicted, ∃ t ∈ evicted ++ w.ring, e = t.cursor
  /-- until the first eviction it is at or after every shape change -/
  kept : evicted = [] → ∀ t ∈ w.ring, t.incompatible ≠ [] →
    ∃ e ∈ w.lastEvicted, t.cursor.sourceID = e.sourceID ∧ t.cursor.lsn ≤ e.lsn
  /-- the newest transaction marks its own shape change -/
  newest : ∀ t ∈ (evicted ++ w.ring).getLast?, t.incompatible ≠ [] →
    w.lastEvicted = some t.cursor
  /-- any other one overwrites the mark with what it evicts -/
  overwritten : ∀ oldest ∈ evicted.getLast?,
    (∀ t ∈ (evicted ++ w.ring).getLast?, t.incompatible = []) →
      w.lastEvicted = some oldest.cursor

namespace Window.Remembers

variable {w : Window} {evicted : List Transaction}

theorem initial (maxReplay : Nat) : ({ maxReplay := maxReplay } : Window).Remembers [] :=
  ⟨nofun, nofun, nofun, nofun⟩

/-- Only the ring and the mark matter. -/
theorem congr {w' : Window} (h : w.Remembers evicted) (hring : w'.ring = w.ring)
    (hlast : w'.lastEvicted = w.lastEvicted) : w'.Remembers evicted := by
  refine ⟨?_, ?_, ?_, ?_⟩
  · rw [hring, hlast]
    exact h.accepted
  · rw [hring, hlast]
    exact h.kept
  · rw [hring, hlast]
    exact h.newest
  · rw [hring, hlast]
    exact h.overwritten

/-- Recording a transaction leaves the end of an accepted one, also if it evicts. -/
theorem accepted_append (hw : w.Retains evicted) (h : w.Remembers evicted) (t : Transaction) :
    ∀ e ∈ (w.append t).lastEvicted, ∃ a ∈ evicted ++ w.ring ++ [t], e = a.cursor := by
  rcases hw.append_cases t with ⟨-, heq⟩ | ⟨oldest, ring, hring, -, heq⟩
  · rw [heq]
    intro e he
    obtain ⟨a, ha, hea⟩ := h.accepted e he
    exact ⟨a, List.mem_append_left _ ha, hea⟩
  · rw [heq, List.append_assoc, hring]
    rintro e ⟨⟩
    exact ⟨oldest, by simp, rfl⟩

/-- A transaction without a shape change: the mark is as the evictions leave it. -/
theorem append (hw : w.Retains evicted) (h : w.Remembers evicted) {t : Transaction}
    (ht : t.incompatible = []) {evicted' : List Transaction}
    (hsplit : evicted ++ w.ring ++ [t] = evicted' ++ (w.append t).ring) :
    (w.append t).Remembers evicted' := by
  have hlast : (evicted' ++ (w.append t).ring).getLast? = some t := by
    rw [← hsplit, List.getLast?_concat]
  refine ⟨hsplit ▸ accepted_append hw h t, ?_, ?_, ?_⟩
  · intro hnil a ha hinc
    rcases hw.append_cases t with ⟨-, heq⟩ | ⟨oldest, ring, hring, -, heq⟩
    · rw [heq] at ha hsplit ⊢
      have hnone : evicted = [] := by
        rw [hnil, List.append_assoc] at hsplit
        simpa using congrArg List.length hsplit
      rcases List.mem_append.1 ha with hold | hnew
      · exact h.kept hnone a hold hinc
      · rw [List.mem_singleton.1 hnew] at hinc
        exact absurd ht hinc
    · rw [heq, List.append_assoc, hring, hnil] at hsplit
      have hlen := congrArg List.length hsplit
      simp only [List.length_append, List.length_cons, List.nil_append] at hlen
      omega
  · intro a ha hinc
    rw [hlast] at ha
    cases ha
    exact absurd ht hinc
  · intro last hmem _
    rcases hw.append_cases t with ⟨hroom, heq⟩ | ⟨oldest, ring, hring, -, heq⟩
    · -- there is room, so nothing was evicted before either
      have hnone : evicted = [] := by
        by_contra hne
        have hfull := hw.full hne
        omega
      rw [heq, hnone, List.nil_append] at hsplit
      rw [List.append_left_eq_self.1 hsplit.symm] at hmem
      cases hmem
    · rw [heq] at hsplit ⊢
      have hevicted : evicted' = evicted ++ [oldest] := by
        refine List.append_cancel_right (hsplit.symm.trans ?_)
        rw [List.append_assoc, hring, List.append_assoc, List.singleton_append]
      rw [hevicted, List.getLast?_concat] at hmem
      cases hmem
      rfl

/-- Invalidating raises the mark to the transaction's own end. -/
theorem lastEvicted_invalidateAll {c : Cursor} {is : List IncompatibleRelationError}
    (his : is ≠ []) :
    ∀ {w : Window}, (∀ e ∈ w.lastEvicted, e = c ∨ later c e = true) →
      (is.foldl (fun w _ => w.invalidate c) w).lastEvicted = some c := by
  induction is with
  | nil => exact absurd rfl his
  | cons i is ih =>
    intro w hle
    have hmark : (w.invalidate c).lastEvicted = some c := by
      cases he : w.lastEvicted with
      | none => simp [Window.invalidate, he]
      | some e =>
        rcases hle e he with rfl | hlater
        · simp [Window.invalidate, he, raise]
        · simp [Window.invalidate, he, raise, hlater]
    cases is with
    | nil => exact hmark
    | cons i' is => exact ih (by simp) fun e he => by simp_all

/-- Accepting a transaction keeps the invariant: a shape change sets the mark, any other transaction
leaves it to the evictions. -/
theorem acceptNew {h : Hub} (hw : h.window.Retains evicted) (hm : h.window.Remembers evicted)
    {t : Transaction} (hnew : h.isNew t = .ok true) {evicted' : List Transaction}
    (hsplit : evicted ++ h.window.ring ++ [t] = evicted' ++ (h.acceptNew t).window.ring) :
    (h.acceptNew t).window.Remembers evicted' := by
  rw [Hub.acceptNew_ring] at hsplit
  by_cases ht : t.incompatible = []
  · have heq : (h.acceptNew t).window = h.window.append t := by
      rw [Hub.acceptNew_window, ht]
      rfl
    rw [heq]
    exact append hw hm ht hsplit
  · -- everything accepted so far is before `t`
    have hbefore : ∀ a ∈ evicted ++ h.window.ring ++ [t],
        a.cursor = t.cursor ∨ later t.cursor a.cursor = true := by
      intro a ha
      rcases List.mem_append.1 ha with hold | hnew'
      · exact .inr (hw.before_of_isNew hnew a hold)
      · rw [List.mem_singleton.1 hnew']
        exact .inl rfl
    have hmark : (h.acceptNew t).window.lastEvicted = some t.cursor := by
      rw [Hub.acceptNew_window]
      refine lastEvicted_invalidateAll ht fun e he => ?_
      obtain ⟨a, ha, rfl⟩ := accepted_append hw hm t e he
      exact hbefore a ha
    have hlast : (evicted' ++ (h.window.append t).ring).getLast? = some t := by
      rw [← hsplit, List.getLast?_concat]
    rw [← Hub.acceptNew_ring] at hsplit hlast
    refine ⟨?_, ?_, ?_, ?_⟩
    · rw [hmark, ← hsplit]
      rintro e ⟨⟩
      exact ⟨t, by simp, rfl⟩
    · intro _ a ha _
      refine ⟨t.cursor, hmark, ?_⟩
      rcases hbefore a (hsplit ▸ List.mem_append_right _ ha) with heq | hlater
      · exact ⟨by rw [heq], by rw [heq]⟩
      · obtain ⟨hsrc, hlt⟩ := later_iff.1 hlater
        exact ⟨hsrc.symm, hlt.le⟩
    · rw [hlast, hmark]
      rintro a ⟨⟩ -
      rfl
    · rw [hlast]
      exact fun _ _ hinc => absurd (hinc t rfl) ht

/-- Once a transaction has been evicted, the mark is what was evicted last unless the newest one has
set its own. -/
theorem survive_of_marksKept (hw : w.Retains evicted) (h : w.Remembers evicted) {c : Cursor}
    (hkept : w.MarksKept c) : MarksSurvive w.maxReplay (evicted ++ w.ring) c := by
  by_cases hnil : evicted = []
  · left
    rw [hnil, List.nil_append]
    exact hw.bounded
  · rw [MarksSurvive, newest_of_full hw.bounded hw.full]
    right
    by_cases hnewest : ∃ t ∈ (evicted ++ w.ring).getLast?, t.incompatible ≠ []
    · exact .inl hnewest
    · right
      intro t ht hinc
      by_contra hlater
      -- the mark is what was evicted last, which is before everything in the ring
      obtain ⟨e, he, -, hle⟩ := hkept t ht hinc (by simpa using hlater)
      obtain ⟨last, hlast⟩ := Option.ne_none_iff_exists'.1 (mt List.getLast?_eq_none_iff.1 hnil)
      push Not at hnewest
      rw [h.overwritten last hlast hnewest] at he
      cases he
      have hlt := ((List.pairwise_append.1 hw.ordered).2.2 last (List.mem_of_getLast? hlast) t
        ht).lsn_lt
      omega

/-- The converse: the first eviction has not come, or the newest transaction is marked, and no
other is after it, or no mark is needed. -/
theorem marksKept_of_survive (hw : w.Retains evicted) (h : w.Remembers evicted) {c : Cursor}
    (hsurvive : MarksSurvive w.maxReplay (evicted ++ w.ring) c) : w.MarksKept c := by
  intro t ht hinc hlater
  by_cases hnil : evicted = []
  · exact h.kept hnil t ht hinc
  · rcases hsurvive with hlen | ⟨newest, hlast, hchange⟩ | hnone
    · have hfull := hw.full hnil
      have hpos := List.length_pos_of_ne_nil hnil
      rw [List.length_append] at hlen
      omega
    · refine ⟨newest.cursor, h.newest newest hlast hchange, ?_⟩
      rcases eq_or_before_newest hw.ordered hlast t (List.mem_append_right _ ht) with
        rfl | hbefore
      · exact ⟨rfl, Nat.le_refl _⟩
      · exact ⟨hbefore.source, hbefore.lsn_lt.le⟩
    · rw [newest_of_full hw.bounded hw.full] at hnone
      rw [hnone t ht hinc] at hlater
      cases hlater

/-- The marks that a snapshot at `c` needs have survived exactly if the accepted transactions are as
`MarksSurvive` says. -/
theorem marksKept_iff (hw : w.Retains evicted) (h : w.Remembers evicted) {c : Cursor} :
    w.MarksKept c ↔ MarksSurvive w.maxReplay (evicted ++ w.ring) c :=
  ⟨survive_of_marksKept hw h, marksKept_of_survive hw h⟩

end Window.Remembers

section Recording

variable {w : Window} {evicted accepted : List Transaction} {c : Cursor}

theorem Window.recordSnapshotLocked_of_some {f : Cursor} (h : w.floor = some f) :
    w.recordSnapshotLocked c = w := by
  simp [recordSnapshotLocked, h]

theorem Window.recordSnapshotLocked_lastEvicted :
    (w.recordSnapshotLocked c).lastEvicted = w.lastEvicted := by
  unfold recordSnapshotLocked
  split
  · rfl
  · split <;> simp_all

/-- The floor that the first snapshot sets. -/
theorem Window.recordSnapshotLocked_floor (h : w.floor = none) :
    (w.recordSnapshotLocked c).floor = some ((w.lastEvicted.map (raise · c)).getD c) := by
  unfold recordSnapshotLocked
  cases he : w.lastEvicted <;> simp [h]

/-- A floor that dominates a shape change of the ring after `c` is the mark, not `c`. -/
theorem Window.marksKept_of_above (hfloor : w.floor = none)
    (h : (w.recordSnapshotLocked c).Above fun c' =>
      ∃ t ∈ evicted ++ w.ring, t.incompatible ≠ [] ∧ c' = t.cursor) : w.MarksKept c := by
  intro t ht hinc hlater
  have hdom := h _ (recordSnapshotLocked_floor hfloor) t.cursor
    ⟨t, List.mem_append_right _ ht, hinc, rfl⟩
  obtain ⟨hsrc, hlt⟩ := later_iff.1 hlater
  cases he : w.lastEvicted with
  | none =>
    have hle := hdom (by simpa [he] using hsrc)
    simp only [he, Option.map_none, Option.getD_none] at hle
    omega
  | some e =>
    simp only [he, Option.map_some, Option.getD_some] at hdom
    rcases raise_cases e c with ⟨hr, -⟩ | ⟨hr, hlater'⟩
    · rw [hr] at hdom
      have hle := hdom hsrc
      omega
    · rw [hr] at hdom
      have hsrc' := hsrc.trans (later_iff.1 hlater').1.symm
      exact ⟨e, rfl, hsrc', hdom hsrc'⟩

/-- With the marks kept, every shape change is dominated by the snapshot's cursor or by the mark,
and the floor by both. -/
theorem Window.above_of_marksKept (hret : w.Retains evicted) (hfloor : w.floor = none)
    (h : w.MarksKept c) : (w.recordSnapshotLocked c).Above fun c' =>
      ∃ t ∈ evicted ++ w.ring, t.incompatible ≠ [] ∧ c' = t.cursor := by
  rintro f hf _ ⟨t, ht, hinc, rfl⟩ hsrc
  rw [recordSnapshotLocked_floor hfloor, Option.mem_some_iff] at hf
  have hkey : t.cursor.sourceID = c.sourceID → t.cursor.lsn ≤ c.lsn ∨
      ∃ e ∈ w.lastEvicted, t.cursor.sourceID = e.sourceID ∧ t.cursor.lsn ≤ e.lsn := by
    intro hsrcc
    rcases List.mem_append.1 ht with hev | hring
    · exact .inr (hret.lastEvicted t hev)
    · by_cases hle : t.cursor.lsn ≤ c.lsn
      · exact .inl hle
      · exact .inr (h t hring hinc (later_iff.2 ⟨hsrcc, by omega⟩))
  cases he : w.lastEvicted with
  | none =>
    simp only [he, Option.map_none, Option.getD_none] at hf
    subst hf
    rcases hkey hsrc with hle | ⟨e, hmem, -⟩
    · exact hle
    · rw [he] at hmem
      cases hmem
  | some e =>
    simp only [he, Option.map_some, Option.getD_some] at hf
    subst hf
    have hraise := le_raise e c
    rcases hkey (hsrc.trans hraise.1) with hle | ⟨e', hmem, hsrc', hle⟩
    · exact hle.trans hraise.2
    · rw [he] at hmem
      cases hmem
      exact hle.trans (le_raise_of_source (hsrc'.symm.trans (hsrc.trans hraise.1)))

/-- **The first snapshot.**  Its floor dominates every shape change exactly when the marks of those
after it have survived. -/
theorem Window.above_record_iff (hret : w.Retains evicted) (hremembers : w.Remembers evicted)
    (hfloor : w.floor = none) :
    ((w.recordSnapshotLocked c).Above fun c' =>
      ∃ t ∈ evicted ++ w.ring, t.incompatible ≠ [] ∧ c' = t.cursor) ↔
    MarksSurvive w.maxReplay (evicted ++ w.ring) c := by
  rw [← hremembers.marksKept_iff hret]
  exact ⟨marksKept_of_above hfloor, above_of_marksKept hret hfloor⟩

end Recording

theorem Window.not_replayable_of_above {w : Window} {Q : Cursor → Prop} (h : w.Above Q)
    {mark c : Cursor} (hmark : Q mark) (hlater : later mark c = true) :
    w.replayableLocked c = false := by
  unfold replayableLocked
  obtain ⟨hsrc, hlt⟩ := later_iff.1 hlater
  cases hf : w.floor with
  | none => rfl
  | some f =>
    have hle := h f hf mark hmark
    by_cases hsame : c.sourceID = f.sourceID
    · have hlt' : c.lsn < f.lsn := Nat.lt_of_lt_of_le hlt (hle (hsrc.trans hsame))
      simp [Cursor.compare, hsame, hlt']
    · simp [Cursor.compare, hsame]

/-- In every run the mark is what `Window.Remembers` says. -/
theorem remembers {ok : System → Label → Prop} {s : System} (h : Reaches machine ok s) :
    ∀ evicted, s.accepted = evicted ++ s.hub.window.ring → s.hub.window.Remembers evicted := by
  induction h with
  | init h =>
    obtain ⟨parseLSN, cfg, hub, hnew, rfl⟩ := h
    obtain ⟨_, _, _, rfl⟩ := Hub.new_ok hnew
    intro evicted hacc
    rw [(List.append_eq_nil_iff.1 hacc.symm).1]
    exact .initial _
  | @step s _ _ hreach _ hstep ih =>
    obtain ⟨evicted, hacc, hret⟩ := (Reaches.inv hreach).retains
    have hremembers := ih evicted hacc
    intro evicted' hacc'
    rcases System.step_window hstep with ⟨t, -, hnew, happ, hw⟩ | ⟨_, _, _, c, -, -, -, happ, hw⟩ |
      ⟨-, happ, hw⟩
    · rw [happ, hacc, hw] at hacc'
      rw [hw]
      exact hremembers.acceptNew hret hnew hacc'
    · have hring := (Window.recordSnapshotLocked_ring s.hub.window c).1
      rw [happ, hacc, hw, hring] at hacc'
      rw [hw, ← List.append_cancel_right hacc']
      exact hremembers.congr hring Window.recordSnapshotLocked_lastEvicted
    · rw [happ, hacc, hw] at hacc'
      rw [hw, ← List.append_cancel_right hacc']
      exact hremembers

/-- **The floor dominates every shape change** in every run in which the first snapshot is recorded
while the marks it needs have survived: no resume cursor before such a transaction is replayable. -/
theorem floor_dominates {s : System} (h : Reaches machine recordsMarked s) :
    ∀ t ∈ s.accepted, t.incompatible ≠ [] →
      (∀ f, s.hub.window.floor = some f → t.cursor.sourceID = f.sourceID →
        t.cursor.lsn ≤ f.lsn) ∧
      ∀ c, later t.cursor c = true → s.hub.window.replayableLocked c = false := by
  have habove : s.hub.window.Above s.ShapeChange := by
    refine Reaches.invariant (I := fun s => s.hub.window.Above s.ShapeChange) ?_ ?_ h
    · rintro s ⟨parseLSN, cfg, hub, hnew, rfl⟩ f hf
      obtain ⟨_, _, _, rfl⟩ := Hub.new_ok hnew
      cases hf
    · intro s l s' hreach hI hok hstep
      obtain ⟨evicted, hacc, hret⟩ := (Reaches.inv hreach).retains
      rcases System.step_window hstep with ⟨t, -, -, hacc', hw⟩ |
        ⟨id, act, ws, c, rfl, hws, hp, hacc', hw⟩ | ⟨-, hacc', hw⟩
      · rw [hw]
        refine Window.Above.acceptNew hret hI ?_
        rintro c ⟨t', ht', hinc, rfl⟩
        rw [hacc'] at ht'
        rcases List.mem_append.1 ht' with hold | hnew
        · exact .inl ⟨t', hold, hinc, rfl⟩
        · rw [List.mem_singleton.1 hnew] at hinc ⊢
          exact .inr ⟨hinc, rfl⟩
      · rw [hw]
        unfold System.ShapeChange
        rw [hacc']
        cases hfloor : s.hub.window.floor with
        | some f =>
          rw [Window.recordSnapshotLocked_of_some hfloor]
          exact hI
        | none =>
          have hsurvive := hok ws hws c hp hfloor
          rw [hacc] at hsurvive ⊢
          exact (Window.above_record_iff hret (remembers hreach _ hacc) hfloor).2 hsurvive
      · rw [hw]
        unfold System.ShapeChange
        rw [hacc']
        exact hI
  intro t ht hinc
  have hmark : s.ShapeChange t.cursor := ⟨t, ht, hinc, rfl⟩
  exact ⟨fun f hf => habove f hf _ hmark, fun c => Window.not_replayable_of_above habove hmark⟩

namespace Demo

/-- A transaction that changed the shape of another table. -/
def shapeChange (lsn : Nat) (xid : UInt32) : Transaction :=
  { cursor := ⟨"main", lsn + 10⟩, incompatible := [⟨"public.teams", "column dropped"⟩],
    commitLSN := lsn, xid := xid }

/-- A snapshot taken at 150 is being read while the hub accepts three transactions; then it is
recorded. -/
def acceptedDuringRead (ts : List Transaction) : List Label :=
  openSnapshot ++ ts.map .accept ++ readSnapshot 150

end Demo

/-- With room for two transactions the third evicts the first, which overwrites the mark of the
second, and the first snapshot sets the floor before that one. -/
theorem floor_below_shape_change : ∃ s ws, Reaches machine anyStep s ∧ s.watches[0]? = some ws ∧
    Demo.shapeChange 200 12 ∈ s.accepted ∧ (Demo.shapeChange 200 12).incompatible ≠ [] ∧
    s.hub.window.floor = some ⟨"main", 150⟩ ∧
    later (Demo.shapeChange 200 12).cursor ⟨"main", 150⟩ = true ∧
    s.hub.window.replayableLocked ⟨"main", 150⟩ = true :=
  Demo.exists_of_run anyStep 2 10 (Demo.acceptedDuringRead
    [Demo.transaction 100 11, Demo.shapeChange 200 12, Demo.transaction 300 13]) 0 _ (by decide)

/-- When the third is a shape change as well, its own mark survives, and the floor is set after
both. -/
theorem floor_dominates_run : ∃ s, Reaches machine recordsMarked s ∧
    Demo.shapeChange 200 12 ∈ s.accepted ∧ s.hub.window.floor = some ⟨"main", 310⟩ ∧
    s.hub.window.replayableLocked ⟨"main", 150⟩ = false := by
  obtain ⟨s, ws, hr, hws, hmem, hfloor⟩ := Demo.exists_of_run recordsMarked 2 10
    (Demo.acceptedDuringRead
      [Demo.transaction 100 11, Demo.shapeChange 200 12, Demo.shapeChange 300 13]) 0
    (fun s _ => Demo.shapeChange 200 12 ∈ s.accepted ∧ s.hub.window.floor = some ⟨"main", 310⟩)
    (by decide)
  exact ⟨s, hr, hmem, hfloor, (floor_dominates hr _ hmem (by decide)).2 _ (by decide)⟩

end Watchd.Watch
