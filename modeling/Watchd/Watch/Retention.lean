import Watchd.Watch.Accept

/-!
# The replay window

The ring holds the newest transactions the hub accepted; the older ones are
evicted.  `Window.Retains` relates the window to the evicted transactions: the
ring is full once something was evicted, and the replay floor, once set, is at or
past the end of every evicted transaction, through the first snapshot, evictions
and invalidations.

`le_of_replayable`: so a cursor that the ring can serve is at or past all of them.
-/

namespace Watchd.Watch

open Watchd.Cdc

/-! ## Cursors -/

theorem later_trans {a b c : Cursor} (hab : later a b = true) (hbc : later b c = true) :
    later a c = true := by
  rw [later_iff] at *
  exact ⟨hab.1.trans hbc.1, hbc.2.trans hab.2⟩

theorem raise_cases (cursor mark : Cursor) :
    (raise cursor mark = mark ∧ later cursor mark = false) ∨
      (raise cursor mark = cursor ∧ later cursor mark = true) := by
  unfold raise
  cases hl : later cursor mark with
  | false => exact .inl ⟨rfl, rfl⟩
  | true => exact .inr ⟨rfl, rfl⟩

theorem le_raise (cursor mark : Cursor) :
    (raise cursor mark).sourceID = mark.sourceID ∧ mark.lsn ≤ (raise cursor mark).lsn := by
  rcases raise_cases cursor mark with ⟨h, -⟩ | ⟨h, hl⟩
  · rw [h]
    exact ⟨rfl, Nat.le_refl _⟩
  · rw [later_iff] at hl
    rw [h]
    exact ⟨hl.1, Nat.le_of_lt hl.2⟩

theorem le_raise_of_source {cursor mark : Cursor} (h : cursor.sourceID = mark.sourceID) :
    cursor.lsn ≤ (raise cursor mark).lsn := by
  rcases raise_cases cursor mark with ⟨hr, hl⟩ | ⟨hr, -⟩
  · rw [← Bool.not_eq_true, later_iff] at hl
    rw [hr]
    exact Nat.not_lt.1 fun hlt => hl ⟨h, hlt⟩
  · rw [hr]

/-- `a` was accepted before `b`. -/
def Before (a b : Transaction) : Prop := later b.cursor a.cursor = true

theorem Before.source {a b : Transaction} (h : Before a b) :
    a.cursor.sourceID = b.cursor.sourceID :=
  (later_iff.1 h).1.symm

theorem Before.lsn_lt {a b : Transaction} (h : Before a b) : a.cursor.lsn < b.cursor.lsn :=
  (later_iff.1 h).2

theorem Before.trans {a b c : Transaction} (hab : Before a b) (hbc : Before b c) : Before a c :=
  later_trans hbc hab

/-- The newest of the transactions accepted in order is after all the others. -/
theorem eq_or_before_newest {accepted : List Transaction} {newest : Transaction}
    (hord : accepted.Pairwise Before) (hlast : accepted.getLast? = some newest) :
    ∀ t ∈ accepted, t = newest ∨ Before t newest := by
  obtain ⟨rest, rfl⟩ := List.getLast?_eq_some_iff.1 hlast
  intro t ht
  rcases List.mem_append.1 ht with hold | hnew
  · exact .inr ((List.pairwise_append.1 hord).2.2 t hold newest (by simp))
  · exact .inl (List.mem_singleton.1 hnew)

/-- A ring that is full once anything has been evicted is the newest `maxReplay` of all. -/
theorem newest_of_full {evicted ring : List Transaction} {maxReplay : Nat}
    (hbounded : ring.length ≤ maxReplay) (hfull : evicted ≠ [] → ring.length = maxReplay) :
    (evicted ++ ring).drop ((evicted ++ ring).length - maxReplay) = ring := by
  by_cases hne : evicted = []
  · rw [hne, List.nil_append, Nat.sub_eq_zero_of_le hbounded, List.drop_zero]
  · rw [List.length_append, hfull hne, Nat.add_sub_cancel, List.drop_left]

/-- What `Accept` of a new transaction does to the window. -/
theorem Hub.acceptNew_window (h : Hub) (t : Transaction) :
    (h.acceptNew t).window =
      t.incompatible.foldl (fun w _ => w.invalidate t.cursor) (h.window.append t) := by
  obtain ⟨registry, memos, heq⟩ := Hub.acceptNew_eq h t
  rw [heq, Hub.advance_eq]

theorem Hub.acceptNew_ring (h : Hub) (t : Transaction) :
    (h.acceptNew t).window.ring = (h.window.append t).ring := by
  have hloop : ∀ (is : List IncompatibleRelationError) (w : Window),
      (is.foldl (fun w _ => w.invalidate t.cursor) w).ring = w.ring := by
    intro is
    induction is with
    | nil => exact fun _ => rfl
    | cons i is ih => exact fun w => ih _
  rw [Hub.acceptNew_window]
  exact hloop t.incompatible _

/-! ## The invariant -/

/-- The ring is the newest part of what was accepted, in order, and `evicted` is the rest. -/
structure Window.Retains (w : Window) (evicted : List Transaction) : Prop where
  bounded : w.ring.length ≤ w.maxReplay
  full : evicted ≠ [] → w.ring.length = w.maxReplay
  received : w.received = (evicted ++ w.ring).getLast?.map Transaction.cursor
  ordered : (evicted ++ w.ring).Pairwise Before
  lastEvicted : ∀ t ∈ evicted, ∃ c, w.lastEvicted = some c ∧
    t.cursor.sourceID = c.sourceID ∧ t.cursor.lsn ≤ c.lsn
  floor : ∀ f, w.floor = some f → ∀ t ∈ evicted,
    t.cursor.sourceID = f.sourceID → t.cursor.lsn ≤ f.lsn

namespace Window.Retains

variable {w : Window} {evicted : List Transaction}

theorem initial (maxReplay : Nat) : ({ maxReplay := maxReplay } : Window).Retains [] := by
  refine ⟨Nat.zero_le _, fun h => absurd rfl h, rfl, List.Pairwise.nil, ?_, ?_⟩
  · intro t ht
    cases ht
  · intro f hf
    cases hf

/-- Everything the hub has accepted is before a new transaction. -/
theorem before_of_isNew {h : Hub} (hw : h.window.Retains evicted) {t : Transaction}
    (hnew : h.isNew t = .ok true) : ∀ a ∈ evicted ++ h.window.ring, Before a t := by
  unfold Hub.isNew at hnew
  rw [hw.received] at hnew
  have hord := hw.ordered
  generalize evicted ++ h.window.ring = accepted at hnew hord ⊢
  cases hlast : accepted.getLast? with
  | none =>
    rw [List.getLast?_eq_none_iff] at hlast
    subst hlast
    intro a ha
    cases ha
  | some newest =>
    -- the newest one is before `t` by the check, the others are before the newest
    rw [hlast] at hnew
    simp only [Option.map_some] at hnew
    have hnewest : Before newest t := by
      unfold Before later
      cases hcmp : t.cursor.compare newest.cursor with
      | error err => simp [hcmp] at hnew
      | ok order => cases order <;> simp_all
    intro a ha
    rcases eq_or_before_newest hord hlast a ha with rfl | hbefore
    · exact hnewest
    · exact hbefore.trans hnewest

/-- Recording a new transaction evicts at most the oldest one. -/
theorem append_cases (hw : w.Retains evicted) (t : Transaction) :
    (w.ring.length < w.maxReplay ∧
      w.append t = { w with received := some t.cursor, ring := w.ring ++ [t] }) ∨
    ∃ oldest ring, w.ring ++ [t] = oldest :: ring ∧ ring.length = w.maxReplay ∧
      w.append t = { w with
        received := some t.cursor
        ring := ring
        lastEvicted := some oldest.cursor
        floor := w.floor.map (raise oldest.cursor) } := by
  have hbounded := hw.bounded
  unfold Window.append
  by_cases hroom : w.ring.length < w.maxReplay
  · rw [show w.ring.length + 1 - w.maxReplay = 0 by omega]
    exact .inl ⟨hroom, rfl⟩
  · rw [show w.ring.length + 1 - w.maxReplay = 1 by omega, Function.iterate_one]
    cases hring : w.ring ++ [t] with
    | nil => simp at hring
    | cons oldest ring =>
      have hlen := congrArg List.length hring
      rw [List.length_append, List.length_singleton, List.length_cons] at hlen
      exact .inr ⟨oldest, ring, rfl, by omega, rfl⟩

theorem append (hw : w.Retains evicted) {t : Transaction}
    (hbefore : ∀ a ∈ evicted ++ w.ring, Before a t) :
    ∃ evicted', evicted ++ w.ring ++ [t] = evicted' ++ (w.append t).ring ∧
      (w.append t).Retains evicted' := by
  have hreceived : some t.cursor =
      (evicted ++ (w.ring ++ [t])).getLast?.map Transaction.cursor := by
    rw [← List.append_assoc, List.getLast?_concat, Option.map_some]
  have hordered : (evicted ++ (w.ring ++ [t])).Pairwise Before := by
    rw [← List.append_assoc, List.pairwise_append]
    refine ⟨hw.ordered, List.pairwise_singleton _ _, ?_⟩
    intro a ha b hb
    rw [List.mem_singleton.1 hb]
    exact hbefore a ha
  rcases hw.append_cases t with ⟨hroom, heq⟩ | ⟨oldest, ring, hring, hlen, heq⟩
  · rw [heq]
    refine ⟨evicted, List.append_assoc .., ?_, ?_, hreceived, hordered, hw.lastEvicted, hw.floor⟩
    · rw [List.length_append, List.length_singleton]
      exact hroom
    · intro hne
      have hfull := hw.full hne
      omega
  · have hsplit : evicted ++ [oldest] ++ ring = evicted ++ (w.ring ++ [t]) := by
      rw [hring, List.append_assoc, List.singleton_append]
    rw [heq]
    refine ⟨evicted ++ [oldest], by rw [hsplit, List.append_assoc], Nat.le_of_eq hlen,
      fun _ => hlen, by rw [hsplit]; exact hreceived, by rw [hsplit]; exact hordered, ?_, ?_⟩
    · intro a ha
      refine ⟨oldest.cursor, rfl, ?_⟩
      rcases List.mem_append.1 ha with ha | ha
      · rw [hring, List.pairwise_append] at hordered
        have hbefore := hordered.2.2 a ha oldest List.mem_cons_self
        exact ⟨hbefore.source, Nat.le_of_lt hbefore.lsn_lt⟩
      · rw [List.mem_singleton.1 ha]
        exact ⟨rfl, Nat.le_refl _⟩
    · intro f hf a ha hsrc
      obtain ⟨f₀, hf₀, rfl⟩ := Option.map_eq_some_iff.1 hf
      have hle := le_raise oldest.cursor f₀
      rcases List.mem_append.1 ha with ha | ha
      · have hold := hw.floor f₀ hf₀ a ha (hsrc.trans hle.1)
        omega
      · rw [List.mem_singleton.1 ha] at hsrc ⊢
        exact le_raise_of_source (hsrc.trans hle.1)

theorem invalidate (hw : w.Retains evicted) (cursor : Cursor) :
    (w.invalidate cursor).Retains evicted := by
  refine ⟨hw.bounded, hw.full, hw.received, hw.ordered, ?_, ?_⟩
  · intro t ht
    obtain ⟨c, hc, hsrc, hle⟩ := hw.lastEvicted t ht
    have hraise := le_raise cursor c
    refine ⟨raise cursor c, ?_, hsrc.trans hraise.1.symm, hle.trans hraise.2⟩
    simp [Window.invalidate, hc]
  · intro f hf t ht hsrc
    obtain ⟨f₀, hf₀, rfl⟩ := Option.map_eq_some_iff.1 hf
    have hraise := le_raise cursor f₀
    exact (hw.floor f₀ hf₀ t ht (hsrc.trans hraise.1)).trans hraise.2

theorem recordSnapshotLocked (hw : w.Retains evicted) (cursor : Cursor) :
    (w.recordSnapshotLocked cursor).Retains evicted := by
  unfold Window.recordSnapshotLocked
  split
  · exact hw
  · split
    · next hlast =>
      -- nothing was evicted yet
      refine ⟨hw.bounded, hw.full, hw.received, hw.ordered, hw.lastEvicted, ?_⟩
      intro f hf t ht
      obtain ⟨c, hc, -⟩ := hw.lastEvicted t ht
      rw [hlast] at hc
      cases hc
    · next last hlast =>
      refine ⟨hw.bounded, hw.full, hw.received, hw.ordered, hw.lastEvicted, ?_⟩
      intro f hf t ht hsrc
      obtain ⟨c, hc, hsrcc, hle⟩ := hw.lastEvicted t ht
      rw [hlast, Option.some.injEq] at hc
      subst hc
      have hf : raise last cursor = f := Option.some.inj hf
      rw [← hf] at hsrc ⊢
      have hsrc' : last.sourceID = cursor.sourceID := by
        rw [← hsrcc, hsrc]
        exact (le_raise last cursor).1
      exact hle.trans (le_raise_of_source hsrc')

/-- Accepting a new transaction keeps the invariant. -/
theorem acceptNew {h : Hub} (hw : h.window.Retains evicted) {t : Transaction}
    (hnew : h.isNew t = .ok true) :
    ∃ evicted', evicted ++ h.window.ring ++ [t] = evicted' ++ (h.acceptNew t).window.ring ∧
      (h.acceptNew t).window.Retains evicted' := by
  have hloop : ∀ (is : List IncompatibleRelationError) (w : Window) (ev : List Transaction),
      w.Retains ev → (is.foldl (fun w _ => w.invalidate t.cursor) w).Retains ev := by
    intro is
    induction is with
    | nil => exact fun w ev hw => hw
    | cons i is ih => exact fun w ev hw => ih _ _ (hw.invalidate t.cursor)
  obtain ⟨evicted', hsplit, hkeep⟩ := hw.append (hw.before_of_isNew hnew)
  rw [Hub.acceptNew_ring, Hub.acceptNew_window]
  exact ⟨evicted', hsplit, hloop t.incompatible _ _ hkeep⟩

/-- A cursor the ring can serve is at or past the end of every evicted transaction. -/
theorem le_of_replayable (hw : w.Retains evicted) {cursor : Cursor}
    (hrep : w.replayableLocked cursor = true) :
    ∀ t ∈ evicted, t.cursor.sourceID = cursor.sourceID → t.cursor.lsn ≤ cursor.lsn := by
  unfold Window.replayableLocked at hrep
  cases hf : w.floor with
  | none => simp [hf] at hrep
  | some floor =>
    simp only [hf] at hrep
    intro t ht hsrc
    have hle := hw.floor floor hf t ht
    unfold Cursor.compare at hrep
    split at hrep
    · next order horder =>
      split at horder
      · cases horder
      · next hsame =>
        have hsame' : cursor.sourceID = floor.sourceID := not_not.1 hsame
        have hle' := hle (hsrc.trans hsame')
        split at horder
        · cases horder
          simp at hrep
        · omega
    · simp at hrep

end Window.Retains

end Watchd.Watch
