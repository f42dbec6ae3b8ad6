import Mathlib.Data.List.Basic

/-!
# Feeding a log to a consumer through a queue

A consumer wants those entries of a growing log that pass `p`, each as its image
under `f`.  Entries reach it through a queue, and it may hold some images it has
yet to emit.  `Feeding` ties the four together: what was emitted, what is held and
what the queue will give is what the log holds.  So what was emitted is always a
prefix of what the log holds, and all of it once nothing is held or queued.

These are `Feeding.isPrefix` and `Feeding.drained`; the other lemmas are the steps
of the four.
-/

namespace Watchd.Lib

variable {α β : Type*}

theorem take_eq_append {log : List α} {n k : Nat} (h : n ≤ k) :
    log.take k = log.take n ++ (log.take k).drop n := by
  calc log.take k = (log.take k).take n ++ (log.take k).drop n := (List.take_append_drop ..).symm
    _ = log.take n ++ (log.take k).drop n := by rw [List.take_take, Nat.min_eq_left h]

/-- What a consumer wants of a log. -/
def feed (p : α → Bool) (f : α → β) (log : List α) : List β := (log.filter p).map f

section Feed

variable (p : α → Bool) (f : α → β)

@[simp] theorem feed_nil : feed p f [] = [] := rfl

theorem feed_append (log log' : List α) :
    feed p f (log ++ log') = feed p f log ++ feed p f log' := by
  simp [feed]

theorem feed_cons (a : α) (log : List α) :
    feed p f (a :: log) = (if p a then [f a] else []) ++ feed p f log := by
  unfold feed
  by_cases h : p a <;> simp [h]

theorem feed_filter {q : α → Bool} (h : ∀ a, p a = true → q a = true) (log : List α) :
    feed p f (log.filter q) = feed p f log := by
  unfold feed
  rw [List.filter_filter]
  congr 1
  apply List.filter_congr
  intro a _
  cases hp : p a with
  | false => rfl
  | true => simp [h a hp]

theorem feed_mono {log log' : List α} (h : log <+: log') : feed p f log <+: feed p f log' :=
  (h.filter p).map f

theorem feed_eq_nil {log : List α} (h : ∀ a ∈ log, p a = false) : feed p f log = [] := by
  unfold feed
  rw [List.map_eq_nil_iff, List.filter_eq_nil_iff]
  intro a ha
  simp [h a ha]

theorem mem_feed {log : List α} {a : α} (ha : a ∈ log) (hp : p a = true) : f a ∈ feed p f log :=
  List.mem_map_of_mem (List.mem_filter.2 ⟨ha, hp⟩)

/-- A log is fed up to an entry, then on from there. -/
theorem feed_take_append {log : List α} {n k : Nat} (h : n ≤ k) :
    feed p f (log.take k) = feed p f (log.take n) ++ feed p f ((log.take k).drop n) := by
  rw [← feed_append, ← take_eq_append h]

theorem feed_take_succ {log : List α} {i : Nat} {a : α} (hi : log[i]? = some a) (ha : p a = true) :
    feed p f (log.take (i + 1)) = feed p f (log.take i) ++ [f a] := by
  rw [List.take_add_one, hi, feed_append, Option.toList_some, feed_cons, ha]
  rfl

/-- Nothing is wanted between two places up to which the same is fed. -/
theorem feed_take_eq_iff {log : List α} {n k : Nat} (h : n ≤ k) :
    feed p f (log.take n) = feed p f (log.take k) ↔ ∀ a ∈ (log.take k).drop n, p a = false := by
  rw [feed_take_append p f h, List.self_eq_append_right, feed, List.map_eq_nil_iff,
    List.filter_eq_nil_iff]
  simp

/-- The image that follows what was fed up to `n` is that of the next wanted entry. -/
theorem feed_next {log : List α} {n : Nat} {b : β}
    (h : feed p f (log.take n) ++ [b] <+: feed p f log) :
    ∃ i a, n ≤ i ∧ log[i]? = some a ∧ p a = true ∧ f a = b ∧
      ∀ a' ∈ (log.take i).drop n, p a' = false := by
  have hfirst : ∀ {rest : List α}, [b] <+: feed p f rest →
      ∃ i a, rest[i]? = some a ∧ p a = true ∧ f a = b ∧ ∀ a' ∈ rest.take i, p a' = false := by
    intro rest
    induction rest with
    | nil =>
      intro hpre
      simp at hpre
    | cons a rest ih =>
      intro hpre
      rw [feed_cons] at hpre
      cases hp : p a with
      | true =>
        rw [hp] at hpre
        simp only [if_true, List.singleton_append, List.cons_prefix_cons] at hpre
        exact ⟨0, a, rfl, hp, hpre.1.symm, nofun⟩
      | false =>
        rw [hp] at hpre
        obtain ⟨i, a', hget, hp', hf, hbefore⟩ := ih hpre
        refine ⟨i + 1, a', hget, hp', hf, ?_⟩
        rw [List.take_succ_cons, List.forall_mem_cons]
        exact ⟨hp, hbefore⟩
  have hsplit : feed p f log = feed p f (log.take n) ++ feed p f (log.drop n) := by
    rw [← feed_append, List.take_append_drop]
  rw [hsplit, List.prefix_append_right_inj] at h
  obtain ⟨i, a, hget, hp, hf, hbefore⟩ := hfirst h
  refine ⟨n + i, a, Nat.le_add_right .., by rwa [List.getElem?_drop] at hget, hp, hf, ?_⟩
  rwa [List.take_drop] at hbefore

end Feed

/-! ## Cutting a log -/

/-- How far a log passes a test. -/
def cutAt (p : α → Bool) (log : List α) : Nat := (log.takeWhile p).length

section Cut

variable {p : α → Bool} {log : List α}

theorem cutAt_le (p : α → Bool) (log : List α) : cutAt p log ≤ log.length :=
  (List.takeWhile_prefix p).length_le

/-- If later entries pass only when earlier ones do, the entries that pass are those before the
cut. -/
theorem lt_cutAt_iff (h : log.Pairwise fun a b => p b = true → p a = true) {i : Nat} {a : α}
    (hi : log[i]? = some a) : i < cutAt p log ↔ p a = true := by
  induction log generalizing i with
  | nil => cases hi
  | cons a₀ log ih =>
    rw [List.pairwise_cons] at h
    cases hp : p a₀ with
    | false =>
      have hcut : cutAt p (a₀ :: log) = 0 := by simp [cutAt, hp]
      rw [hcut]
      refine ⟨fun hlt => absurd hlt (Nat.not_lt_zero i), fun ha => ?_⟩
      cases i with
      | zero =>
        cases hi
        rw [hp] at ha
        cases ha
      | succ i =>
        rw [h.1 a (List.mem_of_getElem? hi) ha] at hp
        cases hp
    | true =>
      have hcut : cutAt p (a₀ :: log) = cutAt p log + 1 := by simp [cutAt, hp]
      rw [hcut]
      cases i with
      | zero =>
        cases hi
        simp [hp]
      | succ i => rw [Nat.add_lt_add_iff_right, ih h.2 hi]

end Cut

/-- What was emitted, what is held and what the queue will give are together the feed of the log. -/
def Feeding (p : α → Bool) (f : α → β) (log : List α) (emitted held : List β) (queue : List α) :
    Prop :=
  emitted ++ (held ++ feed p f queue) = feed p f log

namespace Feeding

variable {p : α → Bool} {f : α → β} {log queue : List α} {emitted held : List β}

theorem publish (h : Feeding p f log emitted held queue) (a : α) :
    Feeding p f (log ++ [a]) emitted held (queue ++ [a]) := by
  unfold Feeding at h ⊢
  rw [feed_append, feed_append, ← h]
  simp only [List.append_assoc]

/-- An entry the consumer does not want need not be queued. -/
theorem skip (h : Feeding p f log emitted held queue) {a : α} (ha : p a = false) :
    Feeding p f (log ++ [a]) emitted held queue := by
  unfold Feeding at h ⊢
  rw [feed_append, ← h, feed_cons, ha]
  simp

theorem emit {b : β} (h : Feeding p f log emitted (b :: held) queue) :
    Feeding p f log (emitted ++ [b]) held queue := by
  unfold Feeding at h ⊢
  rw [← h, List.append_assoc, List.singleton_append, List.cons_append]

theorem receive {a : α} (h : Feeding p f log emitted [] (a :: queue)) :
    Feeding p f log emitted (if p a then [f a] else []) queue := by
  unfold Feeding at h ⊢
  rw [← h, feed_cons, List.nil_append]

theorem mem_of_held (h : Feeding p f log emitted held queue) {b : β} (hb : b ∈ held) :
    b ∈ feed p f log := by
  unfold Feeding at h
  rw [← h]
  exact List.mem_append_right _ (List.mem_append_left _ hb)

theorem isPrefix (h : Feeding p f log emitted held queue) : emitted <+: feed p f log :=
  ⟨_, h⟩

theorem drained (h : Feeding p f log emitted [] []) : emitted = feed p f log := by
  unfold Feeding at h
  simpa using h

end Feeding

end Watchd.Lib
