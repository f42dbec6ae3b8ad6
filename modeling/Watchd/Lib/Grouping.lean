import Mathlib.Data.List.Induction
import Mathlib.Data.List.Nodup

/-!
# Grouping by key, in order of first appearance

`group` collects a list of keyed values into one entry per key; the entries
stand in the order in which their keys first appear and each holds its key's
values in order.  `mem_group` says which entries there are.
-/

namespace Watchd.Lib

variable {κ α : Type*} [DecidableEq κ]

/-- Adds a value to its key's group, or starts one at the end. -/
def addTo (k : κ) (v : α) : List (κ × List α) → List (κ × List α)
  | [] => [(k, [v])]
  | g :: gs => if g.1 = k then (g.1, g.2 ++ [v]) :: gs else g :: addTo k v gs

/-- Groups keyed values. -/
def group (l : List (κ × α)) : List (κ × List α) :=
  l.foldl (fun gs kv => addTo kv.1 kv.2 gs) []

/-- The values of one key, in order. -/
def valuesOf (k : κ) (l : List (κ × α)) : List α :=
  (l.filter fun kv => kv.1 = k).map Prod.snd

theorem valuesOf_append (k : κ) (l l' : List (κ × α)) :
    valuesOf k (l ++ l') = valuesOf k l ++ valuesOf k l' := by
  simp [valuesOf]

theorem group_append_singleton (l : List (κ × α)) (k : κ) (v : α) :
    group (l ++ [(k, v)]) = addTo k v (group l) := by
  simp [group]

/-- A key without a group gets one at the end. -/
theorem addTo_of_not_mem {k : κ} {v : α} {gs : List (κ × List α)} (h : k ∉ gs.map Prod.fst) :
    addTo k v gs = gs ++ [(k, [v])] := by
  induction gs with
  | nil => rfl
  | cons g gs ih =>
    rw [List.map_cons, List.mem_cons, not_or] at h
    rw [addTo, if_neg (Ne.symm h.1), ih h.2, List.cons_append]

/-- A key whose group stands at position `i` has it extended in place. -/
theorem addTo_eq_modify {k : κ} {v : α} {gs : List (κ × List α)} {i : Nat}
    (hnd : (gs.map Prod.fst).Nodup) (hi : (gs.map Prod.fst)[i]? = some k) :
    addTo k v gs = gs.modify i fun g => (g.1, g.2 ++ [v]) := by
  induction gs generalizing i with
  | nil => simp at hi
  | cons g gs ih =>
    rw [List.map_cons, List.nodup_cons] at hnd
    cases i with
    | zero =>
      simp only [List.map_cons, List.getElem?_cons_zero, Option.some.injEq] at hi
      rw [addTo, if_pos hi, List.modify_zero_cons]
    | succ i =>
      simp only [List.map_cons, List.getElem?_cons_succ] at hi
      have hne : g.1 ≠ k := fun e => hnd.1 (e ▸ List.mem_of_getElem? hi)
      rw [addTo, if_neg hne, List.modify_succ_cons, ih hnd.2 hi]

theorem keys_addTo_of_mem {k : κ} {v : α} {gs : List (κ × List α)} (h : k ∈ gs.map Prod.fst) :
    (addTo k v gs).map Prod.fst = gs.map Prod.fst := by
  induction gs with
  | nil => simp at h
  | cons g gs ih =>
    by_cases hg : g.1 = k
    · rw [addTo, if_pos hg, List.map_cons, List.map_cons]
    · rw [List.map_cons, List.mem_cons] at h
      rw [addTo, if_neg hg, List.map_cons, List.map_cons, ih (h.resolve_left (Ne.symm hg))]

theorem keys_addTo_nodup {k : κ} {v : α} {gs : List (κ × List α)}
    (h : (gs.map Prod.fst).Nodup) : ((addTo k v gs).map Prod.fst).Nodup := by
  by_cases hk : k ∈ gs.map Prod.fst
  · rw [keys_addTo_of_mem hk]
    exact h
  · rw [addTo_of_not_mem hk, List.map_append]
    refine List.Nodup.append h (by simp) ?_
    intro x hx hx'
    have hxk : x = k := by simpa using hx'
    exact hk (hxk ▸ hx)

/-- No two groups share a key. -/
theorem keys_group_nodup (l : List (κ × α)) : ((group l).map Prod.fst).Nodup := by
  induction l using List.reverseRecOn with
  | nil => simp [group]
  | append_singleton l kv ih =>
    rw [group_append_singleton]
    exact keys_addTo_nodup ih

theorem mem_addTo {k k' : κ} {v : α} {vs : List α} {gs : List (κ × List α)}
    (hnd : (gs.map Prod.fst).Nodup) :
    (k', vs) ∈ addTo k v gs ↔
      (k' ≠ k ∧ (k', vs) ∈ gs) ∨
      (k' = k ∧ ((∃ ws, (k, ws) ∈ gs ∧ vs = ws ++ [v]) ∨
        (k ∉ gs.map Prod.fst ∧ vs = [v]))) := by
  induction gs with
  | nil => simp [addTo]
  | cons g gs ih =>
    rw [List.map_cons, List.nodup_cons] at hnd
    by_cases hg : g.1 = k
    · -- the group of `k` is the head, and `k` names no other group
      subst hg
      have htail : ∀ ws, (g.1, ws) ∉ gs := fun ws h =>
        hnd.1 (List.mem_map.2 ⟨(g.1, ws), h, rfl⟩)
      have hhead : ∀ ws, (g.1, ws) ∈ g :: gs ↔ ws = g.2 := by
        intro ws
        rw [List.mem_cons, or_iff_left (htail ws), Prod.ext_iff]
        simp
      rw [addTo, if_pos rfl, List.mem_cons]
      constructor
      · rintro (h | h)
        · cases h
          exact .inr ⟨rfl, .inl ⟨g.2, (hhead _).2 rfl, rfl⟩⟩
        · have hne : k' ≠ g.1 := fun e => htail vs (e ▸ h)
          exact .inl ⟨hne, List.mem_cons_of_mem _ h⟩
      · rintro (⟨hne, h⟩ | ⟨rfl, ⟨ws, h, rfl⟩ | ⟨h, -⟩⟩)
        · rcases List.mem_cons.1 h with rfl | h
          · exact absurd rfl hne
          · exact .inr h
        · rw [(hhead ws).1 h]
          exact .inl rfl
        · exact absurd List.mem_cons_self h
    · have hmem : ∀ ws, (k, ws) ∈ g :: gs ↔ (k, ws) ∈ gs := by
        intro ws
        rw [List.mem_cons, or_iff_right]
        rintro rfl
        exact hg rfl
      have hkey : k ∉ (g :: gs).map Prod.fst ↔ k ∉ gs.map Prod.fst := by
        rw [List.map_cons, List.mem_cons, or_iff_right (Ne.symm hg)]
      rw [addTo, if_neg hg, List.mem_cons, ih hnd.2, hkey]
      simp only [hmem]
      constructor
      · rintro (rfl | ⟨hne, h⟩ | h)
        · exact .inl ⟨hg, List.mem_cons_self⟩
        · exact .inl ⟨hne, List.mem_cons_of_mem _ h⟩
        · exact .inr h
      · rintro (⟨hne, h⟩ | h)
        · rcases List.mem_cons.1 h with rfl | h
          · exact .inl rfl
          · exact .inr (.inl ⟨hne, h⟩)
        · exact .inr (.inr h)

/-- **The groups.**  A key has a group exactly when it has values, and its group holds them. -/
theorem mem_group {l : List (κ × α)} {k : κ} {vs : List α} :
    (k, vs) ∈ group l ↔ vs = valuesOf k l ∧ vs ≠ [] := by
  induction l using List.reverseRecOn generalizing k vs with
  | nil => simp [group, valuesOf]
  | append_singleton l kv ih =>
    obtain ⟨k', v⟩ := kv
    have hkey : k' ∉ (group l).map Prod.fst ↔ valuesOf k' l = [] := by
      rw [List.mem_map, not_iff_comm]
      constructor
      · intro h
        exact ⟨(k', valuesOf k' l), ih.2 ⟨rfl, h⟩, rfl⟩
      · rintro ⟨⟨k'', ws⟩, hws, rfl⟩ hnil
        obtain ⟨hvals, hne⟩ := ih.1 hws
        exact hne (hvals.trans hnil)
    rw [group_append_singleton, mem_addTo (keys_group_nodup l), valuesOf_append]
    by_cases hk : k = k'
    · subst hk
      have hlast : valuesOf k [(k, v)] = [v] := by simp [valuesOf]
      rw [hlast]
      constructor
      · rintro (⟨hne, -⟩ | ⟨-, ⟨ws, hws, rfl⟩ | ⟨hnone, rfl⟩⟩)
        · exact absurd rfl hne
        · exact ⟨by rw [(ih.1 hws).1], by simp⟩
        · exact ⟨by rw [hkey.1 hnone, List.nil_append], by simp⟩
      · rintro ⟨rfl, -⟩
        refine .inr ⟨rfl, ?_⟩
        by_cases hnil : valuesOf k l = []
        · exact .inr ⟨hkey.2 hnil, by rw [hnil, List.nil_append]⟩
        · exact .inl ⟨_, ih.2 ⟨rfl, hnil⟩, rfl⟩
    · have hlast : valuesOf k [(k', v)] = [] := by simp [valuesOf, Ne.symm hk]
      rw [hlast, List.append_nil, ← ih]
      constructor
      · rintro (⟨-, h⟩ | ⟨rfl, -⟩)
        · exact h
        · exact absurd rfl hk
      · intro h
        exact .inl ⟨hk, h⟩

/-- The groups of one key: one, or none if it has no values. -/
theorem filter_group (l : List (κ × α)) (k : κ) :
    ((group l).filter fun g => g.1 = k) =
      if valuesOf k l = [] then [] else [(k, valuesOf k l)] := by
  split
  · next hnil =>
    rw [List.filter_eq_nil_iff]
    rintro ⟨k', vs⟩ hg
    obtain ⟨hvs, hne⟩ := mem_group.1 hg
    simp only [decide_eq_true_eq]
    rintro rfl
    exact hne (hvs.trans hnil)
  · next hne =>
    have hmem : (k, valuesOf k l) ∈ group l := mem_group.2 ⟨rfl, hne⟩
    obtain ⟨before, after, hsplit⟩ := List.append_of_mem hmem
    have hkeys := keys_group_nodup l
    rw [hsplit, List.map_append, List.map_cons, List.nodup_append, List.nodup_cons] at hkeys
    obtain ⟨-, ⟨hafter, -⟩, hbefore⟩ := hkeys
    -- no other group has the key
    have hb : (before.filter fun g => g.1 = k) = [] := by
      rw [List.filter_eq_nil_iff]
      intro g hg
      simpa using hbefore g.1 (List.mem_map_of_mem hg) k List.mem_cons_self
    have ha : (after.filter fun g => g.1 = k) = [] := by
      rw [List.filter_eq_nil_iff]
      intro g hg
      simp only [decide_eq_true_eq]
      intro hk
      exact hafter (List.mem_map.2 ⟨g, hg, hk⟩)
    simp [hsplit, hb, ha]

end Watchd.Lib
