import Mathlib.Data.Finmap
import Mathlib.Data.List.Basic
import Mathlib.Logic.Function.Basic

/-!
# Tables written one key at a time

A write replaces what a table holds at one key, by a function of what it held
there.  Writes of different keys commute, so a list of steps may be replayed
with some of them moved to the front, provided that no step shares a key with a
moved step after it (`Table.writeAll_partition`).  Composite keys are told apart
after joining their parts with a separator that no part contains.
-/

namespace Watchd.Lib

variable {κ ρ τ α : Type*}

/-- A write of one key, which may depend on what is there. -/
structure Write (κ ρ : Type*) where
  key : κ
  effect : Option ρ → Option ρ

/-- What is held at each key. -/
abbrev Table (κ ρ : Type*) := κ → Option ρ

namespace Table

variable [DecidableEq κ]

/-- One write. -/
def write (t : Table κ ρ) (w : Write κ ρ) : Table κ ρ :=
  Function.update t w.key (w.effect (t w.key))

/-- Writes one after the other. -/
def writeAll (t : Table κ ρ) (ws : List (Write κ ρ)) : Table κ ρ := ws.foldl write t

@[simp] theorem writeAll_nil (t : Table κ ρ) : t.writeAll [] = t := rfl

@[simp] theorem writeAll_cons (t : Table κ ρ) (w : Write κ ρ) (ws : List (Write κ ρ)) :
    t.writeAll (w :: ws) = (t.write w).writeAll ws := rfl

theorem writeAll_append (t : Table κ ρ) (ws ws' : List (Write κ ρ)) :
    t.writeAll (ws ++ ws') = (t.writeAll ws).writeAll ws' :=
  List.foldl_append

/-- What a table holds at a key depends on the writes of that key only. -/
theorem writeAll_apply (t : Table κ ρ) (ws : List (Write κ ρ)) (k : κ) :
    t.writeAll ws k = (ws.filter (·.key = k)).foldl (fun r w => w.effect r) (t k) := by
  induction ws generalizing t with
  | nil => rfl
  | cons w ws ih =>
    rw [writeAll_cons, ih]
    by_cases hk : w.key = k
    · subst hk
      simp [write]
    · simp [write, hk, Function.update_of_ne (Ne.symm hk)]

/-- Writes that find what they would leave change nothing. -/
theorem writeAll_eq_self {t : Table κ ρ} {ws : List (Write κ ρ)}
    (h : ∀ w ∈ ws, w.effect (t w.key) = t w.key) : t.writeAll ws = t := by
  induction ws with
  | nil => rfl
  | cons w ws ih =>
    rw [List.forall_mem_cons] at h
    have hw : t.write w = t := by rw [write, h.1, Function.update_eq_self]
    rw [writeAll_cons, hw, ih h.2]

/-- Where no two writes share a key, each leaves its own effect. -/
theorem writeAll_apply_key {ws : List (Write κ ρ)} (h : ws.Pairwise fun a b => a.key ≠ b.key)
    {w : Write κ ρ} (hw : w ∈ ws) (t : Table κ ρ) :
    t.writeAll ws w.key = w.effect (t w.key) := by
  induction ws generalizing t with
  | nil => cases hw
  | cons a ws ih =>
    rw [List.pairwise_cons] at h
    rw [writeAll_cons]
    rcases List.mem_cons.1 hw with rfl | hmem
    · have hrest : ws.filter (·.key = w.key) = [] :=
        List.filter_eq_nil_iff.2 fun b hb => by simpa using (h.1 b hb).symm
      rw [writeAll_apply, hrest]
      exact Function.update_self ..
    · rw [ih h.2 hmem, write, Function.update_of_ne (h.1 w hmem).symm]

/-- What a finite map holds at each key. -/
def ofMap (m : Finmap fun _ : κ => ρ) : Table κ ρ := fun k => m.lookup k

theorem ofMap_inj {m m' : Finmap fun _ : κ => ρ} (h : ofMap m = ofMap m') : m = m' :=
  Finmap.ext_lookup fun k => congrFun h k

theorem ofMap_insert (m : Finmap fun _ : κ => ρ) (k : κ) (r : ρ) :
    ofMap (m.insert k r) = Function.update (ofMap m) k (some r) := by
  funext k'
  by_cases hk : k' = k
  · subst hk
    simp [ofMap]
  · simp [ofMap, hk, Finmap.lookup_insert_of_ne]

theorem ofMap_erase (m : Finmap fun _ : κ => ρ) (k : κ) :
    ofMap (m.erase k) = Function.update (ofMap m) k none := by
  funext k'
  by_cases hk : k' = k
  · subst hk
    simp [ofMap]
  · simp [ofMap, hk, Finmap.lookup_erase_ne]

end Table

/-! ## Moving steps to the front -/

/-- Steps that are moved past only steps that contribute nothing keep what is contributed. -/
theorem flatMap_partition {f : τ → List α} {sel : τ → Bool} {ts : List τ}
    (h : ts.Pairwise fun a b => sel a = false → sel b = true → f a = [] ∨ f b = []) :
    (ts.filter sel).flatMap f ++ (ts.filter fun a => !sel a).flatMap f = ts.flatMap f := by
  induction ts with
  | nil => rfl
  | cons a ts ih =>
    rw [List.pairwise_cons] at h
    obtain ⟨ha, hts⟩ := h
    have ih := ih hts
    cases hsel : sel a with
    | true => simp [hsel, ih]
    | false =>
      simp only [List.filter_cons, hsel, Bool.not_false, if_true, Bool.false_eq_true, if_false,
        List.flatMap_cons]
      -- either `a` contributes nothing, or no step moved past it does
      by_cases hempty : f a = []
      · simp [hempty, ih]
      · have hmoved : (ts.filter sel).flatMap f = [] := by
          rw [List.flatMap_eq_nil_iff]
          intro b hb
          obtain ⟨hmem, hb⟩ := List.mem_filter.1 hb
          exact (ha b hmem hsel hb).resolve_left hempty
        rw [hmoved, List.nil_append, ← ih, hmoved, List.nil_append]

/-- **Reordering**: the selected steps may be replayed before the others if none of the others
writes a key that a selected step after it writes. -/
theorem Table.writeAll_partition [DecidableEq κ] (writes : τ → List (Write κ ρ)) (sel : τ → Bool)
    {ts : List τ}
    (h : ts.Pairwise fun a b => sel a = false → sel b = true →
      ∀ w ∈ writes a, ∀ w' ∈ writes b, w.key ≠ w'.key) (t : Table κ ρ) :
    (t.writeAll ((ts.filter sel).flatMap writes)).writeAll
      ((ts.filter fun a => !sel a).flatMap writes) = t.writeAll (ts.flatMap writes) := by
  funext k
  have hk : ts.Pairwise fun a b => sel a = false → sel b = true →
      (writes a).filter (·.key = k) = [] ∨ (writes b).filter (·.key = k) = [] := by
    refine h.imp fun {a b} hab ha hb => ?_
    by_contra hnot
    rw [not_or, ← ne_eq, ← ne_eq, List.ne_nil_iff_exists_cons, List.ne_nil_iff_exists_cons] at hnot
    obtain ⟨⟨w, ws, hw⟩, w', ws', hw'⟩ := hnot
    have hmem := List.mem_filter.1 (hw ▸ List.mem_cons_self : w ∈ (writes a).filter (·.key = k))
    have hmem' := List.mem_filter.1 (hw' ▸ List.mem_cons_self : w' ∈ (writes b).filter (·.key = k))
    exact hab ha hb w hmem.1 w' hmem'.1 (by simp_all)
  rw [← writeAll_append, writeAll_apply, writeAll_apply, List.filter_append, List.filter_flatMap,
    List.filter_flatMap, List.filter_flatMap, flatMap_partition hk]

/-! ## Joined keys -/

theorem append_sep_inj {sep : α} {x y a b : List α} (hx : sep ∉ x) (hy : sep ∉ y)
    (h : x ++ sep :: a = y ++ sep :: b) : x = y ∧ a = b := by
  induction x generalizing y with
  | nil =>
    cases y with
    | nil => exact ⟨rfl, by simpa using h⟩
    | cons c y =>
      obtain ⟨rfl, -⟩ := List.cons.inj h
      exact absurd List.mem_cons_self hy
  | cons c x ih =>
    cases y with
    | nil =>
      obtain ⟨rfl, -⟩ := List.cons.inj h
      exact absurd List.mem_cons_self hx
    | cons c' y =>
      obtain ⟨rfl, hrest⟩ := List.cons.inj h
      obtain ⟨rfl, hab⟩ :=
        ih (fun hm => hx (List.mem_cons_of_mem _ hm))
          (fun hm => hy (List.mem_cons_of_mem _ hm)) hrest
      exact ⟨rfl, hab⟩

/-- Parts without the separator are found again in what they are joined to. -/
theorem intercalate_inj {sep : α} {xs ys : List (List α)} (hlen : xs.length = ys.length)
    (hxs : ∀ x ∈ xs, sep ∉ x) (hys : ∀ y ∈ ys, sep ∉ y)
    (h : [sep].intercalate xs = [sep].intercalate ys) : xs = ys := by
  induction xs generalizing ys with
  | nil => exact (List.length_eq_zero_iff.1 hlen.symm).symm
  | cons x xs ih =>
    cases ys with
    | nil => cases hlen
    | cons y ys =>
      rw [List.forall_mem_cons] at hxs hys
      have htail : xs.length = ys.length := by simpa using hlen
      cases xs with
      | nil =>
        obtain rfl : ys = [] := List.length_eq_zero_iff.1 htail.symm
        simpa [List.intercalate] using h
      | cons x' xs =>
        cases ys with
        | nil => cases htail
        | cons y' ys =>
          rw [List.intercalate_cons_cons, List.intercalate_cons_cons, List.append_assoc,
            List.append_assoc, List.singleton_append, List.singleton_append] at h
          obtain ⟨rfl, hrest⟩ := append_sep_inj hxs.1 hys.1 h
          rw [ih htail hxs.2 hys.2 hrest]

end Watchd.Lib
