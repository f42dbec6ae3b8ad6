import Mathlib.Data.Finmap

/-!
# Loops over lists

Loop shapes and what they leave behind: a loop that stops at the first element
failing a test, a loop that looks back at the elements before, a loop that puts
pairs into a map, and a loop over a map that makes another.
-/

namespace Watchd.Lib

/-! ## Loops with an early exit -/

section EarlyExit

variable {ε σ ι : Type}

theorem bind_eq_ok {α β : Type} {x : Except ε α} {f : α → Except ε β} {b : β} :
    (x >>= f) = .ok b ↔ ∃ a, x = .ok a ∧ f a = .ok b := by
  cases x with
  | error e => exact ⟨nofun, nofun⟩
  | ok a => exact ⟨fun h => ⟨a, rfl, h⟩, fun ⟨_, ha, h⟩ => by cases ha; exact h⟩

theorem toOption_eq_some_iff {α : Type} {x : Except ε α} {a : α} :
    x.toOption = some a ↔ x = .ok a := by
  cases x <;> simp [Except.toOption]

/-- A loop that updates a state unless an element is `bad` has updated it with every element. -/
theorem foldlM_guard {bad : ι → Prop} [DecidablePred bad] {err : ι → ε} {g : σ → ι → σ}
    {l : List ι} {s r : σ} :
    l.foldlM (fun s i => if bad i then Except.error (err i) else .ok (g s i)) s = .ok r ↔
      (∀ i ∈ l, ¬bad i) ∧ r = l.foldl g s := by
  induction l generalizing s with
  | nil =>
    simp only [List.foldlM_nil, List.foldl_nil, List.not_mem_nil, false_imp_iff, implies_true,
      true_and]
    exact ⟨fun h => by cases h; rfl, fun h => by rw [h]; rfl⟩
  | cons i l ih =>
    rw [List.foldlM_cons, bind_eq_ok, List.foldl_cons]
    by_cases hbad : bad i
    · simp [hbad]
    · simp [hbad, ih]

/-- A loop that runs a check on every element and updates a state. -/
theorem foldlM_check {check : ι → Except ε Unit} {g : σ → ι → σ} {l : List ι} {s r : σ} :
    l.foldlM (fun s i => do check i; return g s i) s = .ok r ↔
      (∀ i ∈ l, check i = .ok ()) ∧ r = l.foldl g s := by
  induction l generalizing s with
  | nil =>
    simp only [List.foldlM_nil, List.foldl_nil, List.not_mem_nil, false_imp_iff, implies_true,
      true_and]
    exact ⟨fun h => by cases h; rfl, fun h => by rw [h]; rfl⟩
  | cons i l ih =>
    rw [List.foldlM_cons, bind_eq_ok, List.foldl_cons, List.forall_mem_cons, and_assoc, ← ih]
    constructor
    · rintro ⟨s', hs', hrest⟩
      obtain ⟨_, hi, hs'⟩ := bind_eq_ok.1 hs'
      cases hs'
      exact ⟨hi, hrest⟩
    · rintro ⟨hi, hrest⟩
      exact ⟨g s i, bind_eq_ok.2 ⟨(), hi, rfl⟩, hrest⟩

theorem forM_eq_ok {f : ι → Except ε Unit} {l : List ι} :
    l.forM f = .ok () ↔ ∀ i ∈ l, f i = .ok () := by
  induction l with
  | nil => exact ⟨fun _ => nofun, fun _ => rfl⟩
  | cons i l ih =>
    rw [List.forall_mem_cons, ← ih]
    exact bind_eq_ok.trans ⟨fun ⟨_, h⟩ => h, fun h => ⟨(), h⟩⟩

theorem mapM_eq_ok {α : Type} {f : ι → Except ε α} {l : List ι} {as : List α} :
    l.mapM f = .ok as ↔ List.Forall₂ (fun i a => f i = .ok a) l as := by
  induction l generalizing as with
  | nil =>
    rw [List.forall₂_nil_left_iff, List.mapM_nil]
    exact ⟨fun h => by cases h; rfl, fun h => by rw [h]; rfl⟩
  | cons i l ih =>
    rw [List.mapM_cons, bind_eq_ok, List.forall₂_cons_left_iff]
    simp only [bind_eq_ok, ih]
    constructor
    · rintro ⟨a, hi, as', hl, hpure⟩
      cases hpure
      exact ⟨a, as', hi, hl, rfl⟩
    · rintro ⟨a, as', hi, hl, rfl⟩
      exact ⟨a, hi, as', hl, rfl⟩

theorem mapM_eq_some {α : Type} {f : ι → Option α} {l : List ι} {as : List α} :
    l.mapM f = some as ↔ List.Forall₂ (fun i a => f i = some a) l as := by
  induction l generalizing as with
  | nil => rw [List.forall₂_nil_left_iff, List.mapM_nil, Option.pure_def, Option.some_inj, eq_comm]
  | cons i l ih =>
    rw [List.mapM_cons, List.forall₂_cons_left_iff]
    simp only [Option.bind_eq_bind, Option.bind_eq_some_iff, ih, Option.pure_def, Option.some_inj]
    constructor
    · rintro ⟨a, hi, as', hl, rfl⟩
      exact ⟨a, as', hi, hl, rfl⟩
    · rintro ⟨a, as', hi, hl, rfl⟩
      exact ⟨a, hi, as', hl, rfl⟩

theorem mapM_eq_some_map {α : Type} {f : ι → Option α} {g : ι → α} {l : List ι}
    (h : ∀ i ∈ l, f i = some (g i)) : l.mapM f = some (l.map g) :=
  mapM_eq_some.2 (List.forall₂_map_right_iff.2 (List.forall₂_same.2 h))

/-! ### The errors a computation can end in -/

variable {α β : Type} {P Q : ε → Prop} {x : Except ε α}

/-- If the computation fails, it is with an error that meets `P`. -/
def ErrorsIn (P : ε → Prop) (x : Except ε α) : Prop := ∀ e, x = .error e → P e

@[simp] theorem errorsIn_ok {a : α} : ErrorsIn P (.ok a : Except ε α) := fun _ h => by cases h

@[simp] theorem errorsIn_pure {a : α} : ErrorsIn P (pure a : Except ε α) := errorsIn_ok

@[simp] theorem errorsIn_error {e : ε} : ErrorsIn P (.error e : Except ε α) ↔ P e :=
  ⟨fun h => h e rfl, fun h _ he => by cases he; exact h⟩

theorem errorsIn_bind {f : α → Except ε β} :
    ErrorsIn P (x >>= f) ↔ ErrorsIn P x ∧ ∀ a, x = .ok a → ErrorsIn P (f a) := by
  cases x with
  | error e =>
    refine ⟨fun h => ⟨errorsIn_error.mpr (h e rfl), fun a ha => by cases ha⟩, fun h e' he => ?_⟩
    cases he
    exact errorsIn_error.mp h.1
  | ok a =>
    refine ⟨fun h => ⟨errorsIn_ok, fun b hb => ?_⟩, fun h => h.2 a rfl⟩
    cases hb
    exact h

theorem map_eq_error {f : α → β} {e : ε} : x.map f = .error e ↔ x = .error e := by
  cases x <;> simp [Except.map]

theorem errorsIn_map {f : α → β} : ErrorsIn P (x.map f) ↔ ErrorsIn P x := by
  simp only [ErrorsIn, map_eq_error]

/-- A computation none of whose errors meet `P` fails with such errors only if it never fails. -/
theorem ErrorsIn.iff_ok (hx : ErrorsIn (fun e => ¬P e) x) : ErrorsIn P x ↔ ∃ a, x = .ok a := by
  cases x with
  | error e => exact ⟨fun h => absurd (h e rfl) (hx e rfl), fun ⟨_, h⟩ => by cases h⟩
  | ok a => exact ⟨fun _ => ⟨a, rfl⟩, fun _ => errorsIn_ok⟩

theorem ErrorsIn.foldlM {f : σ → ι → Except ε σ} {l : List ι}
    (h : ∀ s, ∀ i ∈ l, ErrorsIn P (f s i)) (s : σ) : ErrorsIn P (l.foldlM f s) := by
  induction l generalizing s with
  | nil => exact errorsIn_ok
  | cons i l ih =>
    rw [List.foldlM_cons, errorsIn_bind]
    refine ⟨h s i (by simp), fun s' _ => ih (fun s j hj => h s j (by simp [hj])) s'⟩

/-- A loop of checks fails as the first check that fails does. -/
theorem errorsIn_forM {f : ι → Except ε Unit} {p : ι → Bool} (hp : ∀ i, p i = true ↔ f i = .ok ())
    {l : List ι} : ErrorsIn P (l.forM f) ↔ ∀ i ∈ l.find? (fun i => !p i), ErrorsIn P (f i) := by
  induction l with
  | nil =>
    simp only [List.find?_nil, Option.not_mem_none, false_imp_iff, implies_true, iff_true]
    exact errorsIn_ok
  | cons i l ih =>
    have hcons : ErrorsIn P ((i :: l).forM f) ↔
        ErrorsIn P (f i) ∧ ∀ a, f i = .ok a → ErrorsIn P (l.forM f) := errorsIn_bind
    rw [hcons, ih, List.find?_cons]
    cases hi : p i with
    | true =>
      have hok := (hp i).mp hi
      simp [hok]
    | false =>
      have hne : ∀ a, f i ≠ .ok a := fun a ha => by simp [(hp i).mpr ha] at hi
      simp [hne]

theorem ErrorsIn.forM {f : ι → Except ε Unit} {l : List ι} (h : ∀ i, ErrorsIn P (f i)) :
    ErrorsIn P (l.forM f) := by
  induction l with
  | nil => exact errorsIn_ok
  | cons i l ih => exact errorsIn_bind.mpr ⟨h i, fun _ _ => ih⟩

end EarlyExit

/-! ## Elements with what comes before them -/

section WithPast

variable {α β : Type*} (f : α → List β)

/-- Each element of a list with everything before it, an element standing for `f` of it. -/
def withPast : List β → List α → List (List β × α)
  | _, [] => []
  | past, a :: as => (past, a) :: withPast (past ++ f a) as

theorem withPast_append (past : List β) (as : List α) (a : α) :
    withPast f past (as ++ [a]) = withPast f past as ++ [(past ++ as.flatMap f, a)] := by
  induction as generalizing past with
  | nil => simp [withPast]
  | cons b as ih => simp [withPast, ih]

end WithPast

/-! ## Filling a map -/

section Fill

variable {α β : Type*} [DecidableEq α]

/-- `m` with the pairs of `ps` put in, in order. -/
def fill (m : Finmap fun _ : α => β) (ps : List (α × β)) : Finmap fun _ : α => β :=
  ps.foldl (fun m p => m.insert p.1 p.2) m

theorem fill_cons (m : Finmap fun _ : α => β) (p : α × β) (ps : List (α × β)) :
    fill m (p :: ps) = fill (m.insert p.1 p.2) ps := rfl

/-- Filling with pairs of distinct keys: each pair is found, other keys read as before. -/
theorem lookup_fill {ps : List (α × β)} (hnd : (ps.map Prod.fst).Nodup)
    (m : Finmap fun _ : α => β) (a : α) (b : β) :
    (fill m ps).lookup a = some b ↔
      (a, b) ∈ ps ∨ a ∉ ps.map Prod.fst ∧ m.lookup a = some b := by
  induction ps generalizing m with
  | nil => simp [fill]
  | cons p ps ih =>
    obtain ⟨k, v⟩ := p
    rw [List.map_cons, List.nodup_cons] at hnd
    obtain ⟨hp, hnd⟩ := hnd
    rw [fill_cons, ih hnd, List.mem_cons, List.map_cons, List.mem_cons, not_or]
    by_cases hk : a = k
    · subst hk
      have hnot : (a, b) ∉ ps := fun h => hp (List.mem_map.2 ⟨_, h, rfl⟩)
      simp only [Finmap.lookup_insert, Option.some.injEq, Prod.mk.injEq, true_and,
        not_true_eq_false,
        false_and, or_false, hnot, false_or]
      exact ⟨fun h => h.2.symm, fun h => ⟨hp, h.symm⟩⟩
    · simp only [Finmap.lookup_insert_of_ne _ hk, Prod.mk.injEq, hk, false_and, false_or,
        not_false_eq_true, true_and]

/-- Whatever a filled map holds was put in or was there before. -/
theorem mem_of_lookup_fill {ps : List (α × β)} {m : Finmap fun _ : α => β} {a : α} {b : β}
    (h : (fill m ps).lookup a = some b) : (a, b) ∈ ps ∨ m.lookup a = some b := by
  induction ps generalizing m with
  | nil => exact .inr h
  | cons p ps ih =>
    rcases ih h with hmem | hold
    · exact .inl (List.mem_cons_of_mem _ hmem)
    · by_cases hk : a = p.1
      · subst hk
        rw [Finmap.lookup_insert, Option.some.injEq] at hold
        subst hold
        exact .inl List.mem_cons_self
      · rw [Finmap.lookup_insert_of_ne _ hk] at hold
        exact .inr hold

/-- A loop that puts a value at each element. -/
theorem lookup_foldl_insert (g : α → β) (l : List α) (m : Finmap fun _ : α => β) (a : α) :
    (l.foldl (fun m i => m.insert i (g i)) m).lookup a =
      if a ∈ l then some (g a) else m.lookup a := by
  induction l generalizing m with
  | nil => rfl
  | cons i l ih =>
    rw [List.foldl_cons, ih]
    by_cases hi : a = i
    · subst hi
      simp
    · simp [hi, Finmap.lookup_insert_of_ne]

theorem lookup_fill_empty {ps : List (α × β)} (hnd : (ps.map Prod.fst).Nodup) (a : α) (b : β) :
    (fill ∅ ps).lookup a = some b ↔ (a, b) ∈ ps := by
  rw [lookup_fill hnd]
  simp

/-- Filling with mapped values. -/
theorem lookup_fill_map {γ : Type*} (f : β → γ) (ps : List (α × β)) {m : Finmap fun _ : α => β}
    {m' : Finmap fun _ : α => γ} (hm : ∀ a, m'.lookup a = (m.lookup a).map f) (a : α) :
    (fill m' (ps.map fun p => (p.1, f p.2))).lookup a = ((fill m ps).lookup a).map f := by
  induction ps generalizing m m' with
  | nil => exact hm a
  | cons p ps ih =>
    refine ih fun a' => ?_
    by_cases hk : a' = p.1
    · subst hk
      simp
    · simp [Finmap.lookup_insert_of_ne _ hk, hm]

/-- Looking up in a list of pairs with distinct keys. -/
theorem lookup_eq_some_iff {ps : List (α × β)}
    (hnd : (ps.map Prod.fst).Nodup) {a : α} {b : β} :
    ps.lookup a = some b ↔ (a, b) ∈ ps := by
  induction ps with
  | nil => simp
  | cons p ps ih =>
    obtain ⟨k, v⟩ := p
    rw [List.map_cons, List.nodup_cons] at hnd
    obtain ⟨hp, hnd⟩ := hnd
    rw [List.lookup_cons, List.mem_cons]
    by_cases hk : a = k
    · subst hk
      have hnot : (a, b) ∉ ps := fun h => hp (List.mem_map.2 ⟨_, h, rfl⟩)
      simp [hnot, eq_comm]
    · rw [beq_false_of_ne hk]
      simp [hk, ih hnd]

end Fill

/-! ## Rebuilding a map -/

section Collect

variable {α β γ : Type*} (f : α → β → Option γ)

/-- One entry of `collect`. -/
def collectEntry (p : Sigma fun _ : α => β) : Option (Sigma fun _ : α => γ) :=
  (f p.1 p.2).map (Sigma.mk p.1)

theorem keys_collectEntry (l : List (Sigma fun _ : α => β)) :
    (l.filterMap (collectEntry f)).keys.Sublist l.keys := by
  induction l with
  | nil => exact .slnil
  | cons p l ih =>
    simp only [List.filterMap_cons, collectEntry]
    cases f p.1 p.2 with
    | none => exact ih.cons p.1
    | some c => exact ih.cons_cons p.1

/-- The map of what `f` makes of the entries of `m`. -/
def collect (m : Finmap fun _ : α => β) : Finmap fun _ : α => γ where
  entries := m.entries.filterMap (collectEntry f)
  nodupKeys := by
    obtain ⟨⟨l⟩, hl⟩ := m
    exact (keys_collectEntry f l).nodup hl

@[simp] theorem lookup_collect [DecidableEq α] (m : Finmap fun _ : α => β) (a : α) :
    (collect f m).lookup a = (m.lookup a).bind (f a) := by
  ext c
  rw [Finmap.lookup_eq_some_iff, Option.bind_eq_some_iff]
  simp only [collect, Multiset.mem_filterMap, collectEntry, Option.map_eq_some_iff,
    Finmap.lookup_eq_some_iff]
  constructor
  · rintro ⟨⟨a', b⟩, hmem, c', hf, heq⟩
    cases heq
    exact ⟨b, hmem, hf⟩
  · rintro ⟨b, hmem, hf⟩
    exact ⟨⟨a, b⟩, hmem, c, hf, rfl⟩

end Collect

end Watchd.Lib
