import Watchd.Lib.Objects
import Watchd.Sdk.Memory

/-!
# The memory store as a map from key tuples to rows

What `MemoryStore` is for: a finite map from the tuples of primary-key values to
rows, a cursor, and the rows put by each snapshot writer that is open
(`TupleStore`).  The store flattens a tuple into one text.  As long as no key
value holds a NUL it answers as the map does, with any number of writers open
beside further batches.

`MemoryStore.refines_tupleStore` states it for every sequence of calls.
-/

namespace Watchd.Sdk

open Watchd.Cdc Watchd.Lib

/-- `MemoryStore.Get`. -/
def MemoryStore.get (s : MemoryStore) (key : TextMap) : Option Row :=
  match keyOf s.primaryKey key with
  | .error _ => none
  | .ok id => s.rows.lookup id

/-! ## Calls -/

/-- The calls of a store and its writers. -/
inductive Call
  | cursor
  | saveCursor (cursor : String)
  | apply (b : Batch)
  | get (key : TextMap)
  | beginSnapshot (writer : Nat)
  | put (writer : Nat) (rows : List Row)
  | commit (writer : Nat)
  | abort (writer : Nat)

/-- What a call returns if it does not fail. -/
inductive Answer
  | done
  | cursor (cursor : String)
  | row (row : Option Row)

/-- A store with the writers that are open, by the numbers its user gave them. -/
structure Session where
  store : MemoryStore
  writers : Nat → Option RowMap := fun _ => none

/-- A call; `none` if it fails, or is of a writer that is not open. -/
def Session.call (s : Session) : Call → Option (Session × Answer)
  | .cursor => some (s, .cursor s.store.cursor)
  | .saveCursor cursor => some ({ s with store := s.store.saveCursor cursor }, .done)
  | .apply b =>
    match s.store.apply b with
    | (store, none) => some ({ s with store := store }, .done)
    | (_, some _) => none
  | .get key => some (s, .row (s.store.get key))
  | .beginSnapshot w =>
    match s.writers w with
    | some _ => none
    | none => some ({ s with writers := Function.update s.writers w (some ∅) }, .done)
  | .put w rows =>
    (s.writers w).bind fun collected =>
      match put s.store.primaryKey collected rows with
      | (collected, none) =>
        some ({ s with writers := Function.update s.writers w (some collected) }, .done)
      | (_, some _) => none
  | .commit w =>
    (s.writers w).map fun collected =>
      (⟨s.store.commit collected, Function.update s.writers w none⟩, .done)
  | .abort w =>
    (s.writers w).map fun _ => ({ s with writers := Function.update s.writers w none }, .done)

/-! ## The map -/

/-- Rows by their tuples. -/
abbrev TupleMap := Finmap fun _ : List Text => Row

namespace TupleMap

/-- One change of the map; it fails if the key is incomplete or the operation unknown. -/
def change (primaryKey : List String) (m : TupleMap) (c : Change) : Option TupleMap :=
  (tupleOf primaryKey c.key).bind fun k =>
    match c.operation with
    | .delete => some (m.erase k)
    | .insert | .update => some (m.insert k (mergeRow (m.lookup k) c.values))
    | .unknown => none

/-- Adds a row of a snapshot, if it has a tuple. -/
def addRow (primaryKey : List String) (m : TupleMap) (row : Row) : TupleMap :=
  match rowTuple primaryKey row with
  | some k => m.insert k row
  | none => m

/-- The map of a list of rows. -/
def ofRows (primaryKey : List String) (rows : List Row) : TupleMap :=
  rows.foldl (addRow primaryKey) ∅

end TupleMap

/-- The map, the cursor, and the rows put by each open writer. -/
structure TupleStore where
  rows : TupleMap := ∅
  cursor : String := ""
  building : Nat → Option (List Row) := fun _ => none

/-- What each call does to the abstract store; `none` if it fails. -/
def TupleStore.call (primaryKey : List String) (a : TupleStore) :
    Call → Option (TupleStore × Answer)
  | .cursor => some (a, .cursor a.cursor)
  | .saveCursor cursor => some ({ a with cursor := cursor }, .done)
  | .apply b =>
    (b.changes.foldlM (TupleMap.change primaryKey) a.rows).map fun rows =>
      ({ a with rows := rows, cursor := b.cursor }, .done)
  | .get key => some (a, .row ((tupleOf primaryKey key).bind a.rows.lookup))
  | .beginSnapshot w =>
    match a.building w with
    | some _ => none
    | none => some ({ a with building := Function.update a.building w (some []) }, .done)
  | .put w rows =>
    (a.building w).bind fun collected =>
      if rows.all fun row => (rowTuple primaryKey row).isSome then
        some ({ a with building := Function.update a.building w (some (collected ++ rows)) }, .done)
      else none
  | .commit w =>
    (a.building w).map fun collected =>
      (⟨TupleMap.ofRows primaryKey collected, "", Function.update a.building w none⟩, .done)
  | .abort w =>
    (a.building w).map fun _ => ({ a with building := Function.update a.building w none }, .done)

/-- No text of the tuple has a NUL. -/
def NulFree (k : List Text) : Prop := ∀ text ∈ k, (0 : UInt8) ∉ text

/-- The key values of a call hold no NUL. -/
def Call.NulFree (primaryKey : List String) : Call → Prop
  | .apply b => ∀ c ∈ b.changes, ∀ k, tupleOf primaryKey c.key = some k → Sdk.NulFree k
  | .get key => ∀ k, tupleOf primaryKey key = some k → Sdk.NulFree k
  | .put _ rows => ∀ row ∈ rows, ∀ k, rowTuple primaryKey row = some k → Sdk.NulFree k
  | _ => True

/-! ## The store mirrors the map -/

variable {primaryKey : List String}

theorem keyOk_of_tuple {f : String → Option Text} {k : List Text} (h : primaryKey.mapM f = some k)
    (hnul : NulFree k) : KeyOk primaryKey k :=
  ⟨(mapM_eq_some.1 h).length_eq.symm, hnul⟩

/-- The same rows, by joined keys and by tuples. -/
structure Mirrors (primaryKey : List String) (rows : RowMap) (m : TupleMap) : Prop where
  holds : Holds primaryKey rows (Table.ofMap m)
  tuples : ∀ k ∈ m, KeyOk primaryKey k

namespace Mirrors

variable {rows : RowMap} {m : TupleMap} {k : List Text}

theorem empty : Mirrors primaryKey ∅ ∅ := ⟨Holds.empty, fun _ hk => absurd hk Finmap.notMem_empty⟩

theorem lookup (h : Mirrors primaryKey rows m) (hk : KeyOk primaryKey k) :
    rows.lookup (joinKey k) = m.lookup k :=
  h.holds.lookup k hk

theorem insert (h : Mirrors primaryKey rows m) (hk : KeyOk primaryKey k) (row : Row) :
    Mirrors primaryKey (rows.insert (joinKey k) row) (m.insert k row) := by
  refine ⟨?_, fun k' hk' => ?_⟩
  · rw [Table.ofMap_insert]
    exact h.holds.insert hk row
  · rcases Finmap.mem_insert.1 hk' with rfl | hmem
    · exact hk
    · exact h.tuples k' hmem

theorem erase (h : Mirrors primaryKey rows m) (hk : KeyOk primaryKey k) :
    Mirrors primaryKey (rows.erase (joinKey k)) (m.erase k) := by
  refine ⟨?_, fun k' hk' => h.tuples k' (Finmap.mem_erase.1 hk').2⟩
  rw [Table.ofMap_erase]
  exact h.holds.erase hk

end Mirrors

/-- A change that is applied addresses one tuple, in the store and in the map. -/
theorem MemoryStore.applyChange_mirrors {s s' : MemoryStore} {m : TupleMap} {c : Change}
    (hs : Mirrors s.primaryKey s.rows m)
    (hnul : ∀ k, tupleOf s.primaryKey c.key = some k → NulFree k)
    (h : s.applyChange c = .ok s') :
    ∃ rows m', s' = { s with rows := rows } ∧ TupleMap.change s.primaryKey m c = some m' ∧
      Mirrors s.primaryKey rows m' := by
  unfold applyChange at h
  cases hkey : keyOf s.primaryKey c.key with
  | error err =>
    rw [hkey] at h
    cases h
  | ok id =>
    obtain ⟨k, htuple, rfl⟩ := keyOf_eq_ok.1 hkey
    have hk := keyOk_of_tuple htuple (hnul k htuple)
    rw [hkey] at h
    simp only [TupleMap.change, htuple, Option.bind_some]
    cases hop : c.operation with
    | delete =>
      rw [hop] at h
      cases h
      exact ⟨_, _, rfl, rfl, hs.erase hk⟩
    | insert =>
      rw [hop] at h
      cases h
      rw [← hs.lookup hk]
      exact ⟨_, _, rfl, rfl, hs.insert hk _⟩
    | update =>
      rw [hop] at h
      cases h
      rw [← hs.lookup hk]
      exact ⟨_, _, rfl, rfl, hs.insert hk _⟩
    | unknown =>
      rw [hop] at h
      cases h

theorem MemoryStore.applyChanges_mirrors {s s' : MemoryStore} {m : TupleMap} {cs : List Change}
    (hs : Mirrors s.primaryKey s.rows m)
    (hnul : ∀ c ∈ cs, ∀ k, tupleOf s.primaryKey c.key = some k → NulFree k)
    (h : s.applyChanges cs = (s', none)) :
    ∃ rows m', s' = { s with rows := rows } ∧
      cs.foldlM (TupleMap.change s.primaryKey) m = some m' ∧ Mirrors s.primaryKey rows m' := by
  induction cs generalizing s m with
  | nil =>
    cases h
    exact ⟨_, m, rfl, rfl, hs⟩
  | cons c cs ih =>
    rw [List.forall_mem_cons] at hnul
    cases happly : s.applyChange c with
    | error err =>
      simp only [applyChanges, happly] at h
      cases h
    | ok s₁ =>
      obtain ⟨rows₁, m₁, rfl, hm₁, hs₁⟩ := applyChange_mirrors hs hnul.1 happly
      simp only [applyChanges, happly] at h
      obtain ⟨rows, m', rfl, hm', hs'⟩ := ih (s := { s with rows := rows₁ }) hs₁ hnul.2 h
      exact ⟨rows, m', rfl, by rw [List.foldlM_cons, hm₁]; exact hm', hs'⟩

theorem put_mirrors {rows collected' : RowMap} {collected : List Row} {new : List Row}
    (hs : Mirrors primaryKey rows (TupleMap.ofRows primaryKey collected))
    (hnul : ∀ row ∈ new, ∀ k, rowTuple primaryKey row = some k → NulFree k)
    (h : put primaryKey rows new = (collected', none)) :
    (new.all fun row => (rowTuple primaryKey row).isSome) = true ∧
      Mirrors primaryKey collected' (TupleMap.ofRows primaryKey (collected ++ new)) := by
  induction new generalizing rows collected with
  | nil =>
    cases h
    exact ⟨rfl, by rwa [List.append_nil]⟩
  | cons row new ih =>
    rw [List.forall_mem_cons] at hnul
    cases hrow : putRow primaryKey rows row with
    | error err =>
      simp only [put, hrow] at h
      cases h
    | ok rows₁ =>
      obtain ⟨k, htuple, rfl⟩ := putRow_eq_ok.1 hrow
      simp only [put, hrow] at h
      have hadd : TupleMap.ofRows primaryKey (collected ++ [row]) =
          (TupleMap.ofRows primaryKey collected).insert k row := by
        simp only [TupleMap.ofRows, List.foldl_append, List.foldl_cons, List.foldl_nil,
          TupleMap.addRow, htuple]
      have hs₁ := hs.insert (keyOk_of_tuple htuple (hnul.1 k htuple)) row
      rw [← hadd] at hs₁
      obtain ⟨hall, hs'⟩ := ih hs₁ hnul.2 h
      rw [List.append_assoc] at hs'
      exact ⟨by simp [htuple, hall], hs'⟩

/-- What an open writer has collected, and the rows put to it. -/
def Collects (primaryKey : List String) : Option RowMap → Option (List Row) → Prop :=
  Option.Rel fun collected rows => Mirrors primaryKey collected (TupleMap.ofRows primaryKey rows)

theorem Collects.none_left {rows : Option (List Row)} (h : Collects primaryKey none rows) :
    rows = none := by
  cases h
  rfl

theorem Collects.some_left {collected : RowMap} {rows : Option (List Row)}
    (h : Collects primaryKey (some collected) rows) :
    ∃ put, rows = some put ∧ Mirrors primaryKey collected (TupleMap.ofRows primaryKey put) := by
  cases h with
  | some hmirrors => exact ⟨_, rfl, hmirrors⟩

theorem Collects.update {writers : Nat → Option RowMap} {building : Nat → Option (List Row)}
    (h : ∀ w, Collects primaryKey (writers w) (building w)) (w : Nat) {collected : Option RowMap}
    {rows : Option (List Row)} (hw : Collects primaryKey collected rows) (w' : Nat) :
    Collects primaryKey (Function.update writers w collected w')
      (Function.update building w rows w') := by
  by_cases heq : w' = w
  · subst heq
    simpa using hw
  · simpa [Function.update_of_ne heq] using h w'

/-- The store and its open writers, and the map with the rows put. -/
structure Simulates (primaryKey : List String) (s : Session) (a : TupleStore) : Prop where
  columns : s.store.primaryKey = primaryKey
  rows : Mirrors primaryKey s.store.rows a.rows
  cursor : s.store.cursor = a.cursor
  writers : ∀ w, Collects primaryKey (s.writers w) (a.building w)

namespace Simulates

variable {s s' : Session} {a : TupleStore} {r : Answer}

theorem start : Simulates primaryKey ⟨⟨primaryKey, ∅, ""⟩, fun _ => none⟩ {} :=
  ⟨rfl, .empty, rfl, fun _ => .none⟩

theorem building_none (h : Simulates primaryKey s a) {w : Nat} (hw : s.writers w = none) :
    a.building w = none :=
  Collects.none_left (by rw [← hw]; exact h.writers w)

theorem building_some (h : Simulates primaryKey s a) {w : Nat} {collected : RowMap}
    (hw : s.writers w = some collected) :
    ∃ rows, a.building w = some rows ∧
      Mirrors primaryKey collected (TupleMap.ofRows primaryKey rows) :=
  Collects.some_left (by rw [← hw]; exact h.writers w)

theorem apply (h : Simulates primaryKey s a) {b : Batch}
    (hnul : (Call.apply b).NulFree primaryKey) (hcall : s.call (.apply b) = some (s', r)) :
    ∃ a', a.call primaryKey (.apply b) = some (a', r) ∧ Simulates primaryKey s' a' := by
  obtain ⟨rfl, hrows, hcursor, hwriters⟩ := h
  cases happly : s.store.applyChanges b.changes with
  | mk store err =>
    cases err with
    | some err =>
      simp only [Session.call, MemoryStore.apply, happly] at hcall
      cases hcall
    | none =>
      obtain ⟨rows, m, rfl, hm, hrows'⟩ := MemoryStore.applyChanges_mirrors hrows hnul happly
      simp only [Session.call, MemoryStore.apply, happly] at hcall
      cases hcall
      refine ⟨{ a with rows := m, cursor := b.cursor }, ?_, rfl, hrows', rfl, hwriters⟩
      simp only [TupleStore.call, hm, Option.map_some]

theorem get (h : Simulates primaryKey s a) {key : TextMap}
    (hnul : (Call.get key).NulFree primaryKey) :
    s.store.get key = (tupleOf primaryKey key).bind a.rows.lookup := by
  obtain ⟨rfl, hrows, -, -⟩ := h
  cases htuple : tupleOf s.store.primaryKey key with
  | none =>
    cases hkey : keyOf s.store.primaryKey key with
    | error err => simp only [MemoryStore.get, hkey, Option.bind_none]
    | ok id =>
      obtain ⟨k, hk, -⟩ := keyOf_eq_ok.1 hkey
      rw [htuple] at hk
      cases hk
  | some k =>
    have hkey := keyOf_eq_ok.2 ⟨k, htuple, rfl⟩
    simp only [MemoryStore.get, hkey, Option.bind_some]
    exact hrows.lookup (keyOk_of_tuple htuple (hnul k htuple))

theorem beginSnapshot (h : Simulates primaryKey s a) {w : Nat}
    (hcall : s.call (.beginSnapshot w) = some (s', r)) :
    ∃ a', a.call primaryKey (.beginSnapshot w) = some (a', r) ∧ Simulates primaryKey s' a' := by
  cases hw : s.writers w with
  | some collected =>
    simp only [Session.call, hw] at hcall
    cases hcall
  | none =>
    simp only [Session.call, hw] at hcall
    cases hcall
    refine ⟨{ a with building := Function.update a.building w (some []) }, ?_,
      h.columns, h.rows, h.cursor, Collects.update h.writers w (.some .empty)⟩
    simp only [TupleStore.call, h.building_none hw]

theorem put (h : Simulates primaryKey s a) {w : Nat} {rows : List Row}
    (hnul : (Call.put w rows).NulFree primaryKey) (hcall : s.call (.put w rows) = some (s', r)) :
    ∃ a', a.call primaryKey (.put w rows) = some (a', r) ∧ Simulates primaryKey s' a' := by
  obtain ⟨collected, hw, hput⟩ := Option.bind_eq_some_iff.1 hcall
  obtain ⟨earlier, hearlier, hmirrors⟩ := h.building_some hw
  rw [h.columns] at hput
  cases hres : Sdk.put primaryKey collected rows with
  | mk collected' err =>
    rw [hres] at hput
    cases err with
    | some err => cases hput
    | none =>
      cases hput
      obtain ⟨hall, hmirrors'⟩ := put_mirrors hmirrors hnul hres
      refine ⟨{ a with building := Function.update a.building w (some (earlier ++ rows)) }, ?_,
        h.columns, h.rows, h.cursor, Collects.update h.writers w (.some hmirrors')⟩
      simp only [TupleStore.call, hearlier, Option.bind_some, hall, if_true]

theorem commit (h : Simulates primaryKey s a) {w : Nat}
    (hcall : s.call (.commit w) = some (s', r)) :
    ∃ a', a.call primaryKey (.commit w) = some (a', r) ∧ Simulates primaryKey s' a' := by
  obtain ⟨collected, hw, hcommit⟩ := Option.map_eq_some_iff.1 hcall
  obtain ⟨rows, hrows, hmirrors⟩ := h.building_some hw
  cases hcommit
  refine ⟨⟨TupleMap.ofRows primaryKey rows, "", Function.update a.building w none⟩, ?_,
    h.columns, hmirrors, rfl, Collects.update h.writers w .none⟩
  simp only [TupleStore.call, hrows, Option.map_some]

theorem abort (h : Simulates primaryKey s a) {w : Nat}
    (hcall : s.call (.abort w) = some (s', r)) :
    ∃ a', a.call primaryKey (.abort w) = some (a', r) ∧ Simulates primaryKey s' a' := by
  obtain ⟨collected, hw, habort⟩ := Option.map_eq_some_iff.1 hcall
  obtain ⟨rows, hrows, -⟩ := h.building_some hw
  cases habort
  refine ⟨{ a with building := Function.update a.building w none }, ?_,
    h.columns, h.rows, h.cursor, Collects.update h.writers w .none⟩
  simp only [TupleStore.call, hrows, Option.map_some]

/-- Each call that succeeds, succeeds on the map and is answered alike. -/
theorem call (h : Simulates primaryKey s a) {c : Call} (hnul : c.NulFree primaryKey)
    (hcall : s.call c = some (s', r)) :
    ∃ a', a.call primaryKey c = some (a', r) ∧ Simulates primaryKey s' a' := by
  cases c with
  | cursor =>
    cases hcall
    exact ⟨a, by rw [h.cursor]; rfl, h⟩
  | saveCursor cursor =>
    cases hcall
    exact ⟨_, rfl, h.columns, h.rows, rfl, h.writers⟩
  | apply b => exact h.apply hnul hcall
  | get key =>
    cases hcall
    exact ⟨a, by rw [h.get hnul]; rfl, h⟩
  | beginSnapshot w => exact h.beginSnapshot hcall
  | put w rows => exact h.put hnul hcall
  | commit w => exact h.commit hcall
  | abort w => exact h.abort hcall

end Simulates

/-- **The store behaves as a map from key tuples to rows.**  Every sequence of calls that succeeds
on a new store succeeds on the empty map with the same answers, the store still mirrors the map, and
keys with different tuples are kept apart. -/
theorem MemoryStore.refines_tupleStore {calls : List Call} {s : Session} {answered : List Answer}
    (hnul : ∀ c ∈ calls, c.NulFree primaryKey)
    (h : answers Session.call ⟨⟨primaryKey, ∅, ""⟩, fun _ => none⟩ calls = some (s, answered)) :
    (∃ a, answers (TupleStore.call primaryKey) {} calls = some (a, answered) ∧
        Simulates primaryKey s a) ∧
      ∀ (key key' : TextMap) (k k' : List Text),
        tupleOf primaryKey key = some k → tupleOf primaryKey key' = some k' →
        NulFree k → NulFree k' → keyOf primaryKey key = keyOf primaryKey key' → k = k' := by
  refine ⟨answers_of_simulation (fun s a c s' r hR hc hcall => hR.call hc hcall) hnul
    Simulates.start h, ?_⟩
  intro key key' k k' hk hk' hfree hfree' heq
  rw [keyOf_eq_ok.2 ⟨k, hk, rfl⟩, keyOf_eq_ok.2 ⟨k', hk', rfl⟩] at heq
  exact joinKey_inj (keyOk_of_tuple hk hfree) (keyOk_of_tuple hk' hfree') (Except.ok.inj heq)

namespace Demo

/-- A row of two key columns and a body. -/
def pairRow (a b body : UInt8) : Row :=
  fill ∅ [("a", { text := [a] }), ("b", { text := [b] }), ("body", { text := [body] })]

/-- A key of two columns. -/
def pairKey (a b : UInt8) : TextMap := fill ∅ [("a", [a]), ("b", [b])]

/-- A snapshot put in two parts, with a batch and another snapshot in between. -/
def calls : List Call :=
  [.beginSnapshot 0, .put 0 [pairRow 1 2 3, pairRow 1 4 5],
    .apply ⟨"7", [⟨.insert, "public.pairs", pairKey 9 9, pairRow 9 9 9⟩]⟩,
    .beginSnapshot 1, .put 1 [pairRow 8 8 8], .get (pairKey 9 9), .put 0 [pairRow 1 2 6],
    .commit 0, .abort 1, .get (pairKey 1 2), .get (pairKey 9 9), .cursor]

theorem tupleOf_pairKey (a b : UInt8) : tupleOf ["a", "b"] (pairKey a b) = some [[a], [b]] := rfl

theorem rowTuple_pairRow (a b body : UInt8) :
    rowTuple ["a", "b"] (pairRow a b body) = some [[a], [b]] := rfl

theorem calls_nulFree : ∀ c ∈ calls, c.NulFree ["a", "b"] := by
  simp [calls, Call.NulFree, NulFree, tupleOf_pairKey, rowTuple_pairRow]

end Demo

theorem MemoryStore.refines_tupleStore_calls :
    ∃ s a, answers Session.call ⟨⟨["a", "b"], ∅, ""⟩, fun _ => none⟩ Demo.calls =
        some (s, [.done, .done, .done, .done, .done, .row (some (Demo.pairRow 9 9 9)), .done, .done,
          .done, .row (some (Demo.pairRow 1 2 6)), .row none, .cursor ""]) ∧
      Simulates ["a", "b"] s a := by
  have h : answers Session.call ⟨⟨["a", "b"], ∅, ""⟩, fun _ => none⟩ Demo.calls = some _ := rfl
  obtain ⟨a, -, ha⟩ := (refines_tupleStore Demo.calls_nulFree h).1
  exact ⟨_, a, rfl, ha⟩

end Watchd.Sdk
