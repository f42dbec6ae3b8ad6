import Watchd.Sdk.Memory

/-!
# A snapshot and the transactions it does not cover

The transactions a snapshot covers are not a prefix of the commit order.  Row
locks keep an uncovered transaction from touching a key that a covered one
touches after it, so the covered ones may be read first: installing their rows
and applying the others gives the rows of the whole history.

`rebuild_across_boundary` states it.
-/

namespace Watchd.Sdk

open Watchd.Cdc Watchd.Lib Watchd.Wire

/-- Whether the rows of `snapshot` contain `t`. -/
def covered (snapshot : Snapshot) (t : Transaction) : Bool :=
  match snapshot.covers t with
  | .ok covered => covered
  | .error _ => false

/-- The scope's part of a transaction, as the client gets it. -/
def partOf (srv : Server) (p : Watch.Projection) (scope : Text) (t : Transaction) : Batch :=
  received srv { cursor := t.cursor, commitTime := t.commitTime, changes := p.changes scope t }

/-- `Put` of one page after another. -/
def putAll (primaryKey : List String) : RowMap → List (List Row) → RowMap × Option String
  | rows, [] => (rows, none)
  | rows, page :: pages =>
    match put primaryKey rows page with
    | (rows, some err) => (rows, some err)
    | (rows, none) => putAll primaryKey rows pages

namespace MemoryStore

/-- `BeginSnapshot`, `Put` of every page, and `Commit`. -/
def install (s : MemoryStore) (pages : List (List Row)) : MemoryStore × Option String :=
  match putAll s.primaryKey ∅ pages with
  | (_, some err) => (s, some err)
  | (rows, none) => (s.commit rows, none)

/-- Applying the scope's parts of transactions writes them to the table. -/
theorem applyAll_represents (srv : Server) {p : Watch.Projection} {scope : Text}
    (ts : List Transaction) (hts : AllWellFormed p scope ts) {s : MemoryStore}
    (hs : s.primaryKey = p.spec.primaryKey) {tbl : Table (List Text) Watch.Row}
    (h : Represents p.spec.primaryKey s.rows tbl) :
    ∃ s', s.applyAll (ts.map (partOf srv p scope)) = (s', none) ∧
      Represents p.spec.primaryKey s'.rows (tbl.writeAll (ts.flatMap (scopeWrites p scope))) := by
  induction ts generalizing s tbl with
  | nil => exact ⟨s, rfl, h⟩
  | cons t ts ih =>
    have ht : ∀ c ∈ p.changes scope t, WellFormed p.spec.primaryKey c :=
      hts t List.mem_cons_self
    obtain ⟨rows, happly, hrows⟩ :=
      apply_represents (b := ⟨t.cursor, t.commitTime, p.changes scope t, none⟩) srv hs h ht
    obtain ⟨s', hrest, hs'⟩ := ih (s := ⟨s.primaryKey, rows, srv.encodeCursor t.cursor⟩)
      (fun t' ht' => hts t' (List.mem_cons_of_mem _ ht')) hs hrows
    refine ⟨s', ?_, ?_⟩
    · simp only [List.map_cons, applyAll, partOf, happly]
      exact hrest
    · rw [List.flatMap_cons, Table.writeAll_append]
      exact hs'

/-- Installing the rows of a table, in any pages. -/
theorem install_represents {s : MemoryStore} {tbl : Table (List Text) Watch.Row}
    (htbl : Keyed s.primaryKey tbl) {pages : List (List Watch.Row)}
    (hrows : ∀ row, row ∈ pages.flatten ↔ ∃ k, tbl k = some row) :
    ∃ rows, s.install (pages.map (·.map receivedRow)) = (s.commit rows, none) ∧
      Represents s.primaryKey rows tbl := by
  have hputAll : ∀ (pages : List (List Watch.Row)) (rows : RowMap)
      (tbl : Table (List Text) Watch.Row),
      Represents s.primaryKey rows tbl →
      (∀ row ∈ pages.flatten, Carries s.primaryKey row (rowKey s.primaryKey row)) →
      ∃ rows', putAll s.primaryKey rows (pages.map (·.map receivedRow)) = (rows', none) ∧
        Represents s.primaryKey rows'
          (tbl.writeAll (pages.flatten.map (rowWrite s.primaryKey))) := by
    intro pages
    induction pages with
    | nil => exact fun rows tbl h _ => ⟨rows, rfl, h⟩
    | cons page pages ih =>
      intro rows tbl h hcarries
      rw [List.flatten_cons, List.forall_mem_append] at hcarries
      obtain ⟨rows₁, hput, h₁⟩ := put_represents h hcarries.1
      obtain ⟨rows', hrest, h'⟩ := ih rows₁ _ h₁ hcarries.2
      refine ⟨rows', by simp only [List.map_cons, putAll, hput, hrest], ?_⟩
      rw [List.flatten_cons, List.map_append, Table.writeAll_append]
      exact h'
  obtain ⟨rows, hput, h⟩ := hputAll pages ∅ _ .empty fun row hrow => by
    obtain ⟨k, hk⟩ := (hrows row).1 hrow
    have hcarries := htbl k row hk
    rwa [hcarries.eq_rowKey] at hcarries
  rw [writeAll_rows htbl hrows] at h
  exact ⟨rows, by simp only [install, hput], h⟩

end MemoryStore

/-- **Snapshot and stream give the source.**  If an uncovered transaction never changes a primary
key that a covered one changes after it, installing the rows of the covered transactions and
applying the scope's part of the uncovered ones, in commit order, gives the rows that applying the
whole history gives. -/
theorem rebuild_across_boundary (srv : Server) (p : Watch.Projection) (scope : Text)
    (history : List Transaction) (snapshot : Snapshot) (store : MemoryStore)
    (hstore : store.primaryKey = p.spec.primaryKey) (hwf : AllWellFormed p scope history)
    (hlocks : history.Pairwise fun t t' => covered snapshot t = false → covered snapshot t' = true →
      ∀ c ∈ p.changes scope t, ∀ c' ∈ p.changes scope t',
        p.spec.primaryKey.map c.keyAt ≠ p.spec.primaryKey.map c'.keyAt)
    (pages : List (List Watch.Row))
    (hrows : ∀ row, row ∈ pages.flatten ↔
      ∃ k, scopeTable p scope (history.filter (covered snapshot)) k = some row) :
    ∃ installed rebuilt whole : MemoryStore,
      store.install (pages.map (·.map receivedRow)) = (installed, none) ∧
      installed.applyAll ((history.filter fun t => !covered snapshot t).map (partOf srv p scope)) =
        (rebuilt, none) ∧
      MemoryStore.applyAll { primaryKey := p.spec.primaryKey } (history.map (partOf srv p scope)) =
        (whole, none) ∧
      rebuilt.rows = whole.rows := by
  have hkeyed : Keyed store.primaryKey
      (scopeTable p scope (history.filter (covered snapshot))) := by
    rw [hstore]
    exact scopeTable_keyed fun t ht => hwf t (List.mem_of_mem_filter ht)
  obtain ⟨rows, hinstall, hinstalled⟩ := MemoryStore.install_represents hkeyed hrows
  rw [hstore] at hinstalled
  obtain ⟨rebuilt, happly, hrebuilt⟩ := MemoryStore.applyAll_represents srv
    (history.filter fun t => !covered snapshot t) (s := store.commit rows)
    (fun t ht => hwf t (List.mem_of_mem_filter ht)) hstore hinstalled
  obtain ⟨whole, hall, hwhole⟩ := MemoryStore.applyAll_represents srv history hwf
    (s := { primaryKey := p.spec.primaryKey }) rfl .empty
  refine ⟨_, rebuilt, whole, hinstall, happly, hall, ?_⟩
  have hreorder := Table.writeAll_partition (scopeWrites p scope) (covered snapshot)
    (hlocks.imp fun {t t'} h hun hcov w hw w' hw' => by
      obtain ⟨c, hc, rfl⟩ := List.mem_map.1 hw
      obtain ⟨c', hc', rfl⟩ := List.mem_map.1 hw'
      exact h hun hcov c hc c' hc') fun _ => none
  rw [scopeTable, hreorder] at hrebuilt
  exact hrebuilt.unique hwhole

namespace Demo

open Watch.Demo

/-- The projection of the members. -/
def members : Watch.Projection := ⟨spec, "public.members"⟩

/-- A change of one member; `note` is a large column. -/
def member (operation : Cdc.Operation) (user : UInt8) (note : Cdc.Value) : Cdc.Change :=
  { operation := operation
    table := "public.members"
    key := ((∅ : TextMap).insert "tenant_id" tenant).insert "user_id" [user]
    columns := ["tenant_id", "user_id", "note"]
    values := [⟨.text, tenant⟩, ⟨.text, [user]⟩, note] }

/-- Transaction 15, not visible in the snapshot, commits before transaction 12, which is; the last
one updates the row of the second. -/
def history : List Transaction :=
  [{ transaction 100 15 with changes := [member .insert 0x31 ⟨.null, []⟩] },
    { transaction 200 12 with changes := [member .insert 0x32 ⟨.text, [0x68, 0x69]⟩] },
    { transaction 300 30 with changes := [member .update 0x32 ⟨.unchangedToast, []⟩] }]

/-- The row of the second transaction. -/
def secondRow : Watch.Row := fill ∅
  [("tenant_id", some tenant), ("user_id", some [0x32]), ("note", some [0x68, 0x69])]

theorem member_wellFormed (operation : Cdc.Operation) {user : UInt8} (huser : user ≠ 0)
    (note : Cdc.Value) : WellFormed spec.primaryKey (member operation user note) := by
  refine ⟨fun column hc => ?_, fun _ column hc => ?_⟩
  · rcases List.mem_pair.1 hc with rfl | rfl
    · exact ⟨tenant, rfl, by decide⟩
    · exact ⟨[user], rfl, by simpa using huser.symm⟩
  · rcases List.mem_pair.1 hc with rfl | rfl <;> rfl

theorem history_wellFormed : AllWellFormed members tenant history := by
  intro t ht c hc
  have hmem := (List.mem_filter.1 hc).1
  simp only [history, List.mem_cons, List.not_mem_nil, or_false] at ht
  rcases ht with rfl | rfl | rfl
  · rw [List.mem_singleton.1 hmem]
    exact member_wellFormed _ (by decide) _
  · rw [List.mem_singleton.1 hmem]
    exact member_wellFormed _ (by decide) _
  · rw [List.mem_singleton.1 hmem]
    exact member_wellFormed _ (by decide) _

end Demo

/-- The hypotheses hold where an uncovered transaction precedes a covered one. -/
theorem rebuild_across_boundary_run :
    Demo.history.map (covered (Watch.Demo.snapshot 250)) = [false, true, false] ∧
      ∃ installed rebuilt whole : MemoryStore,
        MemoryStore.install { primaryKey := Watch.Demo.spec.primaryKey }
          [[receivedRow Demo.secondRow]] = (installed, none) ∧
        installed.applyAll
          ((Demo.history.filter fun t => !covered (Watch.Demo.snapshot 250) t).map
            (partOf Demo.server Demo.members Watch.Demo.tenant)) = (rebuilt, none) ∧
        MemoryStore.applyAll { primaryKey := Watch.Demo.spec.primaryKey }
          (Demo.history.map (partOf Demo.server Demo.members Watch.Demo.tenant)) = (whole, none) ∧
        rebuilt.rows = whole.rows := by
  refine ⟨by decide, rebuild_across_boundary Demo.server Demo.members Watch.Demo.tenant Demo.history
    (Watch.Demo.snapshot 250) { primaryKey := Watch.Demo.spec.primaryKey } rfl
    Demo.history_wellFormed (by decide) [[Demo.secondRow]] fun row => ?_⟩
  have htable : scopeTable Demo.members Watch.Demo.tenant
      (Demo.history.filter (covered (Watch.Demo.snapshot 250))) =
      Function.update (fun _ => none) [Watch.Demo.tenant, [0x32]] (some Demo.secondRow) := by
    have hcovered : Demo.history.filter (covered (Watch.Demo.snapshot 250)) =
        [Demo.history[1]] := by decide
    rw [hcovered]
    rfl
  rw [htable]
  simp only [List.flatten_cons, List.flatten_nil, List.append_nil, List.mem_singleton]
  constructor
  · rintro rfl
    exact ⟨_, Function.update_self ..⟩
  · rintro ⟨k, hk⟩
    by_cases heq : k = [Watch.Demo.tenant, [0x32]]
    · subst heq
      rw [Function.update_self, Option.some.injEq] at hk
      exact hk.symm
    · rw [Function.update_of_ne heq] at hk
      cases hk

end Watchd.Sdk
