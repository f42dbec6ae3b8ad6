import Watchd.Sdk.Freshness
import Watchd.Sdk.Scene

/-!
# A client that follows a history

`Tells` says what each message of a stream means for a client whose rows are
those of a prefix of the history, and under which conditions it is true.  A
client over a `MemoryStore` that receives only true messages keeps the rows of
some prefix, and every cursor it stores or reports is one its rows reach.

`ClientAt.told` is the step.
-/

namespace Watchd.Sdk

open Watchd.Cdc Watchd.Lib Watchd.Wire

/-! ## What a stream tells -/

/-- What a client knows on a stream. -/
inductive View
  /-- its rows are those of the first `n` transactions; `base` was installed on this stream -/
  | live (n : Nat) (base : Option Snapshot)
  /-- and it is being given a snapshot, of which it has these rows -/
  | reading (n : Nat) (rows : List WireRow)
  /-- the stream is over -/
  | ended

/-- A message is true, on the stream of a watch with `need`. -/
inductive Tells (X : Scene) (need : Option Watch.Need) : View → Wire.Message → View → Prop
  | snapshotBegin (n : Nat) (base : Option Snapshot) :
    Tells X need (.live n base) .snapshotBegin (.reading n [])
  | snapshotRows (n : Nat) (rows new : List WireRow) :
    Tells X need (.reading n rows) (.snapshotRows new) (.reading n (rows ++ new))
  | snapshotEnd (n m : Nat) (rows : List Watch.Row) (snap : Snapshot)
      (hneed : need = some (.notCovered snap)) (htaken : X.Taken snap rows m) :
    Tells X need (.reading n (rows.map convertRow)) .snapshotEnd (.live m (some snap))
  | batch (n i : Nat) (base : Option Snapshot) (t : Transaction) (hi : X.history[i]? = some t)
      (hle : n ≤ i) (hquiet : X.Quiet n i) :
    Tells X need (.live n base) (X.srv.convertBatch (X.part t)) (.live (i + 1) base)
  /-- nothing before the position is missing, and only the rows of the stream's own snapshot may be
  ahead of it -/
  | progress (n : Nat) (base : Option Snapshot) (c : Cursor) (hc : c.lsn < 2 ^ 64)
      (hquiet : X.Quiet n (X.passed c.lsn))
      (hahead : n ≤ X.passed c.lsn ∨ ∃ snap, base = some snap ∧ X.Covers snap n) :
    Tells X need (.live n base) (.progress (X.srv.encodeCursor c))
      (.live (max n (X.passed c.lsn)) base)
  | resync (v : View) (reason : WireReason) : Tells X need v (.resync reason) .ended

/-- Only the end of a snapshot depends on what the watch needs. -/
theorem Tells.of_none {X : Scene} (need : Option Watch.Need) {v v' : View} {msg : Wire.Message}
    (h : Tells X none v msg v') : Tells X need v msg v' := by
  cases h with
  | snapshotBegin n base => exact .snapshotBegin n base
  | snapshotRows n rows new => exact .snapshotRows n rows new
  | snapshotEnd n m rows snap hneed htaken => cases hneed
  | batch n i base t hi hle hquiet => exact .batch n i base t hi hle hquiet
  | progress n base c hc hquiet hahead => exact .progress n base c hc hquiet hahead
  | resync v reason => exact .resync v reason

/-! ## What the client keeps -/

/-- The store holds the rows of the first `n` transactions.  Resuming from its cursor would repeat
at most what `installed` covers, and a fresh state reaches no further than the rows. -/
structure Kept (X : Scene) (installed : Option Snapshot) (store : MemoryStore) (state : State)
    (n : Nat) : Prop where
  primaryKey : store.primaryKey = X.primaryKey
  le : n ≤ X.history.length
  rows : Represents X.primaryKey store.rows (X.rowsAfter n)
  cursor : store.cursor = "" ∨ ∃ c : Cursor, c.lsn < 2 ^ 64 ∧ store.cursor = X.srv.encodeCursor c ∧
    X.passed c.lsn ≤ n ∧
      (X.passed c.lsn = n ∨ ∃ snap, installed = some snap ∧ X.Covers snap n)
  fresh : state.fresh = true → ∃ c : Cursor, state.cursor = X.srv.encodeCursor c ∧
    X.passed c.lsn ≤ n

section Kept

variable {X : Scene} {installed : Option Snapshot} {store : MemoryStore} {state : State} {n : Nat}

theorem Kept.stale (h : Kept X installed store state n) {state' : State}
    (hstate : state' = state ∨ state'.fresh = false) : Kept X installed store state' n := by
  refine ⟨h.primaryKey, h.le, h.rows, h.cursor, fun hfresh => ?_⟩
  rcases hstate with rfl | hstale
  · exact h.fresh hfresh
  · rw [hstale] at hfresh
    cases hfresh

/-- Installing a snapshot of the first `m` transactions. -/
theorem Kept.commit (hX : X.Sound) (h : Kept X installed store state n) {m : Nat}
    {snap : Snapshot} {rows : List Watch.Row} (htaken : X.Taken snap rows m) {w : RowMap}
    (hput : put X.primaryKey ∅ (rows.map receivedRow) = (w, none)) (hstale : state.fresh = false) :
    Kept X (some snap) (store.commit w) state m := by
  have hkeyed : Keyed X.primaryKey (X.rowsAfter m) :=
    scopeTable_keyed fun t ht => hX.wellFormed t (List.mem_of_mem_take ht)
  have hcarries : ∀ row ∈ rows, Carries X.primaryKey row (rowKey X.primaryKey row) := by
    intro row hrow
    obtain ⟨k, hk⟩ := (htaken.rows row).1 hrow
    have hcarries := hkeyed k row hk
    rwa [hcarries.eq_rowKey] at hcarries
  obtain ⟨w', hput', hw'⟩ := put_represents .empty hcarries
  rw [hput] at hput'
  cases hput'
  rw [writeAll_rows hkeyed htaken.rows] at hw'
  refine ⟨h.primaryKey, htaken.le, hw', .inl rfl, fun hfresh => ?_⟩
  rw [hstale] at hfresh
  cases hfresh

/-- Applying the next part that matters. -/
theorem Kept.apply (hX : X.Sound) (h : Kept X installed store state n) {i : Nat} {t : Transaction}
    (hi : X.history[i]? = some t) (hle : n ≤ i) (hquiet : X.Quiet n i) :
    ∃ store', store.apply (received X.srv (X.part t)) = (store', none) ∧
      Kept X installed store' state (i + 1) := by
  have hmem := List.mem_of_getElem? hi
  have hlt : i < X.history.length := (List.getElem?_eq_some_iff.1 hi).1
  have hbefore : Represents X.primaryKey store.rows (X.rowsAfter i) := by
    rw [Scene.rowsAfter_of_quiet hle hquiet]
    exact h.rows
  obtain ⟨rows, happly, hrows⟩ := MemoryStore.apply_represents (b := X.part t) X.srv h.primaryKey
    hbefore (hX.wellFormed t hmem)
  have hafter : X.rowsAfter (i + 1) = (X.rowsAfter i).writeAll
      ((X.part t).changes.map (writeOf X.primaryKey)) := Scene.rowsAfter_succ hi
  have hpassed := Scene.passed_cursor hX hi
  refine ⟨_, happly, h.primaryKey, hlt, hafter ▸ hrows, ?_, fun hfresh => ?_⟩
  · exact .inr ⟨t.cursor, hX.committed.bounded t hmem, rfl, hpassed.le, .inl hpassed⟩
  · obtain ⟨c, hc, hreach⟩ := h.fresh hfresh
    exact ⟨c, hc, hreach.trans (hle.trans (Nat.le_succ i))⟩

/-- Saving a position nothing before which is missing. -/
theorem Kept.saveCursor (h : Kept X installed store state n) {c : Cursor} (hc : c.lsn < 2 ^ 64)
    (hquiet : X.Quiet n (X.passed c.lsn))
    (hahead : n ≤ X.passed c.lsn ∨ ∃ snap, installed = some snap ∧ X.Covers snap n) :
    Kept X installed (store.saveCursor (X.srv.encodeCursor c)) ⟨true, X.srv.encodeCursor c⟩
      (max n (X.passed c.lsn)) := by
  have hreach : X.passed c.lsn ≤ max n (X.passed c.lsn) := Nat.le_max_right ..
  refine ⟨h.primaryKey, Nat.max_le.2 ⟨h.le, X.passed_le _⟩, ?_, ?_, fun _ => ⟨c, rfl, hreach⟩⟩
  · rcases Nat.le_total n (X.passed c.lsn) with hle | hle
    · rw [Nat.max_eq_right hle, Scene.rowsAfter_of_quiet hle hquiet]
      exact h.rows
    · rw [Nat.max_eq_left hle]
      exact h.rows
  · refine .inr ⟨c, hc, rfl, hreach, ?_⟩
    rcases Nat.le_total n (X.passed c.lsn) with hle | hle
    · exact .inl (Nat.max_eq_right hle).symm
    · rw [Nat.max_eq_left hle]
      exact hahead.imp_left fun hge => Nat.le_antisymm hle hge

end Kept

/-! ## What the client does with a message -/

/-- The snapshot installed last, after a message of a watch with `need`. -/
def installedBy (installed : Option Snapshot) (need : Option Watch.Need) :
    Wire.Message → Option Snapshot
  | .snapshotEnd =>
    match need with
    | some (.notCovered snap) => some snap
    | _ => installed
  | _ => installed

/-- Where a streaming client stands when it knows `v`. -/
def ClientAt (X : Scene) (installed : Option Snapshot) (c : Sync MemoryStore RowMap) : View → Prop
  | .live n base => (∃ cursor heard, c.phase = .streaming cursor heard none) ∧
    Kept X installed c.store c.state n ∧ ∀ snap, base = some snap → installed = some snap
  | .reading n rows => ∃ cursor heard w, c.phase = .streaming cursor heard (some w) ∧
    Kept X installed c.store c.state n ∧ c.state.fresh = false ∧
    put X.primaryKey ∅ (rows.map convertValues) = (w, none)
  | .ended => c.phase = .ended .resync ∧ ∃ n, Kept X installed c.store c.state n

section Client

variable {X : Scene} {installed : Option Snapshot} {c c' : Sync MemoryStore RowMap}

theorem ClientAt.kept {v : View} (h : ClientAt X installed c v) :
    ∃ n, Kept X installed c.store c.state n := by
  cases v with
  | live n base => exact ⟨n, h.2.1⟩
  | reading n rows =>
    obtain ⟨cursor, heard, w, -, hkept, -⟩ := h
    exact ⟨n, hkept⟩
  | ended => exact h.2

theorem put_append (primaryKey : List String) (rows : RowMap) (new new' : List Row) :
    put primaryKey rows (new ++ new') =
      match put primaryKey rows new with
      | (rows, none) => put primaryKey rows new'
      | (rows, some err) => (rows, some err) := by
  induction new generalizing rows with
  | nil => rfl
  | cons row new ih =>
    simp only [List.cons_append, put]
    cases putRow primaryKey rows row with
    | error err => rfl
    | ok rows => exact ih rows

/-- **A true message keeps the client true**, unless a row cannot be put and ends its stream. -/
theorem ClientAt.told (hX : X.Sound) {need : Option Watch.Need} {v v' : View} {msg : Wire.Message}
    (h : ClientAt X installed c v) (htells : Tells X need v msg v')
    (hstep : c.step memoryStore (.recv (.event (eventOf msg))) = some c') :
    ClientAt X (installedBy installed need msg) c' v' ∨
      (∃ err, c'.phase = .ended err) ∧
        ∃ n, Kept X (installedBy installed need msg) c'.store c'.state n := by
  cases htells with
  | snapshotBegin n base =>
    obtain ⟨⟨cursor, heard, hp⟩, hkept, -⟩ := h
    rw [Sync.step_recv memoryStore hp] at hstep
    cases hstep
    refine .inl ⟨cursor, true, ∅, rfl, ?_, ?_, rfl⟩
    · show Kept X installed (c.setState false "").store (c.setState false "").state n
      rw [Sync.store_setState, Sync.state_setState]
      exact hkept.stale (.inr rfl)
    · show (c.setState false "").state.fresh = false
      rw [Sync.state_setState]
  | snapshotRows n rows new =>
    obtain ⟨cursor, heard, w, hp, hkept, hstale, hput⟩ := h
    rw [Sync.step_recv memoryStore hp] at hstep
    have happend := put_append X.primaryKey ∅ (rows.map convertValues) (new.map convertValues)
    rw [hput] at happend
    cases hnew : put X.primaryKey w (new.map convertValues) with
    | mk w' failure =>
      have hstore : memoryStore.put c.store w (new.map convertValues) = (c.store, w', failure) := by
        simp only [memoryStore, hkept.primaryKey, hnew]
      cases failure with
      | none =>
        simp only [eventOf, Sync.handle, hstore] at hstep
        cases hstep
        refine .inl ⟨cursor, true, w', rfl, hkept, hstale, ?_⟩
        rw [List.map_append, happend]
        exact hnew
      | some err =>
        simp only [eventOf, Sync.handle, hstore] at hstep
        cases hstep
        exact .inr ⟨⟨_, rfl⟩, n, hkept⟩
  | snapshotEnd n m rows snap hneed htaken =>
    obtain ⟨cursor, heard, w, hp, hkept, hstale, hput⟩ := h
    rw [Sync.step_recv memoryStore hp] at hstep
    cases hstep
    have hinstalled : installedBy installed need .snapshotEnd = some snap := by rw [hneed]; rfl
    rw [List.map_map] at hput
    rw [hinstalled]
    exact .inl ⟨⟨cursor, true, rfl⟩, hkept.commit hX htaken hput hstale, fun _ hs => hs⟩
  | batch n i base t hi hle hquiet =>
    obtain ⟨⟨cursor, heard, hp⟩, hkept, hbase⟩ := h
    obtain ⟨store', happly, hkept'⟩ := hkept.apply hX hi hle hquiet
    have hstore : memoryStore.apply c.store (received X.srv (X.part t)) = (store', none) := happly
    rw [eventOf_convertBatch, Sync.step_recv memoryStore hp] at hstep
    simp only [Sync.handle, hstore] at hstep
    cases hstep
    exact .inl ⟨⟨cursor, true, rfl⟩, hkept', hbase⟩
  | progress n base pos hc hquiet hahead =>
    obtain ⟨⟨cursor, heard, hp⟩, hkept, hbase⟩ := h
    rw [Sync.step_recv memoryStore hp] at hstep
    cases hstep
    refine .inl ⟨⟨cursor, true, ?_⟩, ?_, hbase⟩
    · exact Sync.phase_setState ..
    · show Kept X installed (Sync.setState _ _ _).store (Sync.setState _ _ _).state _
      rw [Sync.store_setState, Sync.state_setState]
      refine hkept.saveCursor hc hquiet (hahead.imp_right ?_)
      rintro ⟨snap, hsnap, hcov⟩
      exact ⟨snap, hbase snap hsnap, hcov⟩
  | resync v reason =>
    obtain ⟨n, hkept⟩ := h.kept
    obtain ⟨cursor, heard, writer, hp⟩ := Sync.streaming_of_recv hstep
    rw [Sync.step_recv memoryStore hp] at hstep
    cases hstep
    refine .inl ⟨Sync.phase_ends .., n, ?_⟩
    cases writer <;> exact hkept

/-! ## Off the stream -/

/-- The steps of a client other than receiving an event and opening a stream. -/
def Label.offStream : Label → Bool
  | .open_ _ | .recv (.event _) => false
  | _ => true

theorem Sync.recover_keeps {σ ω : Type} (s : Sync σ ω) (err : StreamError) (cancelled : Bool) :
    (s.recover err cancelled).store = s.store ∧ (s.recover err cancelled).state.fresh = false ∧
      ∀ cursor heard writer, (s.recover err cancelled).phase ≠ .streaming cursor heard writer := by
  obtain ⟨phase, backoff, snapshot, resyncs, heq, hphase⟩ := s.recover_eq err cancelled
  rw [heq]
  exact ⟨s.store_setState .., by rw [Sync.state_setState], hphase⟩

/-- Off the stream, a client keeps its store, and its state at most goes stale. -/
theorem Sync.step_offStream {l : Label} (hl : l.offStream = true)
    (h : c.step memoryStore l = some c') :
    c'.store = c.store ∧ (c'.state = c.state ∨ c'.state.fresh = false) ∧
      ∀ cursor heard writer, c'.phase ≠ .streaming cursor heard writer := by
  have hends : ∀ (writer : Option RowMap) (err : StreamError),
      (c.ends memoryStore writer err).store = c.store ∧
        ((c.ends memoryStore writer err).state = c.state ∨
          (c.ends memoryStore writer err).state.fresh = false) ∧
        ∀ cursor heard writer',
          (c.ends memoryStore writer err).phase ≠ .streaming cursor heard writer' := by
    intro writer err
    cases writer <;> exact ⟨rfl, .inl rfl, fun _ _ _ hphase => by cases hphase⟩
  cases Sync.step_cases h with
  | opens failure => cases hl
  | handles event => cases hl
  | eof => exact hends _ _
  | fails code => exact hends _ _
  | recovers cancelled =>
    obtain ⟨hstore, hstate, hphase⟩ := c.recover_keeps _ cancelled
    exact ⟨hstore, .inr hstate, hphase⟩
  | stops => exact ⟨rfl, .inl rfl, fun _ _ _ hphase => by cases hphase⟩
  | waits => exact ⟨rfl, .inl rfl, fun _ _ _ hphase => by cases hphase⟩

/-- A stream is opened with the stored cursor, unless a snapshot is forced. -/
theorem Sync.openStream_memoryStore (c : Sync MemoryStore RowMap) (failure : Option Code) :
    c.openStream memoryStore failure = { c with progressed := false }.watch memoryStore failure
      (if c.snapshot then "" else c.store.cursor) := by
  unfold Sync.openStream
  cases hsnapshot : c.snapshot <;> rfl

theorem Sync.step_open {failure : Option Code} (h : c.step memoryStore (.open_ failure) = some c') :
    c'.store = c.store ∧ c'.state = c.state ∧ ∀ cursor heard writer,
      c'.phase = .streaming cursor heard writer →
        writer = none ∧ cursor = if c.snapshot then "" else c.store.cursor := by
  cases Sync.step_cases h with
  | opens _ hphase =>
    rw [Sync.openStream_memoryStore]
    cases failure with
    | some code => exact ⟨rfl, rfl, nofun⟩
    | none =>
      refine ⟨rfl, rfl, fun cursor heard writer hp => ?_⟩
      cases hp
      exact ⟨rfl, rfl⟩

end Client

end Watchd.Sdk
