import Watchd.Cdc.Primitives

/-!
# Where the rows end and the stream begins

`Snapshot` and `Bootstrap` return rows together with the position from which the
stream takes over.  Whatever happens on the server while they run, the rows are
those of one set of transactions, `Covers` tells which, and the other commits are
in the stream.  A bootstrap that fails takes back what it has set up.

* `snapshot_boundary`: the rows of a snapshot are those of the commits it covers,
  and of the others the stream lacks only those on record when the position was
  read whose transactions had yet to finish;
* `bootstrap_boundary`: the same for a bootstrap, whose stream starts at its slot;
* `bootstrap_clean`: a failed bootstrap leaves nothing behind, or says so;
* `requireSlot_resumable`, `dropSlotForBudget_gone`: what the stream may resume
  from, and that a dropped slot is gone.
-/

namespace Watchd.Cdc

open Watchd.Lib

/-- How the stream of a source presents a commit. -/
structure CommitRecord.StreamedAs (c : CommitRecord) (sourceID : String) (t : Transaction) :
    Prop where
  sourceID_eq : t.cursor.sourceID = sourceID
  commitLSN_eq : t.commitLSN = c.lsn
  xid_eq : t.xid = c.xid.toUInt32

section Streamed

variable {sourceID : String} {v : Visibility} {c : CommitRecord} {t : Transaction}

theorem covers_newSnapshot (cursor : Nat) (ht : c.StreamedAs sourceID t) (hv : v.Bounded)
    (hnear : v.Near c.xid) :
    ∃ b, (Session.newSnapshot sourceID cursor v).covers t = .ok b ∧ (b = true ↔ v.Sees c.xid) := by
  refine ⟨v.includes t.xid, ?_, ?_⟩
  · unfold Snapshot.covers Session.newSnapshot
    dsimp only
    rw [if_neg (not_not.2 ht.sourceID_eq)]
  · rw [ht.xid_eq]
    exact Visibility.includes_iff_sees hv hnear

theorem after_newSnapshot {cursor : Nat} (ht : c.StreamedAs sourceID t) :
    t.after (Session.newSnapshot sourceID cursor v).cursor = .ok (decide (cursor ≤ c.lsn)) := by
  unfold Transaction.after Session.newSnapshot
  dsimp only
  rw [if_neg (not_not.2 ht.sourceID_eq), ht.commitLSN_eq]

end Streamed

theorem validateSourceProjectionSpec_sourceID {config : FullReaderConfig} {spec : ProjectionSpec}
    (h : Session.validateSourceProjectionSpec config spec = .ok ()) :
    spec.sourceID = config.sourceID := by
  obtain ⟨_, -, h⟩ := bind_eq_ok.1 h
  by_contra hne
  rw [if_pos hne] at h
  cases h

section Snapshot

variable {κ : Type} [LinearOrder κ] {config : FullReaderConfig} {parseLSN : String → Option Nat}
  {spec : ProjectionSpec} {scope : Text} {table : ScopeTable κ} {own : Own} {m : PgServer}
  {fuel : Nat}

theorem currentWALInsertLSN_meets {conn : Nat} (hconn : conn ∈ own.conns)
    {F : GoError → World → Prop} :
    Meets (postgres config parseLSN spec scope table) (At own m)
      (Session.call (.currentWALInsertLSN conn))
      (fun answer w => ∃ now, (m.Evolves now ∧ ∀ text lsn, answer = .ok text →
        parseLSN text = some lsn → lsn = now.walEnd) ∧ At own now w) F := by
  refine meets_call fun now hnow => ⟨hconn, fun answer w' hr => ?_⟩
  obtain ⟨rfl, hlsn⟩ := hr
  exact ⟨now, ⟨hnow, hlsn⟩, .here own now⟩

/-- The slot still retains everything from the cursor on. -/
def Retains (parseLSN : String → Option Nat) (m : PgServer) (cursor : Nat) : Prop :=
  ∃ slot restartLSN, m.slot = some slot ∧ parseLSN slot.state.restartLSN = some restartLSN ∧
    restartLSN ≤ cursor

theorem checkReplayWindow_meets {conn cursor : Nat} (hconn : conn ∈ own.conns) :
    Meets (postgres config parseLSN spec scope table) (At own m)
      (Session.checkReplayWindow parseLSN conn cursor)
      (fun _ w => ∃ now, (m.Evolves now ∧ Retains parseLSN now cursor) ∧ At own now w)
      (fun _ => At own m) := by
  refine Meets.bind (lookupSlot_meets hconn) fun found => Meets.of_exists fun now => ?_
  refine Meets.of_fact fun hnow => Meets.of_fact fun hfound => ?_
  cases found with
  | none => exact Meets.throw fun _ hw => hw.since hnow
  | some state =>
    refine Meets.bind (Q := fun lsn w => parseLSN state.restartLSN = some lsn ∧ At own now w)
      (slotLSN_meets.conseq (fun _ h => h) (fun _ _ h => h) fun _ _ hw => hw.since hnow)
      fun restartLSN => Meets.of_fact fun hrestart => ?_
    refine Meets.guard (fun _ hw => hw.since hnow) fun hle => Meets.pure fun _ hw => ?_
    cases hslot : now.slot with
    | none =>
      rw [hslot] at hfound
      cases hfound
    | some slot =>
      rw [hslot] at hfound
      cases hfound
      exact ⟨now, ⟨hnow, slot, restartLSN, hslot, hrestart, Nat.not_lt.1 hle⟩, hw⟩

/-- What `Snapshot` has done: the cursor is the end of the WAL at one moment, the rows are those of
a later one, and the slot still retains the cursor at one later yet. -/
def SnapshotTaken (parseLSN : String → Option Nat) (table : ScopeTable κ) (sourceID : String)
    (own : Own) (m : PgServer) (snapshot : Snapshot) (w : World) : Prop :=
  ∃ start fixed checked v batches shape,
    (m.Evolves start ∧ start.Evolves fixed ∧ fixed.Evolves checked) ∧
    (v.Bounded ∧ ∀ xid, v.Sees xid ↔ xid ∈ fixed.finished) ∧
    batches.flatten = table.scanned fixed.finished ∧ Retains parseLSN checked start.walEnd ∧
    snapshot = Session.newSnapshot sourceID start.walEnd v ∧
    At ((own.recorded shape).gave batches) checked w

theorem snapshotWith_meets {sink : SnapshotRowSink} (hconfig : config.Admitted)
    (htx : own.tx = none) (hfuel : ∀ sees, (table.rows sees).length < fuel) :
    Meets (postgres config parseLSN spec scope table) (At own m)
      (Session.snapshotWith config parseLSN spec scope sink fuel)
      (SnapshotTaken parseLSN table config.sourceID own m)
      (fun _ w => w.own.conns = own.conns) := by
  unfold Session.snapshotWith
  cases hspec : Session.validateSourceProjectionSpec config spec with
  | error err => exact Meets.throw fun w hw => by rw [hw.1]
  | ok _ =>
    have hsource := validateSourceProjectionSpec_sourceID hspec
    refine withManagement_meets (fun conn hnew => ?_) fun _ w hw => by rw [hw.1]
    have hmem : conn ∈ (own.opened conn).conns := Finset.mem_insert_self ..
    -- whatever fails, the connections are those of before once this one is closed
    have hfail : ∀ (own' : Own) (m' : PgServer) (w : World), own'.conns = insert conn own.conns →
        At own' m' w → Closed conn (fun w => w.own.conns = own.conns) w := by
      intro own' m' w hconns hw now _
      show w.own.conns.erase conn = own.conns
      rw [hw.1, hconns, Finset.erase_insert hnew]
    refine Meets.bind ((validatePublication_meets hmem).conseq (fun _ h => h) (fun _ _ h => h)
      fun _ w hw => hfail _ m w rfl hw) fun _ => ?_
    refine Meets.bind ((validateProjectionSpec_meets hmem).conseq (fun _ h => h) (fun _ _ h => h)
      fun _ w hw => hfail _ m w rfl hw) fun _ => ?_
    refine Meets.of_exists fun _ => Meets.of_exists fun _ => Meets.of_exists fun shape => ?_
    refine Meets.of_fact fun _ => ?_
    have hrecorded : conn ∈ ((own.opened conn).recorded shape).conns := hmem
    refine Meets.bind ((lookupSlot_meets hrecorded).conseq (fun _ h => h) (fun _ _ h => h)
      fun _ w hw => hfail _ m w rfl hw) fun found => ?_
    refine Meets.of_exists fun looked => Meets.of_fact fun hlooked => Meets.of_fact fun _ => ?_
    cases found with
    | none => exact Meets.throw fun w hw => hfail _ looked w rfl hw
    | some state =>
      refine Meets.guard (fun w hw => hfail _ looked w rfl hw) fun _ => ?_
      refine Meets.bind (currentWALInsertLSN_meets hrecorded) fun answer => ?_
      refine Meets.of_exists fun start => Meets.of_fact fun hread => ?_
      obtain ⟨hstart, hcursor⟩ := hread
      cases answer with
      | error failure => exact Meets.throw fun w hw => hfail _ start w rfl hw
      | ok text =>
        rw [classified_ok_bind]
        cases hlsn : parseLSN text with
        | none => exact Meets.throw fun w hw => hfail _ start w rfl hw
        | some cursor =>
          have hcursor_eq := hcursor text cursor rfl hlsn
          subst hcursor_eq
          have hidle : ((own.opened conn).recorded shape).tx = none := htx
          have hfresh : ((own.opened conn).recorded shape).CanImport "" none := rfl
          refine Meets.bind ((readSnapshot_meets hrecorded hidle hfresh
            hconfig.bounds.2.2.2.1 hfuel).conseq (fun _ h => h) (fun _ _ h => h) ?_) fun v => ?_
          · rintro e w ⟨batches, hw⟩
            exact hfail _ start w rfl hw
          · refine Meets.of_exists fun fixed => Meets.of_exists fun batches => ?_
            refine Meets.of_fact fun hfixed => Meets.of_fact fun hbounded => ?_
            refine Meets.of_fact fun hsees => Meets.of_fact fun hrows => ?_
            have hgave : conn ∈ (((own.opened conn).recorded shape).gave batches).conns := hmem
            refine Meets.bind ((checkReplayWindow_meets hgave).conseq (fun _ h => h)
              (fun _ _ h => h)
              fun _ w hw => hfail _ fixed w rfl hw) fun _ => ?_
            refine Meets.of_exists fun checked => Meets.of_fact fun hwindow => ?_
            obtain ⟨hchecked, hretains⟩ := hwindow
            refine Meets.pure fun w hw => hw.closed fun w' hw' => ?_
            refine ⟨start, fixed, checked, v, batches, shape,
              ⟨hlooked.trans hstart, hfixed, hchecked⟩, ⟨hbounded, hsees⟩, hrows, hretains,
              by rw [hsource], ?_⟩
            have hown : ({ ((own.opened conn).recorded shape).gave batches with
                conns := (insert conn own.conns).erase conn } : Own) =
                (own.recorded shape).gave batches := by
              rw [Finset.erase_insert hnew]
              rfl
            exact hown ▸ hw'

/-- The transaction is one that the snapshot's `Covers` can name. -/
def Snapshot.Names (snapshot : Snapshot) (xid : UInt64) : Prop :=
  ∀ v, snapshot.visibility = some v → v.Near xid

/-- **The rows of a snapshot and the stream meet without a gap.**  The cursor is the end of the WAL
when it was read, the rows are those of the transactions that had finished at a later moment, and
from then on `Covers` says of every commit whether its transaction is one of these.  A commit that
is not covered is in the stream from the cursor on, unless its record was there when the cursor was
read and the transaction still running when the rows were fixed.  The slot still retained the cursor
afterwards, and whatever the outcome no connection is left open. -/
theorem snapshot_boundary (hconfig : config.Admitted) (htx : own.tx = none)
    (hfuel : ∀ sees, (table.rows sees).length < fuel) (sink : Option SnapshotRowSink) :
    Meets (postgres config parseLSN spec scope table) (At own m)
      (Session.snapshot config parseLSN spec scope fuel sink)
      (fun snapshot w => ∃ start fixed checked batches,
        (m.Evolves start ∧ start.Evolves fixed ∧ fixed.Evolves checked ∧
          checked.Evolves w.server) ∧
        snapshot.cursor = ⟨config.sourceID, start.walEnd⟩ ∧
        w.own.delivered = own.delivered ++ batches ∧
        batches.flatten = table.scanned fixed.finished ∧
        Retains parseLSN checked snapshot.cursor.lsn ∧ w.own.conns = own.conns ∧
        ∀ later c t, fixed.Evolves later → c ∈ later.commits → snapshot.Names c.xid →
          c.StreamedAs config.sourceID t →
          ∃ b, snapshot.covers t = .ok b ∧ (b = true ↔ c.xid ∈ fixed.finished) ∧
            (b = false → t.after snapshot.cursor = .ok true ∨ c ∈ start.commits))
      (fun _ w => w.own.conns = own.conns) := by
  cases sink with
  | none => exact Meets.throw fun w hw => by rw [hw.1]
  | some sink =>
    refine (snapshotWith_meets hconfig htx hfuel).conseq (fun _ h => h) ?_ fun _ _ h => h
    rintro snapshot w ⟨start, fixed, checked, v, batches, shape, ⟨hstart, hfixed, hchecked⟩,
      ⟨hbounded, hsees⟩, hrows, hretains, rfl, hw⟩
    refine ⟨start, fixed, checked, batches, ⟨hstart, hfixed, hchecked, hw.2⟩, rfl, ?_, hrows,
      hretains, ?_, ?_⟩
    · rw [hw.1]
      rfl
    · rw [hw.1]
      rfl
    · intro later c t hlater hc hnames ht
      obtain ⟨b, hcovers, hb⟩ := covers_newSnapshot _ ht hbounded (hnames v rfl)
      refine ⟨b, hcovers, hb.trans (hsees c.xid), fun _ => ?_⟩
      rw [after_newSnapshot ht]
      rcases (hfixed.trans hlater).mem hc with hold | ⟨hle, -⟩
      · exact .inr hold
      · exact .inl (by rw [decide_eq_true hle])

end Snapshot

namespace Demo

/-- A table with the key of a tenant and a number. -/
def notesSpec : ProjectionSpec := ⟨"pg", "public", "notes", "tenant", ["tenant", "id"]⟩

/-- A reader with nothing but the required fields. -/
def notesConfig : FullReaderConfig :=
  normalizeReaderConfig (namesOnly "pg" "postgres://" "watchd" "watchd_pub")

theorem notesConfig_admitted : notesConfig.Admitted :=
  (newReader_eq_ok (newReader_namesOnly (by decide) (by decide) (by decide) (by decide))).2

/-- The table in the catalog. -/
def notesCatalog : Catalog where
  oid := 7
  identity := "d"
  attributes := [⟨"tenant", 25⟩, ⟨"id", 23⟩]
  attnames := ["tenant", "id"]
  replicaIndex := []
  names_nodup := by decide

/-- The one row of the tenant. -/
def note : List (Option Text) := [some [116], some [5]]

/-- The order of the rows: by their numbers. -/
def noteKey : List (Option Text) → Nat
  | _ :: some [id] :: _ => id.toNat
  | _ => 0

/-- The same for the texts of a key. -/
def readsNote : List Text → Option Nat
  | [_, [id]] => some id.toNat
  | _ => none

/-- Transaction 7 wrote the only note. -/
noncomputable def notes : ScopeTable Nat where
  fields := ["tenant", "id"]
  rows sees := open Classical in if 7 ∈ sees then [note] else []
  key := noteKey
  reads := readsNote

theorem notes_rows_length (sees : Set UInt64) : (notes.rows sees).length < 5 := by
  unfold notes
  dsimp only
  split
  · decide
  · decide

/-- The transaction of a reader that sees the note. -/
def notesTx : Tx where
  sanitize parts := ".".intercalate (parts.map fun part => "\"" ++ part ++ "\"")
  query _
    | [.text _, .int n] => .ok { fields := ["tenant", "id"], rows := [note].take n }
    | [.text _, .text _, .text [id], .int n] =>
      .ok
        { fields := ["tenant", "id"]
          rows := ([note].filter fun row => decide (id.toNat < noteKey row)).take n }
    | _ => .error (.sentinel .postgresServer)

theorem notesTx_answers {sees : Set UInt64} (h : 7 ∈ sees) (scope : Text) (batchRows : Nat) :
    Answers notesTx notesSpec scope batchRows notes.fields (notes.rows sees) notes.key
      notes.reads := by
  have hrows : notes.rows sees = [note] := if_pos h
  have hone : ∀ p, inKeyOrder notes.key ([note].filter p) = [note].filter p := by
    intro p
    unfold inKeyOrder
    rw [List.filter_singleton]
    cases p note with
    | true => exact List.mergeSort_singleton _
    | false => exact List.mergeSort_nil
  rw [hrows]
  refine ⟨by decide, ?_, ?_, ?_⟩
  · intro row hrow
    cases List.mem_singleton.1 hrow
    exact ⟨_, rfl, rfl⟩
  · unfold inKeyOrder
    rw [List.mergeSort_singleton]
    rfl
  · intro texts k hreads
    change readsNote texts = some k at hreads
    unfold readsNote at hreads
    split at hreads
    · cases hreads
      rw [hone]
      rfl
    · cases hreads

/-- A session that holds nothing yet. -/
def session : Own := ⟨∅, none, none, false, false, none, none, [], [], 3⟩

/-- A server where transaction 7 has committed and nothing is running. -/
def idle (slot : Option ServerSlot) : PgServer where
  walEnd := 100
  commits := [⟨50, 7⟩]
  finished := {xid | xid < 8}
  slot := slot
  written := by simp

/-- The slot as the server reports it. -/
def slotState : SlotState := ⟨"logical", "pgoutput", true, "0/64", "0/64"⟩

/-- Reads the one position of the run. -/
def readLSN (text : String) : Option Nat := if text = "0/64" then some 100 else none

/-- The server of these runs. -/
noncomputable def server : Environment Call Answer World :=
  postgres notesConfig readLSN notesSpec [116] notes

/-- A step in which the server stays as it is. -/
theorem step {α : Type} {w w' : World} {a : α} (c : Call) (r : Answer c)
    {next : Answer c → Dialogue Call Answer α}
    (hreply : Replies notesConfig readLSN notesSpec [116] notes w c r w')
    (hrest : ∃ w'', Dialogue.Runs server w' (next r) a w'') :
    ∃ w'', Dialogue.Runs server w (.call c next) a w'' :=
  Dialogue.exists_runs_call c r ⟨rfl, .refl _⟩ hreply hrest

theorem sees_iff {v : Visibility} (h : parseVisibility "8:8:" = .ok v) (xid : UInt64) :
    v.Sees xid ↔ xid ∈ (idle none).finished := by
  have hread : parseVisibility "8:8:" = .ok ⟨8, 8, ∅⟩ := by decide
  cases h.symm.trans hread
  simp [Visibility.Sees, idle]

theorem snapshot_runs : ∃ w', Dialogue.Runs server ⟨idle (some ⟨slotState, false⟩), session⟩
    (Session.snapshot notesConfig readLSN notesSpec [116] 5 (some fun _ _ => none)).run
    (.ok (Session.newSnapshot "pg" 100 ⟨8, 8, ∅⟩)) w' := by
  refine step (.connect .management) (.ok 1) ⟨by simp [session], rfl⟩ ?_
  refine step (.publication 1) (.ok (some ⟨true, true, true, false⟩)) rfl ?_
  refine step (.projectionTable 1) (.ok (true, true)) rfl ?_
  refine step (.primaryKey 1) (.ok ["tenant", "id"]) rfl ?_
  refine step (.published 1) (.ok true) rfl ?_
  refine step (.shape 1) (fun _ => none, notesCatalog) rfl ?_
  refine step (.record _) () rfl ?_
  refine step (.slot 1) (.ok (some slotState)) ⟨rfl, fun _ h => by cases h; rfl⟩ ?_
  refine step (.currentWALInsertLSN 1) (.ok "0/64") ⟨rfl, ?_⟩ ?_
  · rintro _ lsn ⟨⟩ h
    cases h
    rfl
  refine step (.beginTx 1) (.ok ()) rfl ?_
  refine step (.currentSnapshot 1) (.ok "8:8:")
    ⟨_, .inr ⟨rfl, rfl⟩, rfl, fun v hv => sees_iff hv⟩ ?_
  refine step (.scan 1) notesTx
    ⟨rfl, _, _, rfl, notesTx_answers (by decide : (7 : UInt64) < 8) _ _, rfl,
      fun _ _ => .inr (.inr rfl)⟩ ?_
  refine step (.deliver _) () rfl ?_
  refine step (.commitTx 1) (.ok ()) rfl ?_
  refine step (.rollbackTx 1) () rfl ?_
  refine step (.slot 1) (.ok (some slotState)) ⟨rfl, fun _ h => by cases h; rfl⟩ ?_
  refine step (.close 1) () rfl ?_
  exact ⟨_, .pure _ _⟩

end Demo

theorem snapshot_boundary_run :
    ∃ w', Dialogue.Runs Demo.server ⟨Demo.idle (some ⟨Demo.slotState, false⟩), Demo.session⟩
        (Session.snapshot Demo.notesConfig Demo.readLSN Demo.notesSpec [116] 5
          (some fun _ _ => none)).run
        (.ok (Session.newSnapshot "pg" 100 ⟨8, 8, ∅⟩)) w' ∧
      w'.own.conns = ∅ ∧ ∃ fixed : PgServer, fixed.Evolves w'.server ∧
        w'.own.delivered.flatten = Demo.notes.scanned fixed.finished := by
  obtain ⟨w', hrun⟩ := Demo.snapshot_runs
  have hmeets : Meets Demo.server (At Demo.session (Demo.idle (some ⟨Demo.slotState, false⟩)))
      (Session.snapshot Demo.notesConfig Demo.readLSN Demo.notesSpec [116] 5 (some fun _ _ => none))
      _ _ := snapshot_boundary Demo.notesConfig_admitted rfl Demo.notes_rows_length _
  obtain ⟨start, fixed, checked, batches, ⟨-, -, hchecked, hlast⟩, -, hdelivered, hrows, -, hconns,
    -⟩ := (hmeets _ (.here _ _)).of_runs hrun
  refine ⟨w', hrun, hconns, fixed, hchecked.trans hlast, ?_⟩
  rw [hdelivered]
  exact hrows

/-! ## Bootstrap -/

section Bootstrap

variable {κ : Type} [LinearOrder κ] {config : FullReaderConfig} {parseLSN : String → Option Nat}
  {spec : ProjectionSpec} {scope : Text} {table : ScopeTable κ} {own : Own} {m : PgServer}
  {fuel : Nat}

/-- The session's side once its slot is confirmed. -/
def Own.withSlot (own : Own) (stream : Nat) (name : String) (sees : Set UInt64) : Own :=
  { own with exported := some ⟨stream, name, sees⟩, slotCreated := true }

theorem createBootstrapSlot_meets {stream management : Nat} (hstream : stream ∈ own.conns)
    (hmanagement : management ∈ own.conns) (hfirst : own.slotCreated = false) :
    Meets (postgres config parseLSN spec scope table) (At own m)
      (Session.createBootstrapSlot stream management)
      (fun slot w => ∃ before created sees,
        (m.Evolves before ∧ SlotCreated parseLSN before created slot.1 sees ∧ slot.2 ≠ "") ∧
        At (own.withSlot stream slot.2 sees) created w)
      (fun _ w => At own m w ∨ w.own = { own with inDoubt := true }) := by
  refine Meets.bind ((lookupSlot_meets hmanagement).conseq (fun _ h => h) (fun _ _ h => h)
    fun _ _ hw => .inl hw) fun found => ?_
  refine Meets.of_exists fun looked => Meets.of_fact fun hlooked => Meets.of_fact fun _ => ?_
  cases found with
  | some _ => exact Meets.throw fun _ hw => .inl (hw.since hlooked)
  | none =>
    refine Meets.bind (Q := Either (fun slot w => ∃ before created sees,
        (m.Evolves before ∧ SlotCreated parseLSN before created slot.1 sees ∧ slot.2 ≠ "") ∧
        At (own.withSlot stream slot.2 sees) created w)
      fun _ w => At own m w ∨ w.own = { own with inDoubt := true })
      (meets_call fun now hnow => ⟨⟨hstream, hfirst⟩, ?_⟩) ?_
    · rintro (failure | slot) w' hr
      · cases failure with
        | pg sqlState message text =>
          cases hr
          exact .inl ⟨rfl, hlooked.trans hnow⟩
        | other err =>
          rcases hr with rfl | ⟨-, hown⟩
          · exact .inl ⟨rfl, hlooked.trans hnow⟩
          · exact .inr hown
      · obtain ⟨sees, hcreated, hname, hown⟩ := hr
        exact ⟨now, w'.server, sees, ⟨hlooked.trans hnow, hcreated, hname⟩, hown, .refl _⟩
    · rintro (failure | slot)
      · exact Meets.guard (fun _ hw => hw) fun _ => Meets.throw fun _ hw => hw
      · exact Meets.pure fun _ hw => hw

theorem PgServer.Evolves.dropped (m : PgServer) : m.Evolves { m with slot := none } := by
  refine ⟨Nat.le_refl _, ⟨[], (List.append_nil _).symm, fun _ hc => absurd hc List.not_mem_nil⟩,
    fun _ hx => hx, ?_⟩
  rintro ⟨slot, hslot, -⟩
  cases hslot

/-- The answers to dropping a slot that say that it is gone. -/
def SaysGone (answer : Option Failure) : Prop :=
  answer = none ∨ ∃ message text, answer = some (.pg "42704" message text)

theorem dropping_outcome {m m' : PgServer} {answer : Option Failure} (h : Dropping m m' answer) :
    m.Evolves m' ∧ (SaysGone answer → m'.slot = none) := by
  match answer, h with
  | none, h =>
    cases h
    exact ⟨.dropped m, fun _ => rfl⟩
  | some (.pg sqlState message text), ⟨hsame, hundefined⟩ =>
    cases hsame
    refine ⟨.refl m, ?_⟩
    rintro (hnone | ⟨message', text', hpg⟩)
    · cases hnone
    · cases hpg
      exact hundefined rfl
  | some (.other err), h =>
    refine ⟨?_, ?_⟩
    · rcases h with rfl | rfl
      · exact .refl m'
      · exact .dropped m
    · rintro (hnone | ⟨message', text', hpg⟩)
      · cases hnone
      · cases hpg

/-- A session that has its slot, and failed. -/
structure Stranded (own : Own) (w : World) : Prop where
  conns : w.own.conns = own.conns
  handed : w.own.handed = own.handed
  tx : w.own.tx = none
  slotCreated : w.own.slotCreated = true

theorem Stranded.of_at {own own' : Own} {m : PgServer} {w : World} (hw : At own' m w)
    (hconns : own'.conns = own.conns) (hhanded : own'.handed = own.handed) (htx : own'.tx = none)
    (hslot : own'.slotCreated = true) : Stranded own w := by
  obtain ⟨rfl, -⟩ := hw
  exact ⟨hconns, hhanded, htx, hslot⟩

theorem Stranded.drift {w w' : World} (h : Stranded own w) (hdrift : w.Drifts w') :
    Stranded own w' := by
  obtain ⟨hown, -⟩ := hdrift
  exact ⟨by rw [hown, h.conns], by rw [hown, h.handed], by rw [hown, h.tx],
    by rw [hown, h.slotCreated]⟩

/-- Dropping the slot closes the stream first, and reports no error only if the slot is gone. -/
theorem dropSlot_ensures {stream : Nat} {w : World} (h : Stranded own w) :
    (Session.dropSlot stream).Ensures (postgres config parseLSN spec scope table)
      (fun failed w' => Stranded { own with conns := own.conns.erase stream } w' ∧
        (failed = none → ¬w'.server.HasOurs)) w := by
  intro w₁ hdrift
  have h₁ := h.drift hdrift
  refine ⟨trivial, fun _ w₂ hr => ?_⟩
  cases hr
  have h₂ : Stranded { own with conns := own.conns.erase stream }
      ⟨w₁.server, { w₁.own with conns := w₁.own.conns.erase stream }⟩ :=
    ⟨by rw [h₁.conns], h₁.handed, h₁.tx, h₁.slotCreated⟩
  intro w₃ hdrift
  have h₃ := h₂.drift hdrift
  refine ⟨trivial, ?_⟩
  rintro (failure | cleanup) w₄ hr
  · cases hr
    exact ⟨h₃, fun hnone => by cases hnone⟩
  · obtain ⟨hnew, rfl⟩ := hr
    have hconns := h₃.conns
    -- the drop, on the new connection
    intro w₅ hdrift
    have hown : w₅.own = { w₃.own with conns := insert cleanup w₃.own.conns } := hdrift.1
    refine ⟨⟨?_, ?_⟩, ?_⟩
    · rw [hown]
      exact Finset.mem_insert_self ..
    · rw [hown]
      exact h₃.slotCreated
    · rintro failed w₆ ⟨hown₆, hdrop⟩
      intro w₇ hdrift
      refine ⟨trivial, fun _ w₈ hr => ?_⟩
      cases hr
      have hown₇ : w₇.own = { w₃.own with conns := insert cleanup w₃.own.conns } :=
        hdrift.1.trans (hown₆.trans hown)
      have h₈ : Stranded { own with conns := own.conns.erase stream }
          ⟨w₇.server, { w₇.own with conns := w₇.own.conns.erase cleanup }⟩ := by
        rw [hown₇]
        exact ⟨by rw [Finset.erase_insert hnew, hconns], h₃.handed, h₃.tx, h₃.slotCreated⟩
      have hkept : SaysGone failed → ¬w₇.server.HasOurs := by
        intro hword hours
        obtain ⟨slot, hslot, -⟩ := hdrift.2.slot hours
        have hdrop : Dropping w₅.server w₆.server failed := hdrop
        cases ((dropping_outcome hdrop).2 hword).symm.trans hslot
      match failed with
      | none => exact ⟨h₈, fun _ => hkept (.inl rfl)⟩
      | some (.other err) => exact ⟨h₈, fun hnone => by cases hnone⟩
      | some (.pg sqlState message text) =>
        show Dialogue.Ensures _ _ (if sqlState = "42704" then _ else _) _
        by_cases hstate : sqlState = "42704"
        · subst hstate
          rw [if_pos rfl]
          exact ⟨h₈, fun _ => hkept (.inr ⟨message, text, rfl⟩)⟩
        · rw [if_neg hstate]
          exact ⟨h₈, fun hnone => by cases hnone⟩

/-- The session's side once replication is started, which ends the exported snapshot. -/
def Own.streaming (own : Own) (stream lsn : Nat) : Own :=
  { own with exported := none, started := some (stream, lsn) }

/-- The session's side after a bootstrap. -/
def Own.bootstrapped (own : Own) (stream lsn : Nat) (batches : List (List ScannedRow)) : Own :=
  { (own.gave batches).streaming stream lsn with
    slotCreated := true, handed := some (stream, lsn) }

/-- The rows are those that the slot's snapshot sees, and the stream was started where it ends. -/
def ReadFromSlot (parseLSN : String → Option Nat) (table : ScopeTable κ) (sourceID : String)
    (own : Own) (stream : Nat) (created : PgServer) (point : String) (sees : Set UInt64)
    (snapshot : Snapshot) (w : World) : Prop :=
  ∃ lsn v batches, parseLSN point = some lsn ∧ (v.Bounded ∧ ∀ xid, v.Sees xid ↔ xid ∈ sees) ∧
    batches.flatten = table.scanned sees ∧ snapshot = Session.newSnapshot sourceID lsn v ∧
    At (own.bootstrapped stream lsn batches) created w

/-- What a bootstrap that fails after its slot was created has to undo. -/
def CleanedUp (own : Own) (stream : Nat) (e : GoError) (w : World) : Prop :=
  Stranded { own with conns := own.conns.erase stream } w ∧
    (w.server.HasOurs → ∃ err cleanupErr, e = Session.cleanupFailed err cleanupErr)

theorem readFromSlot_meets {sink : SnapshotRowSink} {stream management : Nat}
    {slot : String × String} {created : PgServer} {sees : Set UInt64}
    (hstream : stream ∈ own.conns) (hmanagement : management ∈ own.conns) (htx : own.tx = none)
    (hname : slot.2 ≠ "") (hbatch : 0 < config.snapshotBatchRows)
    (hfuel : ∀ sees, (table.rows sees).length < fuel) :
    Meets (postgres config parseLSN spec scope table)
      (At (own.withSlot stream slot.2 sees) created)
      (Session.readFromSlot config parseLSN spec scope sink fuel stream management slot)
      (ReadFromSlot parseLSN table spec.sourceID own stream created slot.1 sees)
      (CleanedUp own stream) := by
  have hmanagement' : management ∈ (own.withSlot stream slot.2 sees).conns := hmanagement
  have hidle : (own.withSlot stream slot.2 sees).tx = none := htx
  have himport : (own.withSlot stream slot.2 sees).CanImport slot.2 (some sees) :=
    ⟨hname, stream, hstream, rfl⟩
  refine Meets.deferring (Q := ReadFromSlot parseLSN table spec.sourceID own stream created slot.1
    sees) (F := fun _ => Stranded own) ?_ (fun _ _ h => h) ?_
  · cases hlsn : parseLSN slot.1 with
    | none => exact Meets.throw fun w hw => .of_at hw rfl rfl htx rfl
    | some lsn =>
      refine Meets.bind ((readSnapshot_meets hmanagement' hidle himport hbatch hfuel).conseq
        (fun _ h => h) (fun _ _ h => h) ?_) fun v => ?_
      · rintro e w ⟨batches, hw⟩
        exact .of_at hw rfl rfl htx rfl
      · refine Meets.of_exists fun fixed => Meets.of_exists fun batches => ?_
        refine Meets.of_fact fun hfixed => Meets.of_fact fun hbounded => ?_
        refine Meets.of_fact fun hsees => Meets.of_fact fun hrows => ?_
        let read := (own.withSlot stream slot.2 sees).gave batches
        refine Meets.bind (Q := Either (fun _ => At (read.streaming stream lsn) created)
          fun _ => Stranded own)
          (meets_call fun now hnow => ⟨⟨hstream, rfl⟩, ?_⟩) ?_
        · rintro (failure | _) w' hr
          · cases hr
            exact ⟨rfl, rfl, htx, rfl⟩
          · cases hr
            exact ⟨rfl, hfixed.trans hnow⟩
        · rintro (failure | _)
          · exact Meets.throw fun _ hw => hw
          · refine Meets.bind (Q := fun _ => At (read.streaming stream lsn) created)
              (Meets.pure fun _ hw => hw) fun _ => ?_
            refine Meets.bind (Q := fun _ => At (own.bootstrapped stream lsn batches) created)
              (meets_call fun now hnow => ⟨⟨hstream, rfl⟩, fun _ w' hr => ?_⟩) fun _ => ?_
            · cases hr
              exact ⟨rfl, hnow⟩
            · exact Meets.pure fun w hw => ⟨lsn, v, batches, hlsn, ⟨hbounded, hsees⟩,
                hrows, rfl, hw⟩
  · intro e w hw
    refine Dialogue.ensures_bind.2 ((dropSlot_ensures hw).mono ?_)
    rintro (_ | cleanupErr) w' ⟨hstranded, hgone⟩
    · exact ⟨hstranded, fun hours => absurd hours (hgone rfl)⟩
    · exact ⟨hstranded, fun _ => ⟨e, cleanupErr, rfl⟩⟩

/-- What a failed bootstrap has taken back: nothing is handed over, and there is no slot of its own
unless its error says so or the server never answered. -/
structure TakenBack (own : Own) (e : GoError) (w : World) : Prop where
  handed : w.own.handed = own.handed
  tx : w.own.tx = none
  slot : w.server.HasOurs → w.own.inDoubt = true ∨
    ∃ err cleanupErr, e = Session.cleanupFailed err cleanupErr

theorem TakenBack.drift {e : GoError} {w w' : World} (h : TakenBack own e w)
    (hdrift : w.Drifts w') : TakenBack own e w' := by
  obtain ⟨hown, hserver⟩ := hdrift
  refine ⟨by rw [hown, h.handed], by rw [hown, h.tx], fun hours => ?_⟩
  rw [hown]
  exact h.slot (hserver.slot hours)

/-- Before the slot is created there is nothing to take back. -/
theorem At.takenBack {own own' : Own} {w : World} (hw : At own' m w) (hnone : ¬m.HasOurs)
    (hhanded : own'.handed = own.handed) (htx : own'.tx = none) (e : GoError) :
    TakenBack own e w :=
  ⟨by rw [hw.1, hhanded], by rw [hw.1, htx], fun hours => absurd (hw.2.slot hours) hnone⟩

/-- A bootstrap that failed and has still to close its stream. -/
def Abandoned (own : Own) (stream : Nat) (e : GoError) (w : World) : Prop :=
  w.own.conns.erase stream = own.conns ∧ TakenBack own e w

theorem Abandoned.of_closed {stream management : Nat} {e : GoError} {w : World}
    (hconns : (w.own.conns.erase management).erase stream = own.conns) (h : TakenBack own e w) :
    Closed management (Abandoned own stream e) w :=
  fun _ hnow => ⟨hconns, h.handed, h.tx, fun hours => h.slot (hnow.slot hours)⟩

/-- The session that has its stream and its management connection. -/
theorem erase_both {stream management : Nat} (hstream : stream ∉ own.conns)
    (hmanagement : management ∉ (own.opened stream).conns) :
    ((((own.opened stream).opened management).conns).erase management).erase stream =
      own.conns := by
  show ((insert management (own.opened stream).conns).erase management).erase stream = own.conns
  rw [Finset.erase_insert hmanagement]
  exact Finset.erase_insert hstream

/-- What `Bootstrap` has done when it succeeds. -/
def BootstrapDone (parseLSN : String → Option Nat) (table : ScopeTable κ) (sourceID : String)
    (own : Own) (m : PgServer) (stream : Nat) (snapshot : Snapshot) (w : World) : Prop :=
  ∃ before created point sees shape,
    (m.Evolves before ∧ SlotCreated parseLSN before created point sees) ∧
    ReadFromSlot parseLSN table sourceID ((own.opened stream).recorded shape) stream created point
      sees snapshot w

theorem BootstrapDone.of_closed {stream management : Nat} {snapshot : Snapshot} {w : World}
    {before created : PgServer} {point sourceID : String} {sees : Set UInt64}
    {shape : RelationShape}
    (hmanagement : management ∉ (own.opened stream).conns)
    (hcreated : m.Evolves before ∧ SlotCreated parseLSN before created point sees)
    (h : ReadFromSlot parseLSN table sourceID (((own.opened stream).opened management).recorded
      shape) stream created point sees snapshot w) :
    Closed management (BootstrapDone parseLSN table sourceID own m stream snapshot) w := by
  obtain ⟨lsn, v, batches, hlsn, hv, hrows, hsnapshot, hw⟩ := h
  refine hw.closed fun w' hw' => ⟨before, created, point, sees, shape, hcreated, lsn, v, batches,
    hlsn, hv, hrows, hsnapshot, ?_⟩
  have hown : ({ (((own.opened stream).opened management).recorded shape).bootstrapped stream lsn
      batches with
      conns := (insert management (own.opened stream).conns).erase management } : Own) =
      ((own.opened stream).recorded shape).bootstrapped stream lsn batches := by
    rw [Finset.erase_insert hmanagement]
    rfl
  exact hown ▸ hw'

/-- The part of `Bootstrap` that has a management connection. -/
theorem bootstrapBody_meets {sink : SnapshotRowSink} {stream : Nat} (hconfig : config.Admitted)
    (hsource : spec.sourceID = config.sourceID) (hstream : stream ∉ own.conns)
    (htx : own.tx = none) (hfirst : own.slotCreated = false) (hnone : ¬m.HasOurs)
    (hfuel : ∀ sees, (table.rows sees).length < fuel) :
    Meets (postgres config parseLSN spec scope table) (At (own.opened stream) m)
      (Session.withManagement fun management => do
        Session.validatePublication config management
        Session.validateProjectionSpec config management spec
        let _ ← Session.call (.keepSize management)
        let slot ← Session.createBootstrapSlot stream management
        Session.readFromSlot config parseLSN spec scope sink fuel stream management slot)
      (BootstrapDone parseLSN table config.sourceID own m stream) (Abandoned own stream) := by
  refine withManagement_meets (fun management hmanagement => ?_) ?_
  · have hmem : management ∈ ((own.opened stream).opened management).conns :=
      Finset.mem_insert_self ..
    have hfail : ∀ (own' : Own) (e : GoError) (w : World),
        own'.conns = ((own.opened stream).opened management).conns → own'.handed = own.handed →
        own'.tx = none → At own' m w → Closed management (Abandoned own stream e) w := by
      intro own' e w hconns hhanded htx' hw
      refine Abandoned.of_closed ?_ (hw.takenBack hnone hhanded htx' e)
      rw [hw.1, hconns, erase_both hstream hmanagement]
    refine Meets.bind ((validatePublication_meets hmem).conseq (fun _ h => h) (fun _ _ h => h)
      fun e w hw => hfail _ e w rfl rfl htx hw) fun _ => ?_
    refine Meets.bind ((validateProjectionSpec_meets hmem).conseq (fun _ h => h) (fun _ _ h => h)
      fun e w hw => hfail _ e w rfl rfl htx hw) fun _ => ?_
    refine Meets.of_exists fun _ => Meets.of_exists fun _ => Meets.of_exists fun shape => ?_
    refine Meets.of_fact fun _ => ?_
    let opened := ((own.opened stream).opened management).recorded shape
    have hopened : management ∈ opened.conns := hmem
    have hstreamOpen : stream ∈ opened.conns :=
      Finset.mem_insert_of_mem (Finset.mem_insert_self ..)
    refine Meets.bind (meets_read (fun _ => hopened) fun _ _ _ h => h) fun _ => ?_
    refine Meets.bind ((createBootstrapSlot_meets hstreamOpen hopened hfirst).conseq
      (fun _ h => h) (fun _ _ h => h) ?_) fun slot => ?_
    · rintro e w (hw | hown)
      · exact hfail opened e w rfl rfl htx hw
      · refine Abandoned.of_closed ?_ ⟨by rw [hown]; rfl, by rw [hown]; exact htx,
          fun _ => .inl (by rw [hown])⟩
        rw [hown]
        exact erase_both hstream hmanagement
    · refine Meets.of_exists fun before => Meets.of_exists fun created => ?_
      refine Meets.of_exists fun sees => Meets.of_fact fun hslot => ?_
      obtain ⟨hbefore, hcreated, hname⟩ := hslot
      refine (readFromSlot_meets hstreamOpen hopened htx hname hconfig.bounds.2.2.2.1 hfuel).conseq
        (fun _ h => h) (fun snapshot w h => ?_) ?_
      · rw [hsource] at h
        exact .of_closed hmanagement ⟨hbefore, hcreated⟩ h
      · rintro e w ⟨hstranded, hslot⟩
        refine Abandoned.of_closed ?_ ⟨hstranded.handed, hstranded.tx, fun h => .inr (hslot h)⟩
        rw [hstranded.conns, Finset.erase_right_comm, Finset.erase_idem, Finset.erase_right_comm]
        exact erase_both hstream hmanagement
  · intro e w hw
    have hhanded : (own.opened stream).handed = own.handed := rfl
    refine ⟨?_, hw.takenBack hnone hhanded htx e⟩
    rw [hw.1]
    exact Finset.erase_insert hstream

theorem bootstrapWith_meets {sink : SnapshotRowSink} (hconfig : config.Admitted)
    (htx : own.tx = none) (hfirst : own.slotCreated = false) (hnone : ¬m.HasOurs)
    (hfuel : ∀ sees, (table.rows sees).length < fuel) :
    Meets (postgres config parseLSN spec scope table) (At own m)
      (Session.bootstrapWith config parseLSN spec scope sink fuel)
      (fun snapshot w => ∃ stream, stream ∉ own.conns ∧
        BootstrapDone parseLSN table config.sourceID own m stream snapshot w)
      (fun e w => w.own.conns = own.conns ∧ TakenBack own e w) := by
  have hearly : ∀ e w, At own m w → w.own.conns = own.conns ∧ TakenBack own e w :=
    fun e w hw => ⟨by rw [hw.1], hw.takenBack hnone rfl htx e⟩
  unfold Session.bootstrapWith
  cases hspec : Session.validateSourceProjectionSpec config spec with
  | error err => exact Meets.throw fun w hw => hearly err w hw
  | ok _ =>
    refine Meets.bind (connect_meets.conseq (fun _ h => h) (fun _ _ h => h) hearly) fun stream => ?_
    refine Meets.of_fact fun hstream => ?_
    refine Meets.deferring (bootstrapBody_meets hconfig
      (validateSourceProjectionSpec_sourceID hspec) hstream htx hfirst hnone hfuel)
      (fun snapshot w h => ⟨stream, hstream, h⟩) ?_
    rintro e w ⟨hconns, h⟩ w₁ hdrift
    have h₁ := h.drift hdrift
    refine ⟨trivial, fun _ w₂ hr => ?_⟩
    cases hr
    refine ⟨?_, h₁.handed, h₁.tx, h₁.slot⟩
    show w₁.own.conns.erase stream = own.conns
    rw [hdrift.1, hconns]

/-- **A bootstrap's rows and its stream share the commits between them.**  The slot was created, the
rows are those that its exported snapshot sees, and of every commit, then and later, either `Covers`
says that it is in the rows or `After` that the stream from the cursor on has it, never both.
The stream handed over to `Run` was started at the cursor, on a connection that is the only one left
open. -/
theorem bootstrap_boundary (hconfig : config.Admitted) (htx : own.tx = none)
    (hfirst : own.slotCreated = false) (hnone : ¬m.HasOurs)
    (hfuel : ∀ sees, (table.rows sees).length < fuel) (sink : Option SnapshotRowSink) :
    Meets (postgres config parseLSN spec scope table) (At own m)
      (Session.bootstrap config parseLSN spec scope fuel sink)
      (fun snapshot w => ∃ (stream : Nat) (created : PgServer) (sees : Set UInt64)
          (batches : List (List ScannedRow)),
        (created.HasOurs ∧ created.Evolves w.server) ∧
        (stream ∉ own.conns ∧ w.own.conns = insert stream own.conns ∧
          w.own.started = some (stream, snapshot.cursor.lsn) ∧
          w.own.handed = some (stream, snapshot.cursor.lsn)) ∧
        (w.own.delivered = own.delivered ++ batches ∧ batches.flatten = table.scanned sees) ∧
        ∀ later c t, created.Evolves later → c ∈ later.commits → snapshot.Names c.xid →
          c.StreamedAs config.sourceID t →
          ∃ b, snapshot.covers t = .ok b ∧ t.after snapshot.cursor = .ok (!b) ∧
            (b = true ↔ c.xid ∈ sees))
      (fun _ _ => True) := by
  cases sink with
  | none => exact Meets.throw fun _ _ => trivial
  | some sink =>
    refine (bootstrapWith_meets hconfig htx hfirst hnone hfuel).conseq (fun _ h => h) ?_
      fun _ _ _ => trivial
    rintro snapshot w ⟨stream, hstream, before, created, point, sees, shape, ⟨-, hcreated⟩, lsn, v,
      batches, hlsn, ⟨hbounded, hsees⟩, hrows, rfl, hw⟩
    obtain ⟨state, -, hslot⟩ := hcreated.evolves
    refine ⟨stream, created, sees, batches, ⟨⟨_, hslot, rfl⟩, hw.2⟩, ?_, ⟨?_, hrows⟩, ?_⟩
    · rw [hw.1]
      exact ⟨hstream, rfl, rfl, rfl⟩
    · rw [hw.1]
      rfl
    · intro later c t hlater hc hnames ht
      obtain ⟨b, hcovers, hb⟩ := covers_newSnapshot lsn ht hbounded (hnames v rfl)
      refine ⟨b, hcovers, ?_, hb.trans (hsees c.xid)⟩
      have hbefore : c.xid ∈ sees ↔ c.lsn < lsn := by
        rcases hlater.mem hc with hold | ⟨hle, hdecided⟩
        · exact hcreated.sees_iff lsn hlsn c hold
        · -- a later commit is behind the consistent point, and not in the snapshot
          have hwithin := hcreated.within lsn hlsn
          constructor
          · intro hmem
            exact absurd (hcreated.decided c.xid hmem) hdecided
          · intro hlt
            omega
      rw [after_newSnapshot ht]
      rw [hsees, hbefore] at hb
      cases b with
      | true => simp [Nat.not_le.2 (hb.1 rfl)]
      | false =>
        have hle : lsn ≤ c.lsn := Nat.not_lt.1 fun hlt => Bool.noConfusion (hb.2 hlt)
        simp [hle]

namespace Demo

theorem idle_not_hasOurs : ¬(idle none).HasOurs := by
  rintro ⟨slot, hslot, -⟩
  cases hslot

/-- The name of the exported snapshot. -/
def exportedName : String := "00000003-0000001B-1"

/-- The session's side once its slot is there. -/
def withNewSlot (own : Own) : Own :=
  { own with exported := some ⟨1, exportedName, {xid | xid < 8}⟩, slotCreated := true }

theorem createSlot_reply (own : Own) :
    Replies notesConfig readLSN notesSpec [116] notes ⟨idle none, own⟩ (.createSlot 1)
      (.ok ("0/64", exportedName)) ⟨idle (some ⟨slotState, true⟩), withNewSlot own⟩ := by
  refine ⟨{xid | xid < 8}, ⟨⟨slotState, .refl _, rfl⟩, ?_, ?_, fun _ hx => .inl hx⟩, by decide, rfl⟩
  · rintro lsn h
    cases h
    exact Nat.le_refl _
  · rintro lsn h c hc
    cases h
    cases List.mem_singleton.1 hc
    decide

theorem dropped_reply (own : Own) :
    Replies notesConfig readLSN notesSpec [116] notes ⟨idle (some ⟨slotState, true⟩), own⟩
      (.dropReplicationSlot 3) none ⟨idle none, own⟩ :=
  ⟨rfl, rfl⟩

/-- What is left of a bootstrap when its slot is there. -/
def afterSlot (sink : SnapshotRowSink) : Session Snapshot :=
  deferring
    (deferring
      (Session.readFromSlot notesConfig readLSN notesSpec [116] sink 5 1 2 ("0/64", exportedName))
      fun result => do
        Dialogue.ask (Call.close 2)
        return result)
    fun
      | .ok snapshot => return .ok snapshot
      | .error err => do
        Dialogue.ask (Call.close 1)
        return .error err

/-- The session's side when the slot is about to be created. -/
def validated : Own :=
  { session with
    conns := {2, 1}
    shapes := [⟨"public.notes", 7, 'd'.toUInt8, [⟨"tenant", 25⟩, ⟨"id", 23⟩], ["id", "tenant"]⟩] }

theorem bootstrap_runs_of {sink : SnapshotRowSink} {a : Except GoError Snapshot}
    (h : ∃ w', Dialogue.Runs server ⟨idle (some ⟨slotState, true⟩), withNewSlot validated⟩
      (afterSlot sink).run a w') :
    ∃ w', Dialogue.Runs server ⟨idle none, session⟩
      (Session.bootstrap notesConfig readLSN notesSpec [116] 5 (some sink)).run a w' := by
  refine step (.connect .replication) (.ok 1) ⟨by simp [session], rfl⟩ ?_
  refine step (.connect .management) (.ok 2) ⟨by simp [session], rfl⟩ ?_
  refine step (.publication 2) (.ok (some ⟨true, true, true, false⟩)) rfl ?_
  refine step (.projectionTable 2) (.ok (true, true)) rfl ?_
  refine step (.primaryKey 2) (.ok ["tenant", "id"]) rfl ?_
  refine step (.published 2) (.ok true) rfl ?_
  refine step (.shape 2) (fun _ => none, notesCatalog) rfl ?_
  refine step (.record _) () rfl ?_
  refine step (.keepSize 2) (.ok ("-1", "MB")) rfl ?_
  refine step (.slot 2) (.ok none) ⟨rfl, fun _ h => by cases h; rfl⟩ ?_
  refine step (.createSlot 1) (.ok ("0/64", exportedName)) (createSlot_reply _) ?_
  exact h

theorem bootstrap_runs : ∃ w', Dialogue.Runs server ⟨idle none, session⟩
    (Session.bootstrap notesConfig readLSN notesSpec [116] 5 (some fun _ _ => none)).run
    (.ok (Session.newSnapshot "pg" 100 ⟨8, 8, ∅⟩)) w' := by
  refine bootstrap_runs_of ?_
  refine step (.beginTx 2) (.ok ()) rfl ?_
  refine step (.setSnapshot 2 exportedName) (.ok ()) ⟨1, _, rfl, rfl⟩ ?_
  refine step (.currentSnapshot 2) (.ok "8:8:") ⟨_, .inl rfl, rfl, fun v hv => sees_iff hv⟩ ?_
  refine step (.scan 2) notesTx
    ⟨rfl, _, _, rfl, notesTx_answers (by decide : (7 : UInt64) < 8) _ _, rfl,
      fun _ _ => .inr (.inr rfl)⟩ ?_
  refine step (.deliver _) () rfl ?_
  refine step (.commitTx 2) (.ok ()) rfl ?_
  refine step (.rollbackTx 2) () rfl ?_
  refine step (.startReplication 1 100) (.ok ()) rfl ?_
  refine step (.handOver 1 100) () rfl ?_
  refine step (.close 2) () rfl ?_
  exact ⟨_, .pure _ _⟩

end Demo

theorem bootstrap_boundary_run :
    ∃ w', Dialogue.Runs Demo.server ⟨Demo.idle none, Demo.session⟩
        (Session.bootstrap Demo.notesConfig Demo.readLSN Demo.notesSpec [116] 5
          (some fun _ _ => none)).run
        (.ok (Session.newSnapshot "pg" 100 ⟨8, 8, ∅⟩)) w' ∧
      ∃ (stream : Nat) (sees : Set UInt64), w'.own.conns = {stream} ∧
        w'.own.handed = some (stream, 100) ∧
        w'.own.delivered.flatten = Demo.notes.scanned sees := by
  obtain ⟨w', hrun⟩ := Demo.bootstrap_runs
  have hmeets : Meets Demo.server (At Demo.session (Demo.idle none))
      (Session.bootstrap Demo.notesConfig Demo.readLSN Demo.notesSpec [116] 5
        (some fun _ _ => none)) _ _ :=
    bootstrap_boundary Demo.notesConfig_admitted rfl rfl Demo.idle_not_hasOurs
      Demo.notes_rows_length _
  obtain ⟨stream, created, sees, batches, -, ⟨-, hconns, -, hhanded⟩, ⟨hdelivered, hrows⟩, -⟩ :=
    (hmeets _ (.here _ _)).of_runs hrun
  refine ⟨w', hrun, stream, sees, hconns, hhanded, ?_⟩
  rw [hdelivered]
  exact hrows

/-- **A bootstrap that fails leaves nothing behind.**  Its connections are closed, no stream is
handed over, and its slot is gone, unless the error itself reports that the clean-up failed or the
connection broke before the server had answered the creation. -/
theorem bootstrap_clean (hconfig : config.Admitted) (htx : own.tx = none)
    (hfirst : own.slotCreated = false) (hnone : ¬m.HasOurs)
    (hfuel : ∀ sees, (table.rows sees).length < fuel) (sink : Option SnapshotRowSink) :
    Meets (postgres config parseLSN spec scope table) (At own m)
      (Session.bootstrap config parseLSN spec scope fuel sink) (fun _ _ => True)
      (fun e w => w.own.conns = own.conns ∧ w.own.handed = own.handed ∧ w.own.tx = none ∧
        (w.server.HasOurs → w.own.inDoubt = true ∨
          ∃ err cleanupErr, e = Session.cleanupFailed err cleanupErr)) := by
  cases sink with
  | none =>
    refine Meets.throw fun w hw => ⟨by rw [hw.1], ?_⟩
    have h := hw.takenBack hnone rfl htx errSnapshotSinkRequired
    exact ⟨h.handed, h.tx, h.slot⟩
  | some sink =>
    refine (bootstrapWith_meets hconfig htx hfirst hnone hfuel).conseq (fun _ h => h)
      (fun _ _ _ => trivial) ?_
    rintro e w ⟨hconns, h⟩
    exact ⟨hconns, h.handed, h.tx, h.slot⟩

namespace Demo

/-- The sink refuses the rows: the slot is dropped again. -/
theorem bootstrap_fails : ∃ w', Dialogue.Runs server ⟨idle none, session⟩
    (Session.bootstrap notesConfig readLSN notesSpec [116] 5
      (some fun _ _ => some (.new "full"))).run
    (.error (.new "full")) w' := by
  refine bootstrap_runs_of ?_
  refine step (.beginTx 2) (.ok ()) rfl ?_
  refine step (.setSnapshot 2 exportedName) (.ok ()) ⟨1, _, rfl, rfl⟩ ?_
  refine step (.currentSnapshot 2) (.ok "8:8:") ⟨_, .inl rfl, rfl, fun v hv => sees_iff hv⟩ ?_
  refine step (.scan 2) notesTx
    ⟨rfl, _, _, rfl, notesTx_answers (by decide : (7 : UInt64) < 8) _ _, rfl,
      fun _ _ => .inr (.inr rfl)⟩ ?_
  refine step (.deliver _) () rfl ?_
  refine step (.rollbackTx 2) () rfl ?_
  refine step (.close 1) () rfl ?_
  refine step (.connect .replication) (.ok 3) ⟨by simp [withNewSlot, validated], rfl⟩ ?_
  refine step (.dropReplicationSlot 3) none (dropped_reply _) ?_
  refine step (.close 3) () rfl ?_
  refine step (.close 2) () rfl ?_
  refine step (.close 1) () rfl ?_
  exact ⟨_, .pure _ _⟩

end Demo

theorem bootstrap_clean_run :
    ∃ w', Dialogue.Runs Demo.server ⟨Demo.idle none, Demo.session⟩
        (Session.bootstrap Demo.notesConfig Demo.readLSN Demo.notesSpec [116] 5
          (some fun _ _ => some (.new "full"))).run
        (.error (.new "full")) w' ∧
      w'.own.conns = ∅ ∧ w'.own.handed = none ∧
      (w'.server.HasOurs → w'.own.inDoubt = true) := by
  obtain ⟨w', hrun⟩ := Demo.bootstrap_fails
  have hmeets : Meets Demo.server (At Demo.session (Demo.idle none))
      (Session.bootstrap Demo.notesConfig Demo.readLSN Demo.notesSpec [116] 5
        (some fun _ _ => some (.new "full"))) _ _ :=
    bootstrap_clean Demo.notesConfig_admitted rfl rfl Demo.idle_not_hasOurs
      Demo.notes_rows_length _
  obtain ⟨hconns, hhanded, -, hslot⟩ := (hmeets _ (.here _ _)).of_runs hrun
  refine ⟨w', hrun, hconns, hhanded, fun hours => ?_⟩
  rcases hslot hours with hdoubt | ⟨err, cleanupErr, herr⟩
  · exact hdoubt
  · cases herr

end Bootstrap

/-! ## Resuming the slot, and giving it up -/

section Slot

variable {κ : Type} [LinearOrder κ] {config : FullReaderConfig} {parseLSN : String → Option Nat}
  {spec : ProjectionSpec} {scope : Text} {table : ScopeTable κ} {own : Own} {m : PgServer}

/-- A connection that was opened is closed again, and the rest is as it was. -/
theorem closed_opened {conn : Nat} (hnew : conn ∉ own.conns) {w : World} {m' : PgServer}
    (hw : At (own.opened conn) m' w) {Q : World → Prop} (h : ∀ w', At own m' w' → Q w') :
    Closed conn Q w := by
  refine hw.closed fun w' hw' => h w' ?_
  have hown : ({ own.opened conn with conns := (insert conn own.conns).erase conn } : Own) =
      own := by
    rw [Finset.erase_insert hnew]
    rfl
  exact hown ▸ hw'

theorem map_state_eq_some {slot : Option ServerSlot} {state : SlotState}
    (h : some state = slot.map (·.state)) : ∃ found, slot = some found ∧ found.state = state := by
  cases slot with
  | none => cases h
  | some found =>
    cases h
    exact ⟨found, rfl, rfl⟩

theorem validateSlot_eq_ok {slot : SlotState} (h : Session.validateSlot slot = .ok ()) :
    slot.slotType = "logical" ∧ slot.plugin = "pgoutput" ∧ slot.active = false := by
  unfold Session.validateSlot at h
  split_ifs at h with hkind hactive
  push Not at hkind
  exact ⟨hkind.1, hkind.2.1, Bool.eq_false_of_not_eq_true hactive⟩

/-- The session's side when it may still wait `n` times. -/
def Own.waiting (own : Own) (n : Nat) : Own := { own with waits := n }

theorem dropActive_meets {conn turns : Nat} (hconn : conn ∈ own.conns)
    (hturns : own.waits < turns) :
    Meets (postgres config parseLSN spec scope table) (At own m)
      (Session.dropActive config conn turns)
      (fun _ w => ∃ now n, (m.Evolves now ∧ now.slot = none) ∧ At (own.waiting n) now w)
      (fun _ w => ∃ n, At (own.waiting n) m w) := by
  induction turns generalizing own m with
  | zero => exact absurd hturns (Nat.not_lt_zero _)
  | succ turns ih =>
    refine Meets.bind (Q := fun answer w => ∃ now, (m.Evolves now ∧
      (SaysGone answer → now.slot = none)) ∧ At own now w)
      (meets_call fun now hnow => ⟨hconn, ?_⟩) ?_
    · rintro answer w' ⟨hown, hdrop⟩
      obtain ⟨hevolves, hgone⟩ := dropping_outcome hdrop
      exact ⟨w'.server, ⟨hnow.trans hevolves, hgone⟩, hown, .refl _⟩
    · intro answer
      refine Meets.of_exists fun now => Meets.of_fact fun hdropped => ?_
      obtain ⟨hnow, hgone⟩ := hdropped
      cases answer with
      | none => exact Meets.pure fun w hw => ⟨now, own.waits, ⟨hnow, hgone (.inl rfl)⟩, hw⟩
      | some failure =>
        cases failure with
        | other err => exact Meets.throw fun w hw => ⟨own.waits, hw.since hnow⟩
        | pg sqlState message text =>
          show Meets _ _ (if sqlState = "42704" then _ else if sqlState = "55006" then _ else _) _ _
          by_cases hundefined : sqlState = "42704"
          · rw [if_pos hundefined]
            subst hundefined
            exact Meets.pure fun w hw =>
              ⟨now, own.waits, ⟨hnow, hgone (.inr ⟨message, text, rfl⟩)⟩, hw⟩
          · rw [if_neg hundefined]
            by_cases hactive : sqlState = "55006"
            · -- still active: once more, as long as the deadline lets it wait
              rw [if_pos hactive]
              refine Meets.bind (Q := fun answer w => answer.elim
                (∃ n, own.waits = n + 1 ∧ At (own.waiting n) now w) fun _ => At own now w)
                (meets_call fun now' hnow' => ⟨trivial, ?_⟩) ?_
              · rintro (_ | err) w' hr
                · obtain ⟨n, hn, rfl⟩ := hr
                  exact ⟨n, hn, rfl, hnow'⟩
                · cases hr
                  exact ⟨rfl, hnow'⟩
              · rintro (_ | err)
                · refine Meets.of_exists fun n => Meets.of_fact fun hn => ?_
                  have hconn' : conn ∈ (own.waiting n).conns := hconn
                  have hturns' : (own.waiting n).waits < turns := by
                    show n < turns
                    omega
                  refine (ih hconn' hturns').conseq (fun _ h => h) ?_ ?_
                  · rintro _ w ⟨now', n', ⟨hnow', hgone'⟩, hw⟩
                    exact ⟨now', n', ⟨hnow.trans hnow', hgone'⟩, hw⟩
                  · rintro e w ⟨n', hw⟩
                    exact ⟨n', hw.since hnow⟩
                · exact Meets.throw fun w hw => ⟨own.waits, hw.since hnow⟩
            · rw [if_neg hactive]
              exact Meets.throw fun w hw => ⟨own.waits, hw.since hnow⟩

/-- **The terminal action ends, and reports success only when the slot is gone.**  It tries again
only as often as its deadline lets it wait, and closes its connection whatever comes of it. -/
theorem dropSlotForBudget_gone {turns : Nat} (hturns : own.waits < turns) :
    Meets (postgres config parseLSN spec scope table) (At own m)
      (Session.dropSlotForBudget config turns)
      (fun _ w => w.own.conns = own.conns ∧
        ∃ now, m.Evolves now ∧ now.slot = none ∧ now.Evolves w.server)
      (fun _ w => w.own.conns = own.conns) := by
  refine withManagement_meets (fun conn hnew => ?_) fun _ w hw => by rw [hw.1]
  have hmem : conn ∈ (own.opened conn).conns := Finset.mem_insert_self ..
  have hconns : ∀ (m' : PgServer) (n : Nat) (w : World), At ((own.opened conn).waiting n) m' w →
      w.own.conns.erase conn = own.conns := by
    intro m' n w hw
    rw [hw.1]
    exact Finset.erase_insert hnew
  have hturns' : (own.opened conn).waits < turns := hturns
  refine (dropActive_meets hmem hturns').conseq (fun _ h => h) ?_ ?_
  · rintro _ w ⟨now, n, ⟨hnow, hgone⟩, hw⟩ later hlater
    exact ⟨hconns now n w hw, now, hnow, hgone, hw.2.trans hlater⟩
  · rintro e w ⟨n, hw⟩ later hlater
    exact hconns m n w hw

namespace Demo

theorem busy_reply (own : Own) :
    Replies notesConfig readLSN notesSpec [116] notes ⟨idle (some ⟨slotState, true⟩), own⟩
      (.pgDropReplicationSlot 1) (some (.pg "55006" "" "")) ⟨idle (some ⟨slotState, true⟩), own⟩ :=
  ⟨rfl, rfl, fun h => absurd h (by decide)⟩

theorem freed_reply (own : Own) :
    Replies notesConfig readLSN notesSpec [116] notes ⟨idle (some ⟨slotState, true⟩), own⟩
      (.pgDropReplicationSlot 1) none ⟨idle none, own⟩ :=
  ⟨rfl, rfl⟩

/-- The slot is released while the session waits. -/
theorem dropSlotForBudget_runs : ∃ w', Dialogue.Runs server
    ⟨idle (some ⟨slotState, true⟩), session⟩ (Session.dropSlotForBudget notesConfig 4).run
    (.ok ()) w' := by
  refine step (.connect .management) (.ok 1) ⟨by simp [session], rfl⟩ ?_
  refine step (.pgDropReplicationSlot 1) (some (.pg "55006" "" "")) (busy_reply _) ?_
  refine step .wait none ⟨2, rfl, rfl⟩ ?_
  refine step (.pgDropReplicationSlot 1) none (freed_reply _) ?_
  refine step (.close 1) () rfl ?_
  exact ⟨_, .pure _ _⟩

end Demo

theorem dropSlotForBudget_gone_run :
    ∃ w', Dialogue.Runs Demo.server ⟨Demo.idle (some ⟨Demo.slotState, true⟩), Demo.session⟩
        (Session.dropSlotForBudget Demo.notesConfig 4).run (.ok ()) w' ∧
      w'.own.conns = ∅ ∧ ∃ now : PgServer, now.slot = none ∧ now.Evolves w'.server := by
  obtain ⟨w', hrun⟩ := Demo.dropSlotForBudget_runs
  have hmeets : Meets Demo.server (At Demo.session (Demo.idle (some ⟨Demo.slotState, true⟩)))
      (Session.dropSlotForBudget Demo.notesConfig 4) _ _ :=
    dropSlotForBudget_gone (by decide)
  obtain ⟨hconns, now, -, hgone, hnow⟩ := (hmeets _ (.here _ _)).of_runs hrun
  exact ⟨w', hrun, hconns, now, hgone, hnow⟩

end Slot

end Watchd.Cdc
