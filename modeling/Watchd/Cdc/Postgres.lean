import Mathlib.Data.Finset.Basic
import Mathlib.Data.Set.Basic
import Watchd.Cdc.Sessions

/-!
# PostgreSQL, as a session meets it

The server writes commit records to its WAL, lets transactions disappear from the
list of running ones some time after their record, and may have a slot under the
reader's name.  All of this goes on while a session asks its questions; what the
session holds itself (its connections, its transaction, the snapshot exported for
it) changes by its own calls only.  Every query and command may fail.

`postgres` is that server as the environment of a session.
-/

namespace Watchd.Cdc

open Watchd.Lib

/-! ## The server -/

/-- A commit record: where it starts in the WAL, and whose it is. -/
structure CommitRecord where
  lsn : Nat
  xid : UInt64

/-- The slot of the reader's name. -/
structure ServerSlot where
  state : SlotState
  /-- the session at hand created it -/
  ours : Bool

/-- What of the server a session can observe. -/
structure PgServer where
  /-- the position behind the last record of the WAL -/
  walEnd : Nat
  commits : List CommitRecord
  /-- the transactions that a snapshot taken now does not show as running -/
  finished : Set UInt64
  slot : Option ServerSlot
  written : ∀ c ∈ commits, c.lsn < walEnd

namespace PgServer

/-- The slot is there, and the session's own. -/
def HasOurs (m : PgServer) : Prop := ∃ slot, m.slot = some slot ∧ slot.ours

/-- The transaction has come to its end, or has its commit record at least. -/
def Decided (m : PgServer) (xid : UInt64) : Prop := xid ∈ m.finished ∨ ∃ c ∈ m.commits, c.xid = xid

/-- What may become of a server, whoever else works on it. -/
structure Evolves (m m' : PgServer) : Prop where
  walEnd_le : m.walEnd ≤ m'.walEnd
  commits : ∃ later, m'.commits = m.commits ++ later ∧
    ∀ c ∈ later, m.walEnd ≤ c.lsn ∧ ¬m.Decided c.xid
  finished : m.finished ⊆ m'.finished
  slot : m'.HasOurs → m.HasOurs

theorem Evolves.refl (m : PgServer) : m.Evolves m :=
  ⟨Nat.le_refl _, ⟨[], (List.append_nil _).symm, fun _ hc => absurd hc List.not_mem_nil⟩,
    fun _ hx => hx, id⟩

theorem Evolves.decided {m m' : PgServer} (h : m.Evolves m') {xid : UInt64} (hx : m.Decided xid) :
    m'.Decided xid := by
  obtain ⟨later, hcommits, -⟩ := h.commits
  rcases hx with hx | ⟨c, hc, rfl⟩
  · exact .inl (h.finished hx)
  · exact .inr ⟨c, hcommits ▸ List.mem_append_left _ hc, rfl⟩

theorem Evolves.trans {m₁ m₂ m₃ : PgServer} (h : m₁.Evolves m₂) (h' : m₂.Evolves m₃) :
    m₁.Evolves m₃ := by
  obtain ⟨later, hcommits, hlater⟩ := h.commits
  obtain ⟨later', hcommits', hlater'⟩ := h'.commits
  refine ⟨h.walEnd_le.trans h'.walEnd_le, ⟨later ++ later', ?_, fun c hc => ?_⟩,
    h.finished.trans h'.finished, fun hours => h.slot (h'.slot hours)⟩
  · rw [hcommits', hcommits, List.append_assoc]
  · rcases List.mem_append.1 hc with hc | hc
    · exact hlater c hc
    · obtain ⟨hle, hdecided⟩ := hlater' c hc
      exact ⟨h.walEnd_le.trans hle, fun hd => hdecided (h.decided hd)⟩

/-- A record of a later time is an old one, or was written behind everything and by a transaction
that was still running. -/
theorem Evolves.mem {m m' : PgServer} (h : m.Evolves m') {c : CommitRecord} (hc : c ∈ m'.commits) :
    c ∈ m.commits ∨ m.walEnd ≤ c.lsn ∧ ¬m.Decided c.xid := by
  obtain ⟨later, hcommits, hlater⟩ := h.commits
  rw [hcommits] at hc
  rcases List.mem_append.1 hc with hc | hc
  · exact .inl hc
  · exact .inr (hlater c hc)

end PgServer

/-! ## The session's own side -/

/-- A snapshot that another session can import, until its connection runs the next command. -/
structure ExportedSnapshot where
  conn : Nat
  name : String
  sees : Set UInt64

/-- An open transaction, with what it sees once its first statement has fixed that. -/
structure OpenTx where
  conn : Nat
  sees : Option (Set UInt64)

/-- What a session holds on the server. -/
structure Own where
  conns : Finset Nat
  tx : Option OpenTx
  exported : Option ExportedSnapshot
  /-- the server has confirmed the session's slot -/
  slotCreated : Bool
  /-- the connection broke while the slot was being created -/
  inDoubt : Bool
  /-- where replication was started last -/
  started : Option (Nat × Nat)
  /-- the stream left to `Run` -/
  handed : Option (Nat × Nat)
  delivered : List (List ScannedRow)
  shapes : List RelationShape
  /-- how often the deadline still lets the session wait -/
  waits : Nat

/-- A server and one session's part of it. -/
structure World where
  server : PgServer
  own : Own

/-- The server goes on by itself; what the session holds stays. -/
def World.Drifts (w w' : World) : Prop := w'.own = w.own ∧ w.server.Evolves w'.server

/-- The snapshot lets `xid` be seen. -/
def Visibility.Sees (v : Visibility) (xid : UInt64) : Prop := xid < v.xmax ∧ xid ∉ v.inProgress

/-- `tx` answers as `whole` does, except where it fails. -/
structure Tx.Weakens (tx whole : Tx) : Prop where
  sanitize : tx.sanitize = whole.sanitize
  query : ∀ text args, (∃ err, tx.query text args = .error err) ∨
    (∃ result err, tx.query text args = .ok result ∧ result.err = some err) ∨
    tx.query text args = whole.query text args

/-- The scope, as every set of transactions leaves it, and how the server writes its keys. -/
structure ScopeTable (κ : Type) where
  fields : List String
  rows : Set UInt64 → List (List (Option Text))
  key : List (Option Text) → κ
  reads : List Text → Option κ

/-- The rows that a transaction reads, in key order. -/
def ScopeTable.scanned {κ : Type} [LinearOrder κ] (table : ScopeTable κ) (sees : Set UInt64) :
    List ScannedRow :=
  (inKeyOrder table.key (table.rows sees)).map (scannedRow table.fields)

section Environment

variable {κ : Type} [LinearOrder κ] (config : FullReaderConfig) (parseLSN : String → Option Nat)
  (spec : ProjectionSpec) (scope : Text) (table : ScopeTable κ)

/-- The slot was created: the snapshot exported with it sees the transactions whose commit record is
before the consistent point. -/
structure SlotCreated (m m' : PgServer) (point : String) (sees : Set UInt64) : Prop where
  evolves : ∃ state, m.Evolves { m' with slot := none } ∧ m'.slot = some ⟨state, true⟩
  within : ∀ lsn, parseLSN point = some lsn → lsn ≤ m'.walEnd
  sees_iff : ∀ lsn, parseLSN point = some lsn → ∀ c ∈ m'.commits, c.xid ∈ sees ↔ c.lsn < lsn
  decided : ∀ xid ∈ sees, m'.Decided xid

/-- What comes back when the slot is dropped: an undefined object is not there, and only a broken
connection leaves open what happened. -/
def Dropping (m m' : PgServer) : Option Failure → Prop
  | none => m' = { m with slot := none }
  | some (.pg sqlState _ _) => m' = m ∧ (sqlState = "42704" → m.slot = none)
  | some (.other _) => m' = m ∨ m' = { m with slot := none }

/-- The replies of PostgreSQL and of the session's surroundings. -/
def Replies (w : World) : (c : Call) → Answer c → World → Prop
  | .connect _, answer, w' =>
    match answer with
    | .ok conn => conn ∉ w.own.conns ∧
        w' = ⟨w.server, { w.own with conns := insert conn w.own.conns }⟩
    | .error _ => w' = w
  | .close conn, _, w' => w' = ⟨w.server, { w.own with conns := w.own.conns.erase conn }⟩
  | .wait, answer, w' =>
    match answer with
    | none => ∃ n, w.own.waits = n + 1 ∧ w' = ⟨w.server, { w.own with waits := n }⟩
    | some _ => w' = w
  | .slot _, answer, w' =>
    w' = w ∧ ∀ found, answer = .ok found → found = w.server.slot.map (·.state)
  | .record shape, _, w' => w' = ⟨w.server, { w.own with shapes := w.own.shapes ++ [shape] }⟩
  | .createSlot conn, answer, w' =>
    match answer with
    | .ok (point, name) => ∃ sees, SlotCreated parseLSN w.server w'.server point sees ∧
        name ≠ "" ∧
        w'.own = { w.own with exported := some ⟨conn, name, sees⟩, slotCreated := true }
    | .error (.pg _ _ _) => w' = w
    | .error (.other _) => w' = w ∨
        w.server.Evolves { w'.server with slot := none } ∧
          w'.own = { w.own with inDoubt := true }
  | .currentWALInsertLSN _, answer, w' =>
    w' = w ∧ ∀ text lsn, answer = .ok text → parseLSN text = some lsn → lsn = w.server.walEnd
  | .beginTx conn, answer, w' =>
    match answer with
    | .ok () => w' = ⟨w.server, { w.own with tx := some ⟨conn, none⟩ }⟩
    | .error _ => w' = w
  | .setSnapshot conn name, answer, w' =>
    match answer with
    | .ok () => ∃ source sees, w.own.exported = some ⟨source, name, sees⟩ ∧
        w' = ⟨w.server, { w.own with tx := some ⟨conn, some sees⟩ }⟩
    | .error _ => w' = w
  | .currentSnapshot conn, answer, w' =>
    match answer with
    | .ok text => ∃ sees,
        (w.own.tx = some ⟨conn, some sees⟩ ∨
          w.own.tx = some ⟨conn, none⟩ ∧ sees = w.server.finished) ∧
        w' = ⟨w.server, { w.own with tx := some ⟨conn, some sees⟩ }⟩ ∧
        ∀ v, parseVisibility text = .ok v → ∀ xid, v.Sees xid ↔ xid ∈ sees
    | .error _ => w' = w
  | .scan conn, tx, w' => w' = w ∧ ∃ sees whole, w.own.tx = some ⟨conn, some sees⟩ ∧
      Answers whole spec scope config.snapshotBatchRows.toNat table.fields (table.rows sees)
        table.key table.reads ∧ tx.Weakens whole
  | .deliver batches, _, w' =>
    w' = ⟨w.server, { w.own with delivered := w.own.delivered ++ batches }⟩
  | .commitTx _, answer, w' =>
    match answer with
    | .ok () => w' = ⟨w.server, { w.own with tx := none }⟩
    | .error _ => w' = w
  | .rollbackTx _, _, w' => w' = ⟨w.server, { w.own with tx := none }⟩
  | .startReplication conn lsn, answer, w' =>
    match answer with
    | .ok () => w' = ⟨w.server, { w.own with exported := none, started := some (conn, lsn) }⟩
    | .error _ => w' = ⟨w.server, { w.own with exported := none }⟩
  | .dropReplicationSlot _, answer, w' | .pgDropReplicationSlot _, answer, w' =>
    w'.own = w.own ∧ Dropping w.server w'.server answer
  | .handOver conn lsn, _, w' => w' = ⟨w.server, { w.own with handed := some (conn, lsn) }⟩
  | .ctxDone, _, w' | .publication _, _, w' | .projectionTable _, _, w' | .primaryKey _, _, w'
  | .published _, _, w' | .shape _, _, w' | .keepSize _, _, w' => w' = w
  | .diverge, _, _ => False

/-- The calls that are in order: on a connection that is open, in a transaction where one is needed,
with a snapshot that can still be imported, on a slot that is the session's own. -/
def Accepts (w : World) : Call → Prop
  | .connect _ | .close _ | .ctxDone | .wait | .record _ | .deliver _ => True
  | .publication conn | .projectionTable conn | .primaryKey conn | .published conn | .shape conn
  | .slot conn | .keepSize conn | .currentWALInsertLSN conn | .rollbackTx conn
  | .pgDropReplicationSlot conn => conn ∈ w.own.conns
  | .createSlot conn => conn ∈ w.own.conns ∧ w.own.slotCreated = false
  | .beginTx conn => conn ∈ w.own.conns ∧ w.own.tx = none
  | .setSnapshot conn name => conn ∈ w.own.conns ∧ w.own.tx = some ⟨conn, none⟩ ∧
      ∃ source sees, source ∈ w.own.conns ∧ w.own.exported = some ⟨source, name, sees⟩
  | .currentSnapshot conn | .commitTx conn => conn ∈ w.own.conns ∧
      ∃ sees, w.own.tx = some ⟨conn, sees⟩
  | .scan conn => conn ∈ w.own.conns ∧ ∃ sees, w.own.tx = some ⟨conn, some sees⟩
  | .startReplication conn _ | .dropReplicationSlot conn =>
    conn ∈ w.own.conns ∧ w.own.slotCreated = true
  | .handOver conn lsn => conn ∈ w.own.conns ∧ w.own.started = some (conn, lsn)
  | .diverge => False

/-- The server as the environment of a session. -/
def postgres : Environment Call Answer World where
  Drifts := World.Drifts
  Accepts := Accepts
  Replies := Replies config parseLSN spec scope table

end Environment

end Watchd.Cdc
