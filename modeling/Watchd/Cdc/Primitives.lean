import Watchd.Cdc.Postgres

/-!
# What the reader's primitives leave behind

A triple for each step of a session with the server: from what the session holds
(`At`) to what it holds after, whatever the server does in between.  The largest is
`readSnapshot_meets`: the rows read in one transaction are those its snapshot
shows.
-/

namespace Watchd.Cdc

open Watchd.Lib

/-- The session's side is `own`, and the server has evolved since `m`. -/
def At (own : Own) (m : PgServer) (w : World) : Prop := w.own = own ∧ m.Evolves w.server

theorem At.here (own : Own) (m : PgServer) : At own m ⟨m, own⟩ := ⟨rfl, .refl m⟩

theorem At.since {own : Own} {m m' : PgServer} {w : World} (h : m.Evolves m') (hw : At own m' w) :
    At own m w :=
  ⟨hw.1, h.trans hw.2⟩

/-- The session's side with one more connection. -/
def Own.opened (own : Own) (conn : Nat) : Own := { own with conns := insert conn own.conns }

/-- What holds once the connection has been closed, some time later. -/
def Closed (conn : Nat) (Q : World → Prop) (w : World) : Prop :=
  ∀ now, w.server.Evolves now → Q ⟨now, { w.own with conns := w.own.conns.erase conn }⟩

theorem At.closed {own : Own} {m : PgServer} {w : World} (hw : At own m w) {conn : Nat}
    {Q : World → Prop}
    (h : ∀ w', At { own with conns := own.conns.erase conn } m w' → Q w') : Closed conn Q w := by
  intro now hnow
  refine h _ ⟨?_, hw.2.trans hnow⟩
  rw [hw.1]

section Rules

variable {κ : Type} [LinearOrder κ] {config : FullReaderConfig} {parseLSN : String → Option Nat}
  {spec : ProjectionSpec} {scope : Text} {table : ScopeTable κ}
  {own : Own} {m : PgServer} {α : Type} {F : GoError → World → Prop}

theorem meets_call {c : Call} {Q : Answer c → World → Prop}
    (h : ∀ now, m.Evolves now → Accepts ⟨now, own⟩ c ∧
      ∀ r w', Replies config parseLSN spec scope table ⟨now, own⟩ c r w' → Q r w') :
    Meets (postgres config parseLSN spec scope table) (At own m) (Session.call c) Q F := by
  refine Meets.query fun w w₁ hw hdrift => ?_
  obtain ⟨now, own₁⟩ := w₁
  have hown : own₁ = own := hdrift.1.trans hw.1
  subst hown
  exact h now (hw.2.trans hdrift.2)

/-- A call that changes nothing. -/
theorem meets_read {c : Call} (haccepts : ∀ now, Accepts ⟨now, own⟩ c)
    (hreplies : ∀ now r w', Replies config parseLSN spec scope table ⟨now, own⟩ c r w' →
      w' = ⟨now, own⟩) :
    Meets (postgres config parseLSN spec scope table) (At own m) (Session.call c)
      (fun _ => At own m) F := by
  refine meets_call fun now hnow => ⟨haccepts now, fun r w' hr => ?_⟩
  rw [hreplies now r w' hr]
  exact ⟨rfl, hnow⟩

theorem meets_classified {P : World → Prop} {answer : Except Failure α} {Q : α → World → Prop}
    (hok : ∀ a w, answer = .ok a → P w → Q a w) (herr : ∀ e w, P w → F e w) :
    Meets (postgres config parseLSN spec scope table) P (Session.classified answer) Q F := by
  cases answer with
  | ok a => exact Meets.pure fun w hw => hok a w rfl hw
  | error failure => exact Meets.throw fun w hw => herr _ w hw

theorem classified_ok_bind {β : Type} (a : α) (f : α → Session β) :
    Session.classified (.ok a) >>= f = f a :=
  rfl

theorem connect_meets {kind : ConnKind} :
    Meets (postgres config parseLSN spec scope table) (At own m) (Session.connect kind)
      (fun conn w => conn ∉ own.conns ∧ At (own.opened conn) m w)
      (fun _ => At own m) := by
  refine Meets.bind (Q := Either (fun conn w => conn ∉ own.conns ∧ At (own.opened conn) m w)
    fun _ => At own m) (meets_call fun now hnow => ⟨trivial, ?_⟩) ?_
  · rintro (failure | conn) w' hr
    · cases hr
      exact ⟨rfl, hnow⟩
    · obtain ⟨hnew, rfl⟩ := hr
      exact ⟨hnew, rfl, hnow⟩
  · rintro (failure | conn)
    · refine Meets.bind (meets_read (fun _ => trivial) fun _ _ _ h => h) fun done => ?_
      split
      · exact Meets.throw fun _ hw => hw
      · exact Meets.throw fun _ hw => hw
    · exact Meets.pure fun _ hw => hw

theorem withManagement_meets {body : Nat → Session α} {Q : α → World → Prop}
    (hbody : ∀ conn, conn ∉ own.conns →
      Meets (postgres config parseLSN spec scope table)
        (At (own.opened conn) m) (body conn)
        (fun a => Closed conn (Q a)) (fun e => Closed conn (F e)))
    (hF : ∀ e w, At own m w → F e w) :
    Meets (postgres config parseLSN spec scope table) (At own m) (Session.withManagement body)
      Q F := by
  refine Meets.bind (connect_meets.conseq (fun _ h => h) (fun _ _ h => h) hF) fun conn => ?_
  intro w hw
  refine Meets.deferring (hbody conn hw.1) ?_ ?_ w hw.2
  · intro a w hclosed w₁ hdrift
    refine ⟨trivial, fun r w₂ hr => ?_⟩
    cases hr
    show Q a _
    rw [hdrift.1]
    exact hclosed w₁.server hdrift.2
  · intro e w hclosed w₁ hdrift
    refine ⟨trivial, fun r w₂ hr => ?_⟩
    cases hr
    show F e _
    rw [hdrift.1]
    exact hclosed w₁.server hdrift.2

theorem validatePublication_meets {conn : Nat} (hconn : conn ∈ own.conns) :
    Meets (postgres config parseLSN spec scope table) (At own m)
      (Session.validatePublication config conn) (fun _ => At own m) (fun _ => At own m) := by
  refine Meets.bind (meets_read (fun _ => hconn) fun _ _ _ h => h) fun answer => ?_
  refine Meets.bind (meets_classified (Q := fun _ => At own m) (fun _ _ _ hw => hw)
    fun _ _ hw => hw) fun found => ?_
  cases found with
  | none => exact Meets.throw fun _ hw => hw
  | some flags =>
    refine Meets.guard (fun _ hw => hw) fun _ => ?_
    exact Meets.guard (fun _ hw => hw) fun _ => Meets.pure fun _ hw => hw

theorem projectionPrimaryKey_meets {conn : Nat} (hconn : conn ∈ own.conns) :
    Meets (postgres config parseLSN spec scope table) (At own m)
      (Session.projectionPrimaryKey conn spec) (fun _ => At own m) (fun _ => At own m) := by
  refine Meets.bind (meets_read (fun _ => hconn) fun _ _ _ h => h) fun answer => ?_
  refine Meets.bind (meets_classified (Q := fun _ => At own m) (fun _ _ _ hw => hw)
    fun _ _ hw => hw) fun found => ?_
  exact Meets.guard (fun _ hw => hw) fun _ => Meets.pure fun _ hw => hw

/-- What a spec that passes leaves in the registry. -/
def Own.recorded (own : Own) (shape : RelationShape) : Own :=
  { own with shapes := own.shapes ++ [shape] }

/-- A shape is recorded by the last step only, and it is the one the catalog has for the spec. -/
theorem validateProjectionSpec_meets {conn : Nat} (hconn : conn ∈ own.conns) :
    Meets (postgres config parseLSN spec scope table) (At own m)
      (Session.validateProjectionSpec config conn spec)
      (fun _ w => ∃ fails catalog shape, projectionShape fails catalog spec = .ok shape ∧
        At (own.recorded shape) m w)
      (fun _ => At own m) := by
  refine Meets.bind (meets_read (fun _ => hconn) fun _ _ _ h => h) fun answer => ?_
  refine Meets.bind (meets_classified (Q := fun _ => At own m) (fun _ _ _ hw => hw)
    fun _ _ hw => hw) fun found => ?_
  refine Meets.guard (fun _ hw => hw) fun _ => Meets.guard (fun _ hw => hw) fun _ => ?_
  refine Meets.bind (projectionPrimaryKey_meets hconn) fun primaryKey => ?_
  refine Meets.guard (fun _ hw => hw) fun _ => ?_
  refine Meets.bind (meets_read (fun _ => hconn) fun _ _ _ h => h) fun answer => ?_
  refine Meets.bind (meets_classified (Q := fun _ => At own m) (fun _ _ _ hw => hw)
    fun _ _ hw => hw) fun published => ?_
  refine Meets.guard (fun _ hw => hw) fun _ => ?_
  refine Meets.bind (meets_read (fun _ => hconn) fun _ _ _ h => h) fun ⟨fails, catalog⟩ => ?_
  cases hshape : projectionShape fails catalog spec with
  | error err =>
    dsimp only
    rw [hshape]
    exact Meets.throw fun _ hw => hw
  | ok shape =>
    dsimp only
    rw [hshape]
    refine meets_call fun now hnow => ⟨trivial, fun _ w' hr => ?_⟩
    cases hr
    exact ⟨fails, catalog, shape, hshape, rfl, hnow⟩

theorem lookupSlot_meets {conn : Nat} (hconn : conn ∈ own.conns) :
    Meets (postgres config parseLSN spec scope table) (At own m) (Session.lookupSlot conn)
      (fun found w => ∃ now, m.Evolves now ∧ found = now.slot.map (·.state) ∧ At own now w)
      (fun _ => At own m) := by
  refine Meets.bind (Q := fun answer w => ∃ now, m.Evolves now ∧
    (∀ found, answer = .ok found → found = now.slot.map (·.state)) ∧ At own now w)
    (meets_call fun now hnow => ⟨hconn, fun answer w' hr => ?_⟩) fun answer => ?_
  · obtain ⟨rfl, hfound⟩ := hr
    exact ⟨now, hnow, hfound, .here own now⟩
  · refine meets_classified ?_ ?_
    · rintro found w rfl ⟨now, hnow, hfound, hw⟩
      exact ⟨now, hnow, hfound found rfl, hw⟩
    · rintro e w ⟨now, hnow, -, hw⟩
      exact hw.since hnow

theorem slotLSN_meets {P : World → Prop} {text : String} :
    Meets (postgres config parseLSN spec scope table) P (Session.slotLSN parseLSN text)
      (fun lsn w => parseLSN text = some lsn ∧ P w) (fun _ => P) := by
  unfold Session.slotLSN
  split
  · exact Meets.throw fun _ hw => hw
  · next lsn hlsn => exact Meets.pure fun _ hw => ⟨hlsn, hw⟩

end Rules

/-! ## What a snapshot's numbers tell -/

/-- What is read as a snapshot keeps the promises of one. -/
theorem parseVisibility_bounded {text : String} {v : Visibility}
    (h : parseVisibility text = .ok v) : v.Bounded := by
  obtain ⟨p, rfl, hp⟩ := parseVisibility_wellFormed h
  obtain ⟨w, hparse, hw⟩ := hp.parse
  cases h.symm.trans hparse
  refine ⟨?_, fun xid hxid => ?_⟩
  · rw [UInt64.le_iff_toNat_le, hw.xmin_eq, hw.xmax_eq]
    exact hp.ordered
  · obtain ⟨f, hf, hvalue⟩ := (hw.mem_iff xid).1 hxid
    rw [UInt64.le_iff_toNat_le, UInt64.lt_iff_toNat_lt, hw.xmin_eq, hw.xmax_eq, ← hvalue]
    exact hp.xip_within f hf

/-- A transaction that the low half of its ID tells apart: within 2³¹ of the snapshot's `xmax`. -/
structure Visibility.Near (v : Visibility) (xid : UInt64) : Prop where
  xmax_lt : v.xmax.toNat < 2 ^ 63
  xid_lt : xid.toNat < 2 ^ 63
  above : v.xmax.toNat ≤ xid.toNat + 2 ^ 31
  below : xid.toNat < v.xmax.toNat + 2 ^ 31

theorem Visibility.includes_iff_sees {v : Visibility} {xid : UInt64} (hv : v.Bounded)
    (h : v.Near xid) : v.includes xid.toUInt32 = true ↔ v.Sees xid := by
  have hwide := widen_of_lt h.xmax_lt h.above h.below h.xid_lt
  unfold includes Sees
  simp only [hwide]
  split_ifs with hge hlt
  · simp [UInt64.not_lt.2 hge]
  · -- below `xmin` nothing is still running
    have hnot : xid ∉ v.inProgress := fun hmem => UInt64.not_lt.2 (hv.within xid hmem).1 hlt
    simp [UInt64.not_le.1 hge, hnot]
  · simp [UInt64.not_le.1 hge]

/-! ## Scans that may fail -/

section Scan

variable {κ : Type} [LinearOrder κ] {tx whole : Tx} {spec : ProjectionSpec} {scope : Text}
  {batchRows : Nat} {fields : List String} {rows : List (List (Option Text))}
  {key : List (Option Text) → κ} {reads : List Text → Option κ}

theorem Tx.Weakens.fetchBatch (h : tx.Weakens whole) (spec : ProjectionSpec) (scope : Text)
    (batchRows : Nat) (lastKey : Option (List Text)) :
    (∃ err, fetchBatch tx spec scope batchRows lastKey = .error err) ∨
      fetchBatch tx spec scope batchRows lastKey =
        fetchBatch whole spec scope batchRows lastKey := by
  have htext : pageQuery tx spec lastKey = pageQuery whole spec lastKey := by
    unfold pageQuery orderBy
    rw [h.sanitize]
  unfold Cdc.fetchBatch
  rw [htext]
  rcases h.query (pageQuery whole spec lastKey) (pageArgs scope batchRows lastKey) with
    ⟨err, herr⟩ | ⟨result, err, hresult, herr⟩ | heq
  · exact .inl ⟨err, by rw [herr]⟩
  · exact .inl ⟨err, by rw [hresult]; simp only [herr]⟩
  · exact .inr (by rw [heq])

/-- A scan ends, and one that reports no error has given every row of the scope to the sink. -/
theorem Answers.scanFrom_of_weakens
    (h : Answers whole spec scope batchRows fields rows key reads) (htx : tx.Weakens whole)
    (hbatch : 1 ≤ batchRows) (sink : SnapshotRowSink) {fuel : Nat}
    {read rest : List (List (Option Text))} {lastKey : Option (List Text)}
    {given : List (List ScannedRow)}
    (hr : Reading rows key reads fields batchRows read rest lastKey given)
    (hfuel : rest.length < fuel) :
    ∃ batches result,
      scanFrom tx spec scope batchRows sink fuel lastKey given = some (batches, result) ∧
      (result = .ok () → batches.flatten = (inKeyOrder key rows).map (scannedRow fields)) := by
  induction fuel generalizing read rest lastKey given with
  | zero => exact absurd hfuel (Nat.not_lt_zero _)
  | succ fuel ih =>
    rcases htx.fetchBatch spec scope batchRows lastKey with
      ⟨err, herr⟩ | hfetch
    · exact ⟨given, .error err, by simp only [scanFrom, herr], fun hok => by cases hok⟩
    · rw [h.fetchBatch_eq hr] at hfetch
      cases hpage : (rest.take batchRows).getLast? with
      | none =>
        have hrest : rest = [] := by
          have htake := List.getLast?_eq_none_iff.1 hpage
          exact (List.take_eq_nil_iff.1 htake).resolve_left (by omega)
        refine ⟨given, .ok (), ?_, fun _ => hr.whole hrest⟩
        simp only [scanFrom, hfetch, List.getLast?_map, hpage, Option.map_none]
      | some last =>
        obtain ⟨texts, htexts, hr'⟩ := h.reading_page hr hpage
        have hdrop : (rest.drop batchRows).length = rest.length - batchRows := List.length_drop ..
        have hlen : (rest.take batchRows).length = min batchRows rest.length := List.length_take ..
        have hpos : 0 < rest.length :=
          List.length_pos_of_mem (List.mem_of_mem_take (List.mem_of_getLast? hpage))
        cases hsink : sink given ((rest.take batchRows).map (scannedRow fields)) with
        | some err =>
          refine ⟨given ++ [(rest.take batchRows).map (scannedRow fields)], .error err, ?_,
            fun hok => by cases hok⟩
          simp only [scanFrom, hfetch, List.getLast?_map, hpage, Option.map_some, hsink]
        | none =>
          by_cases hshort : (rest.take batchRows).length < batchRows
          · have hunread : rest.drop batchRows = [] := List.eq_nil_of_length_eq_zero (by omega)
            refine ⟨_, .ok (), ?_, fun _ => hr'.whole hunread⟩
            simp only [scanFrom, hfetch, List.getLast?_map, hpage, Option.map_some, hsink, htexts,
              List.length_map, hshort, if_true]
          · obtain ⟨batches, result, hscan, hends⟩ := ih hr' (by omega)
            refine ⟨batches, result, ?_, hends⟩
            simp only [scanFrom, hfetch, List.getLast?_map, hpage, Option.map_some, hsink, htexts,
              List.length_map, hshort, if_false]
            exact hscan

end Scan

section Reading

variable {κ : Type} [LinearOrder κ] {config : FullReaderConfig} {parseLSN : String → Option Nat}
  {spec : ProjectionSpec} {scope : Text} {table : ScopeTable κ} {own : Own} {m : PgServer}
  {sink : SnapshotRowSink} {fuel : Nat} {F : GoError → World → Prop}

/-- What the sink was given so far. -/
def Own.gave (own : Own) (batches : List (List ScannedRow)) : Own :=
  { own with delivered := own.delivered ++ batches }

/-- The session's side with its transaction as `tx`. -/
def Own.inTx (own : Own) (tx : Option OpenTx) : Own := { own with tx := tx }

theorem scanScope_meets {conn : Nat} {sees : Set UInt64} (hconn : conn ∈ own.conns)
    (hbatch : 0 < config.snapshotBatchRows) (hfuel : (table.rows sees).length < fuel) :
    Meets (postgres config parseLSN spec scope table)
      (At (own.inTx (some ⟨conn, some sees⟩)) m)
      (Session.scanScope config spec scope sink fuel conn)
      (fun _ w => ∃ batches, batches.flatten = table.scanned sees ∧
        At ((own.inTx (some ⟨conn, some sees⟩)).gave batches) m w)
      (fun _ w => ∃ batches, At ((own.inTx (some ⟨conn, some sees⟩)).gave batches) m w) := by
  refine Meets.bind (Q := fun tx w => (∃ whole,
    Answers whole spec scope config.snapshotBatchRows.toNat table.fields (table.rows sees)
      table.key table.reads ∧ tx.Weakens whole) ∧ At (own.inTx (some ⟨conn, some sees⟩)) m w)
    (meets_call fun now hnow => ⟨⟨hconn, sees, rfl⟩, fun tx w' hr => ?_⟩)
    fun tx => Meets.of_fact fun hanswers => ?_
  · obtain ⟨rfl, sees', whole, hsees, hwhole, hweakens⟩ := hr
    cases hsees
    exact ⟨⟨whole, hwhole, hweakens⟩, rfl, hnow⟩
  · obtain ⟨whole, hwhole, hweakens⟩ := hanswers
    have hlen : (inKeyOrder table.key (table.rows sees)).length < fuel := by
      rw [(inKeyOrder_perm _ _).length_eq]
      exact hfuel
    obtain ⟨batches, result, hscan, hall⟩ :=
      hwhole.scanFrom_of_weakens hweakens (by omega) sink .start hlen
    have hscanned : scanScopedRows tx spec scope config.snapshotBatchRows.toNat sink fuel =
      some (batches, result) := hscan
    rw [hscanned]
    refine Meets.bind (Q := fun _ => At ((own.inTx (some ⟨conn, some sees⟩)).gave batches) m)
      (meets_call fun now hnow => ⟨trivial, fun _ w' hr => ?_⟩) fun _ => ?_
    · cases hr
      exact ⟨rfl, hnow⟩
    · cases result with
      | error err => exact Meets.throw fun _ hw => ⟨batches, hw⟩
      | ok _ => exact Meets.pure fun _ hw => ⟨batches, hall rfl, hw⟩

/-- The transaction's snapshot is fixed: the imported one, or one that is taken now. -/
theorem currentSnapshot_meets {conn : Nat} {imported : Option (Set UInt64)}
    (hconn : conn ∈ own.conns) :
    Meets (postgres config parseLSN spec scope table) (At (own.inTx (some ⟨conn, imported⟩)) m)
      (Session.call (.currentSnapshot conn))
      (Either (fun text w => ∃ now, (m.Evolves now ∧ ∀ v, parseVisibility text = .ok v →
            ∀ xid, v.Sees xid ↔ xid ∈ imported.getD now.finished) ∧
          At (own.inTx (some ⟨conn, some (imported.getD now.finished)⟩)) now w)
        fun _ => At (own.inTx (some ⟨conn, imported⟩)) m)
      F := by
  refine meets_call fun now hnow => ⟨⟨hconn, imported, rfl⟩, ?_⟩
  rintro (failure | text) w' hr
  · cases hr
    exact ⟨rfl, hnow⟩
  · obtain ⟨sees, hsees, rfl, hv⟩ := hr
    have heq : sees = imported.getD now.finished := by
      rcases hsees with hsees | ⟨hsees, rfl⟩
      · cases hsees
        rfl
      · cases hsees
        rfl
    subst heq
    exact ⟨now, ⟨hnow, hv⟩, .here _ now⟩

/-- The name is that of a snapshot exported for the session and still to be imported, or empty. -/
def Own.CanImport (own : Own) (name : String) : Option (Set UInt64) → Prop
  | none => name = ""
  | some sees => name ≠ "" ∧ ∃ source ∈ own.conns, own.exported = some ⟨source, name, sees⟩

theorem adoptSnapshot_meets {conn : Nat} {name : String} {imported : Option (Set UInt64)}
    (hconn : conn ∈ own.conns) (himport : own.CanImport name imported) :
    Meets (postgres config parseLSN spec scope table) (At (own.inTx (some ⟨conn, none⟩)) m)
      (Session.adoptSnapshot conn name) (fun _ => At (own.inTx (some ⟨conn, imported⟩)) m)
      (fun _ => At (own.inTx (some ⟨conn, none⟩)) m) := by
  cases imported with
  | none =>
    cases himport
    exact Meets.pure fun _ hw => hw
  | some sees =>
    obtain ⟨hne, source, hsource, hexported⟩ := himport
    unfold Session.adoptSnapshot
    rw [if_neg hne]
    refine Meets.guard (fun _ hw => hw) fun _ => ?_
    refine Meets.bind (Q := Either (fun _ => At (own.inTx (some ⟨conn, some sees⟩)) m)
      fun _ => At (own.inTx (some ⟨conn, none⟩)) m)
      (meets_call fun now hnow => ⟨⟨hconn, rfl, source, sees, hsource, hexported⟩, ?_⟩) ?_
    · rintro (failure | _) w' hr
      · cases hr
        exact ⟨rfl, hnow⟩
      · obtain ⟨source', sees', hexported', rfl⟩ := hr
        cases hexported.symm.trans hexported'
        exact ⟨rfl, hnow⟩
    · rintro (failure | _)
      · exact Meets.throw fun _ hw => hw
      · exact Meets.pure fun _ hw => hw

/-- Rows were read as they are for the transactions that `v` lets be seen: those of the import, or
those that had finished at some moment `now`. -/
def ReadRows (table : ScopeTable κ) (own : Own) (m : PgServer) (imported : Option (Set UInt64))
    (v : Visibility) (w : World) : Prop :=
  ∃ now batches, m.Evolves now ∧ v.Bounded ∧
    (∀ xid, v.Sees xid ↔ xid ∈ imported.getD now.finished) ∧
    batches.flatten = table.scanned (imported.getD now.finished) ∧ At (own.gave batches) now w

/-- A transaction that failed has left nothing but its rows. -/
def TxFailed (own : Own) (m : PgServer) (w : World) : Prop :=
  ∃ tx batches, At ((own.inTx tx).gave batches) m w

theorem At.txFailed {tx : Option OpenTx} {w : World} (hw : At (own.inTx tx) m w) :
    TxFailed own m w := by
  refine ⟨tx, [], ?_⟩
  unfold Own.gave
  rw [List.append_nil]
  exact hw

theorem readInTx_meets {conn : Nat} {name : String} {imported : Option (Set UInt64)}
    (hconn : conn ∈ own.conns) (himport : own.CanImport name imported)
    (hbatch : 0 < config.snapshotBatchRows)
    (hfuel : ∀ sees, (table.rows sees).length < fuel) :
    Meets (postgres config parseLSN spec scope table) (At (own.inTx (some ⟨conn, none⟩)) m)
      (Session.readInTx config spec scope sink fuel conn name)
      (ReadRows table (own.inTx none) m imported) (fun _ => TxFailed own m) := by
  refine Meets.bind ((adoptSnapshot_meets hconn himport).conseq (fun _ h => h) (fun _ _ h => h)
    fun _ w hw => hw.txFailed) fun _ => ?_
  refine Meets.bind (currentSnapshot_meets hconn) fun answer => ?_
  cases answer with
  | error failure => exact Meets.throw fun w hw => hw.txFailed
  | ok text =>
    refine Meets.of_exists fun now => Meets.of_fact fun hfixed => ?_
    obtain ⟨hnow, hsees⟩ := hfixed
    have hfailed : ∀ tx w, At (own.inTx tx) now w → TxFailed own m w := fun tx w hw =>
      (hw.since hnow).txFailed
    rw [classified_ok_bind]
    cases hparse : parseVisibility text with
    | error err => exact Meets.throw fun w hw => hfailed _ w hw
    | ok v =>
      refine Meets.bind ((scanScope_meets hconn hbatch (hfuel _)).conseq (fun _ h => h)
        (fun _ _ h => h) ?_) fun _ => Meets.of_exists fun batches => Meets.of_fact fun hrows => ?_
      · rintro e w ⟨batches, hw⟩
        exact ⟨_, batches, hw.since hnow⟩
      · refine Meets.bind (Q := Either (fun _ => At ((own.inTx none).gave batches) now)
          fun _ => TxFailed own m)
          (meets_call fun now' hnow' => ⟨⟨hconn, _, rfl⟩, ?_⟩) ?_
        · rintro (failure | _) w' hr
          · cases hr
            exact ⟨_, batches, rfl, hnow.trans hnow'⟩
          · cases hr
            exact ⟨rfl, hnow'⟩
        · rintro (failure | _)
          · exact Meets.throw fun _ hw => hw
          · exact Meets.pure fun w hw =>
              ⟨now, batches, hnow, parseVisibility_bounded hparse, hsees v hparse, hrows, hw⟩

/-- Rolling back, which does nothing once the transaction is committed. -/
theorem ensures_rollback {conn : Nat} {tx : Option OpenTx} {batches : List (List ScannedRow)}
    {w : World} (hconn : conn ∈ own.conns) (hw : At ((own.inTx tx).gave batches) m w)
    {α : Type} {result : Except GoError α} {Q : Except GoError α → World → Prop}
    (h : ∀ w', At ((own.inTx none).gave batches) m w' → Q result w') :
    Dialogue.Ensures (postgres config parseLSN spec scope table) Q
      (do Dialogue.ask (Call.rollbackTx conn); return result) w := by
  intro w₁ hdrift
  have hown : w₁.own = (own.inTx tx).gave batches := hdrift.1.trans hw.1
  refine ⟨?_, fun _ w₂ hr => ?_⟩
  · show conn ∈ w₁.own.conns
    rw [hown]
    exact hconn
  · cases hr
    refine h _ ⟨?_, hw.2.trans hdrift.2⟩
    rw [hown]
    rfl

theorem readSnapshot_meets {conn : Nat} {name : String} {imported : Option (Set UInt64)}
    (hconn : conn ∈ own.conns) (htx : own.tx = none) (himport : own.CanImport name imported)
    (hbatch : 0 < config.snapshotBatchRows)
    (hfuel : ∀ sees, (table.rows sees).length < fuel) :
    Meets (postgres config parseLSN spec scope table) (At own m)
      (Session.readSnapshot config spec scope sink fuel conn name)
      (ReadRows table own m imported) (fun _ w => ∃ batches, At (own.gave batches) m w) := by
  have hidle : own.inTx none = own := by
    rw [Own.inTx, ← htx]
  refine Meets.bind (Q := Either (fun _ => At (own.inTx (some ⟨conn, none⟩)) m)
    fun _ => At (own.inTx none) m)
    (meets_call fun now hnow => ⟨⟨hconn, htx⟩, ?_⟩) ?_
  · rintro (failure | _) w' hr
    · cases hr
      exact ⟨hidle.symm, hnow⟩
    · cases hr
      exact ⟨rfl, hnow⟩
  · rintro (failure | _)
    · refine Meets.throw fun w hw => ⟨[], ?_⟩
      rw [hidle] at hw
      unfold Own.gave
      rw [List.append_nil]
      exact hw
    · refine Meets.deferring (readInTx_meets hconn himport hbatch hfuel) ?_ ?_
      · rintro v w ⟨now, batches, hnow, hbounded, hsees, hrows, hw⟩
        refine ensures_rollback hconn hw fun w' hw' => ?_
        rw [hidle] at hw'
        exact ⟨now, batches, hnow, hbounded, hsees, hrows, hw'⟩
      · rintro e w ⟨tx, batches, hw⟩
        refine ensures_rollback hconn hw fun w' hw' => ?_
        rw [hidle] at hw'
        exact ⟨batches, hw'⟩

end Reading

end Watchd.Cdc
