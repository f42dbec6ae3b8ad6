import Watchd.Cdc.Sessions

/-!
# What a snapshot fails with

`Snapshot` raises a handful of the package's errors, and passes on what its
connections, its queries and its sink give it.  So an error of any other kind that it
returns was given to it.

`snapshot_raises` says this of every run.
-/

namespace Watchd.Cdc

open Watchd.Lib

/-- The errors that `Snapshot` itself makes. -/
def snapshotFaults : List Sentinel :=
  [.invalidReaderConfig, .postgresServer, .insufficientPrivileges, .slotInvalidated, .slotInUse,
    .slotNotFound, .replicationEnded, .snapshotWindowClosed]

/-! ## Functions -/

/-- A computation fails only with errors that are not `target`. -/
def Spares {α : Type} (target : Sentinel) (result : Except GoError α) : Prop :=
  ∀ err, result = .error err → err.is target = false

section Pure

variable {α β : Type} {target : Sentinel}

theorem Spares.ok (a : α) : Spares target (.ok a) := fun _ h => by cases h

theorem Spares.error {err : GoError} (h : err.is target = false) :
    Spares target (.error err : Except GoError α) := by
  rintro _ ⟨⟩
  exact h

theorem Spares.bind {x : Except GoError α} {f : α → Except GoError β} (hx : Spares target x)
    (hf : ∀ a, Spares target (f a)) : Spares target (x >>= f) := by
  cases x with
  | error err => exact fun e h => hx e (by cases h; rfl)
  | ok a => exact hf a

theorem Spares.foldlM {f : β → α → Except GoError β} (hf : ∀ b a, Spares target (f b a))
    (as : List α) (b : β) : Spares target (as.foldlM f b) := by
  induction as generalizing b with
  | nil => exact .ok b
  | cons a as ih =>
    rw [List.foldlM_cons]
    exact .bind (hf b a) fun b => ih b

variable (htarget : target ∉ snapshotFaults)
include htarget

theorem sentinel_spares {s : Sentinel} (hs : s ∈ snapshotFaults) :
    (GoError.sentinel s).is target = false := by
  refine beq_eq_false_iff_ne.2 ?_
  rintro rfl
  exact htarget hs

theorem errorf_spares {s : Sentinel} (hs : s ∈ snapshotFaults) (after : String) :
    (errorf s after).is target = false :=
  sentinel_spares htarget hs

theorem classifySQLState_spares (sqlState message : String) :
    (classifySQLState sqlState message).is target = false := by
  have hspares : ∀ {s : Sentinel}, s ∈ snapshotFaults → ∀ retryable,
      (GoError.classified (.sentinel s) retryable sqlState).is target = false :=
    fun hs _ => sentinel_spares htarget hs
  unfold classifySQLState
  split_ifs <;> exact hspares (by decide) _

theorem checkPrimaryKey_spares (seen columns : List String) :
    Spares target (checkPrimaryKey seen columns) := by
  induction columns generalizing seen with
  | nil => exact .ok seen
  | cons column columns ih =>
    unfold checkPrimaryKey
    split_ifs
    · exact .error (errorf_spares htarget (by decide) _)
    · exact .error (errorf_spares htarget (by decide) _)
    · exact ih _

theorem validateProjectionSpecConfig_spares (spec : ProjectionSpec) :
    Spares target (validateProjectionSpecConfig spec) := by
  unfold validateProjectionSpecConfig
  split_ifs
  · exact .error (sentinel_spares htarget (by decide))
  · exact .error (errorf_spares htarget (by decide) _)
  · cases hkey : checkPrimaryKey [] spec.primaryKey with
    | error err => exact .error (checkPrimaryKey_spares htarget _ _ err hkey)
    | ok seen =>
      dsimp only
      split_ifs
      · exact .ok ()
      · exact .error (errorf_spares htarget (by decide) _)

theorem validateSourceProjectionSpec_spares (config : FullReaderConfig) (spec : ProjectionSpec) :
    Spares target (Session.validateSourceProjectionSpec config spec) := by
  refine .bind (validateProjectionSpecConfig_spares htarget spec) fun _ => ?_
  split_ifs
  · exact .error (errorf_spares htarget (by decide) _)
  · exact .ok ()

theorem parseVisibility_spares (text : String) : Spares target (parseVisibility text) := by
  have hinvalid : ∀ (after : String) (α : Type),
      Spares target (.error (errorf .postgresServer after) : Except GoError α) :=
    fun after _ => .error (errorf_spares htarget (by decide) after)
  unfold parseVisibility
  split
  · split
    · exact hinvalid _ _
    · split
      · exact hinvalid _ _
      · split
        · exact hinvalid _ _
        · refine .bind (.foldlM (fun running field => ?_) _ _) fun _ => .ok _
          unfold parseRunning
          dsimp only
          split
          · exact hinvalid _ _
          · split_ifs
            · exact hinvalid _ _
            · exact .ok _
  · exact hinvalid _ _

theorem projectionShape_spares {fails : ShapeQuery → Option GoError}
    (hfails : ∀ q err, fails q = some err → err.is target = false) (catalog : Catalog)
    (spec : ProjectionSpec) : Spares target (projectionShape fails catalog spec) := by
  have hqueried : ∀ {α : Type} (q : ShapeQuery) (answer : α),
      Spares target (queried fails q answer) := by
    intro α q answer
    unfold queried
    split
    · next err herr => exact .error (hfails q err herr)
    · exact .ok answer
  refine .bind (hqueried .relation _) fun found => ?_
  obtain ⟨oid, published⟩ := found
  dsimp only
  split
  · exact .error (errorf_spares htarget (by decide) _)
  · refine .bind (hqueried .columns _) fun columns => .bind ?_ fun key => .ok _
    unfold identityKey
    split_ifs
    · exact .ok _
    · exact .ok _
    · exact hqueried .replicaIndex _
    · exact .ok _

/-! ## The scan -/

/-- No query of the transaction fails with the target. -/
structure Tx.Spares (target : Sentinel) (tx : Tx) : Prop where
  query : ∀ text args err, tx.query text args = .error err → err.is target = false
  rows : ∀ text args result err, tx.query text args = .ok result → result.err = some err →
    err.is target = false

theorem keyTexts_spares (primaryKey : List String) (row : ScannedRow) :
    Spares target (keyTexts primaryKey row) := by
  unfold keyTexts
  induction primaryKey with
  | nil => exact .ok _
  | cons column columns ih =>
    rw [List.mapM_cons]
    refine .bind ?_ fun text => .bind ih fun texts => .ok _
    split
    · exact .ok _
    · exact .error (errorf_spares htarget (by decide) _)

omit htarget in
theorem fetchBatch_spares {tx : Tx} (htx : tx.Spares target) (spec : ProjectionSpec) (scope : Text)
    (batchRows : Nat) (lastKey : Option (List Text)) :
    Spares target (fetchBatch tx spec scope batchRows lastKey) := by
  unfold fetchBatch
  split
  · next err herr => exact .error (htx.query _ _ err herr)
  · next result hresult =>
    split
    · next err herr => exact .error (htx.rows _ _ result err hresult herr)
    · exact .ok _

theorem scanFrom_spares {tx : Tx} (htx : tx.Spares target) {sink : SnapshotRowSink}
    (hsink : ∀ given batch err, sink given batch = some err → err.is target = false)
    (spec : ProjectionSpec) (scope : Text) (batchRows fuel : Nat) {lastKey : Option (List Text)}
    {given batches : List (List ScannedRow)} {result : Except GoError Unit}
    (h : scanFrom tx spec scope batchRows sink fuel lastKey given = some (batches, result)) :
    Spares target result := by
  induction fuel generalizing lastKey given with
  | zero => cases h
  | succ fuel ih =>
    unfold scanFrom at h
    split at h
    · next err herr =>
      cases h
      exact .error (fetchBatch_spares htx spec scope batchRows lastKey err herr)
    · split at h
      · cases h
        exact .ok ()
      · split at h
        · next err herr =>
          cases h
          exact .error (hsink _ _ err herr)
        · split at h
          · next err herr =>
            cases h
            exact .error (keyTexts_spares htarget _ _ err herr)
          · split at h
            · cases h
              exact .ok ()
            · exact ih h

end Pure

/-! ## Sessions -/

/-- The failure does not already stand for `target`. -/
def Failure.Spares (target : Sentinel) : Failure → Prop
  | .pg .. => True
  | .other err => err.is target = false

/-- An answer brings no error of the target. -/
def Call.Spares (target : Sentinel) : (c : Call) → Answer c → Prop
  | .connect _, r => ∀ failure, r = .error failure → failure.Spares target
  | .wait, r => ∀ err, r = some err → err.is target = false
  | .publication _, r => ∀ failure, r = .error failure → failure.Spares target
  | .projectionTable _, r => ∀ failure, r = .error failure → failure.Spares target
  | .primaryKey _, r => ∀ failure, r = .error failure → failure.Spares target
  | .published _, r => ∀ failure, r = .error failure → failure.Spares target
  | .shape _, r => ∀ q err, r.1 q = some err → err.is target = false
  | .slot _, r => ∀ failure, r = .error failure → failure.Spares target
  | .currentWALInsertLSN _, r => ∀ failure, r = .error failure → failure.Spares target
  | .currentSnapshot _, r => ∀ failure, r = .error failure → failure.Spares target
  | .scan _, tx => tx.Spares target
  | .beginTx _, r => ∀ failure, r = .error failure → failure.Spares target
  | .setSnapshot _ _, r => ∀ failure, r = .error failure → failure.Spares target
  | .commitTx _, r => ∀ failure, r = .error failure → failure.Spares target
  | _, _ => True

/-- Any surroundings whose answers bring no error of the target. -/
def sparing (target : Sentinel) : Environment Call Answer Unit where
  Drifts _ _ := True
  Accepts _ _ := True
  Replies _ c r _ := c.Spares target r

/-- The session fails only with errors that are not the target. -/
def Session.Spares {α : Type} (target : Sentinel) (p : Session α) : Prop :=
  Meets (sparing target) (fun _ => True) p (fun _ _ => True) fun err _ => err.is target = false

namespace Session

section Rules

variable {α β : Type} {target : Sentinel}

theorem Spares.pure (a : α) : Spares target (Pure.pure a : Session α) :=
  Meets.pure fun _ _ => trivial

theorem Spares.throw {err : GoError} (h : err.is target = false) :
    Spares target (throw err : Session α) :=
  Meets.throw fun _ _ => h

theorem Spares.bind {p : Session α} {f : α → Session β} (hp : Spares target p)
    (hf : ∀ a, Spares target (f a)) : Spares target (p >>= f) :=
  Meets.bind hp hf

theorem Spares.guard {c : Prop} [Decidable c] {err : GoError} {p : Session α}
    (herr : err.is target = false) (hp : Spares target p) :
    Spares target (if c then MonadExcept.throw err else p) :=
  Meets.guard (fun _ _ => herr) fun _ => hp

/-- A call, whose answer brings no error of the target. -/
theorem Spares.call (c : Call) {f : Answer c → Session β}
    (hf : ∀ r, c.Spares target r → Spares target (f r)) : Spares target (Session.call c >>= f) := by
  refine Meets.bind (Q := fun r _ => c.Spares target r) (Meets.query fun _ _ _ _ => ?_) fun r => ?_
  · exact ⟨trivial, fun r _ hr => hr⟩
  · exact fun s hr => hf r hr s trivial

/-- Closing a connection or a transaction changes nothing about a result. -/
theorem Spares.after {p : Session α} (hp : Spares target p) (c : Call) :
    Spares target (deferring p fun result => do
      let _ ← Dialogue.ask c
      return result) := by
  refine Meets.deferring hp ?_ ?_
  · exact fun a s h s₁ _ => ⟨trivial, fun r s₂ _ => trivial⟩
  · exact fun err s h s₁ _ => ⟨trivial, fun r s₂ _ => h⟩

variable (htarget : target ∉ snapshotFaults)
include htarget

theorem classified_spares {answer : Except Failure α}
    (h : ∀ failure, answer = .error failure → failure.Spares target) :
    Spares target (classified answer) := by
  cases answer with
  | ok a => exact .pure a
  | error failure =>
    cases failure with
    | pg sqlState message text => exact .throw (classifySQLState_spares htarget sqlState message)
    | other err => exact .throw (h _ rfl)

theorem classifyConnectionError_spares {failure : Failure} (h : failure.Spares target) :
    (classifyConnectionError failure).is target = false := by
  cases failure with
  | pg sqlState message text =>
    simp only [classifyConnectionError]
    split
    · exact classifySQLState_spares htarget sqlState message
    · rfl
  | other err =>
    simp only [classifyConnectionError]
    split_ifs
    · exact h
    · exact h
    · rfl

theorem connect_spares (kind : ConnKind) : Spares target (connect kind) := by
  refine .call _ fun answer hanswer => ?_
  cases answer with
  | ok conn => exact .pure conn
  | error failure =>
    refine .call _ fun done _ => ?_
    split
    · exact .throw rfl
    · exact .throw (classifyConnectionError_spares htarget (hanswer failure rfl))

theorem withManagement_spares {body : Nat → Session α} (hbody : ∀ conn, Spares target (body conn)) :
    Spares target (withManagement body) :=
  .bind (connect_spares htarget _) fun management => (hbody management).after _

theorem validatePublication_spares (config : FullReaderConfig) (conn : Nat) :
    Spares target (validatePublication config conn) := by
  refine .call _ fun answer hanswer => .bind (classified_spares htarget hanswer) fun found => ?_
  cases found with
  | none => exact .throw (errorf_spares htarget (by decide) _)
  | some flags =>
    refine .guard (errorf_spares htarget (by decide) _) ?_
    exact .guard (errorf_spares htarget (by decide) _) (.pure ())

theorem projectionPrimaryKey_spares (conn : Nat) (spec : ProjectionSpec) :
    Spares target (projectionPrimaryKey conn spec) := by
  refine .call _ fun answer hanswer => .bind (classified_spares htarget hanswer) fun key => ?_
  exact .guard (errorf_spares htarget (by decide) _) (.pure key)

theorem validateProjectionSpec_spares (config : FullReaderConfig) (conn : Nat)
    (spec : ProjectionSpec) : Spares target (validateProjectionSpec config conn spec) := by
  have hmisfit : ∀ after, (errorf .invalidReaderConfig after).is target = false :=
    errorf_spares htarget (by decide)
  refine .call _ fun answer hanswer => .bind (classified_spares htarget hanswer) fun found => ?_
  refine .guard (hmisfit _) (.guard (hmisfit _) ?_)
  refine .bind (projectionPrimaryKey_spares htarget conn spec) fun key => .guard (hmisfit _) ?_
  refine .call _ fun answer hanswer => .bind (classified_spares htarget hanswer) fun published => ?_
  refine .guard (hmisfit _) (.call _ fun answer hfails => ?_)
  obtain ⟨fails, catalog⟩ := answer
  cases hshape : projectionShape fails catalog spec with
  | error err =>
    dsimp only
    rw [hshape]
    exact .throw (projectionShape_spares htarget hfails catalog spec err hshape)
  | ok shape =>
    dsimp only
    rw [hshape]
    exact .call _ fun _ _ => .pure ()

theorem lookupSlot_spares (conn : Nat) : Spares target (lookupSlot conn) :=
  .call _ fun _ hanswer => classified_spares htarget hanswer

theorem slotLSN_spares (parseLSN : String → Option Nat) (text : String) :
    Spares target (slotLSN parseLSN text) := by
  unfold slotLSN
  split
  · exact .throw (sentinel_spares htarget (by decide))
  · exact .pure _

variable (config : FullReaderConfig) (parseLSN : String → Option Nat) (spec : ProjectionSpec)
  (scope : Text) {sink : SnapshotRowSink} (fuel : Nat)
  (hsink : ∀ given batch err, sink given batch = some err → err.is target = false)
include hsink

theorem scanScope_spares (conn : Nat) :
    Spares target (scanScope config spec scope sink fuel conn) := by
  refine .call _ fun tx htx => ?_
  split
  · exact .call _ fun never _ => never.elim
  · next batches result hscan =>
    have hspares := scanFrom_spares htarget htx hsink spec scope _ fuel hscan
    refine .call _ fun _ _ => ?_
    cases result with
    | error err => exact .throw (hspares err rfl)
    | ok _ => exact .pure ()

theorem readInTx_spares (conn : Nat) :
    Spares target (readInTx config spec scope sink fuel conn "") := by
  refine .bind (.pure ()) fun _ => .call _ fun answer hanswer => ?_
  refine .bind (classified_spares htarget hanswer) fun text => ?_
  cases hparse : parseVisibility text with
  | error err => exact .throw (parseVisibility_spares htarget text err hparse)
  | ok visibility =>
    refine .bind (scanScope_spares htarget config spec scope fuel hsink conn) fun _ => ?_
    exact .call _ fun answer hanswer =>
      .bind (classified_spares htarget hanswer) fun _ => .pure visibility

theorem readSnapshot_spares (conn : Nat) :
    Spares target (readSnapshot config spec scope sink fuel conn "") := by
  refine .call _ fun answer hanswer => .bind (classified_spares htarget hanswer) fun _ => ?_
  exact (readInTx_spares htarget config spec scope fuel hsink conn).after _

omit hsink in
theorem checkReplayWindow_spares (conn cursor : Nat) :
    Spares target (checkReplayWindow parseLSN conn cursor) := by
  refine .bind (lookupSlot_spares htarget conn) fun found => ?_
  cases found with
  | none => exact .throw (sentinel_spares htarget (by decide))
  | some slot =>
    refine .bind (slotLSN_spares htarget parseLSN _) fun restartLSN => ?_
    exact .guard (sentinel_spares htarget (by decide)) (.pure ())

theorem snapshotWith_spares :
    Spares target (snapshotWith config parseLSN spec scope sink fuel) := by
  unfold snapshotWith
  cases hspec : validateSourceProjectionSpec config spec with
  | error err => exact .throw (validateSourceProjectionSpec_spares htarget config spec err hspec)
  | ok _ =>
    refine withManagement_spares htarget fun management => ?_
    refine .bind (validatePublication_spares htarget config management) fun _ => ?_
    refine .bind (validateProjectionSpec_spares htarget config management spec) fun _ => ?_
    refine .bind (lookupSlot_spares htarget management) fun found => ?_
    cases found with
    | none => exact .throw (sentinel_spares htarget (by decide))
    | some slot =>
      refine .guard (sentinel_spares htarget (by decide)) (.call _ fun answer hanswer => ?_)
      refine .bind (classified_spares htarget hanswer) fun text => ?_
      cases parseLSN text with
      | none => exact .throw (errorf_spares htarget (by decide) _)
      | some cursor =>
        refine .bind
          (readSnapshot_spares htarget config spec scope fuel hsink management) fun v => ?_
        exact .bind (checkReplayWindow_spares htarget parseLSN management cursor) fun _ => .pure _

end Rules

end Session

/-- **`Snapshot` makes only errors of its own kinds.**  Whatever its surroundings answer: an error
that `Snapshot` returns is one of a misconfigured source, of the server, of the slot or of the
replay window, unless a connection, a query or the sink gave it another.  No snapshot fails with the
fault of a request, an unknown projection or a bad cursor, and none reports that the source has
stopped. -/
theorem snapshot_raises {target : Sentinel} (htarget : target ∉ snapshotFaults)
    {config : FullReaderConfig} {parseLSN : String → Option Nat} {spec : ProjectionSpec}
    {scope : Text} {fuel : Nat} {sink : Option SnapshotRowSink}
    (hsink : ∀ f ∈ sink, ∀ given batch err, f given batch = some err → err.is target = false)
    {err : GoError} (hrun : Dialogue.Runs (sparing target) ()
      (Session.snapshot config parseLSN spec scope fuel sink).run (.error err) ()) :
    err.is target = false := by
  have hspares : Session.Spares target (Session.snapshot config parseLSN spec scope fuel sink) := by
    cases sink with
    | none => exact .throw rfl
    | some sink =>
      exact Session.snapshotWith_spares htarget config parseLSN spec scope fuel (hsink sink rfl)
  exact (hspares () trivial).of_runs hrun

namespace Demo

/-- A table of members by tenant. -/
def membersSpec : ProjectionSpec :=
  ⟨"main", "public", "members", "tenant_id", ["tenant_id", "user_id"]⟩

/-- What a dial to a closed port fails with. -/
def refusedDial : GoError := .new "dial tcp: connection refused"

/-- The database cannot be reached. -/
theorem snapshot_unreachable (target : Sentinel) (sink : SnapshotRowSink) :
    Dialogue.Runs (sparing target) ()
      (Session.snapshot defaults (fun _ => none) membersSpec [0x37] 5 (some sink)).run
      (.error (classifyConnectionError (.other refusedDial))) () := by
  have hspec : Session.validateSourceProjectionSpec defaults membersSpec = .ok () := by decide
  have hdrift : (sparing target).Drifts () () := trivial
  have hdial : (sparing target).Replies () (.connect .management)
      (.error (.other refusedDial)) () := by
    rintro _ ⟨⟩
    rfl
  have hctx : (sparing target).Replies () .ctxDone false () := trivial
  unfold Session.snapshot Session.withSink Session.snapshotWith
  dsimp only
  rw [hspec]
  exact .call hdrift hdial (.call hdrift hctx (.pure _ ()))

end Demo

theorem snapshot_raises_unreachable :
    ∃ err, Dialogue.Runs (sparing .invalidCursor) ()
        (Session.snapshot Demo.defaults (fun _ => none) Demo.membersSpec [0x37] 5
          (some fun _ _ => none)).run (.error err) () ∧
      err.isErr errSourceUnavailable = true ∧ err.is .invalidCursor = false := by
  have hrun := Demo.snapshot_unreachable .invalidCursor fun _ _ => none
  have hsink : ∀ f ∈ some (fun _ _ => none : SnapshotRowSink), ∀ given batch err,
      f given batch = some err → err.is .invalidCursor = false := by
    rintro _ ⟨⟩ given batch err ⟨⟩
  exact ⟨_, hrun, by decide, snapshot_raises (by decide) hsink hrun⟩

end Watchd.Cdc
