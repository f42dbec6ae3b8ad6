import Watchd.Cdc.Types

/-!
# Validation of projection specs

The static checks of `validateProjectionSpecConfig`.  The one that matters to
routing: the scope column is part of the configured primary key.

`scopeColumn_mem_primaryKey` states it.
-/

namespace Watchd.Cdc

/-- What an unquoted identifier may start with. -/
def identifierStart (c : Char) : Bool := ('a' ≤ c ∧ c ≤ 'z') ∨ c = '_'

/-- What an unquoted identifier may go on with. -/
def identifierPart (c : Char) : Bool := identifierStart c || ('0' ≤ c ∧ c ≤ '9') || c = '$'

/-- `postgresIdentifier.MatchString`: `^[a-z_][a-z0-9_$]{0,62}$`. -/
def postgresIdentifier (s : String) : Bool :=
  match s.toList with
  | [] => false
  | c :: cs => identifierStart c && cs.length ≤ 62 && cs.all identifierPart

/-- The loop over the primary-key columns; returns the set `seen` at its end. -/
def checkPrimaryKey (seen : List String) : List String → Except GoError (List String)
  | [] => .ok seen
  | column :: columns =>
    if !postgresIdentifier column ∨ column = "" then
      .error (errorf .invalidReaderConfig
        ": projection primary-key columns must be unquoted PostgreSQL identifiers")
    else if column ∈ seen then
      .error (errorf .invalidReaderConfig
        (": projection primary key contains duplicate column " ++ quote column))
    else checkPrimaryKey (column :: seen) columns

/-- The checks of a spec that need no server. -/
def validateProjectionSpecConfig (spec : ProjectionSpec) : Except GoError Unit :=
  if spec.sourceID = "" ∨ spec.schema = "" ∨ spec.table = "" ∨ spec.scopeColumn = "" ∨
      spec.primaryKey.length = 0 then
    .error (.sentinel .invalidReaderConfig)
  else if !postgresIdentifier spec.schema ∨ !postgresIdentifier spec.table ∨
      !postgresIdentifier spec.scopeColumn then
    .error (errorf .invalidReaderConfig
      ": projection schema, table, and scope column must be unquoted PostgreSQL identifiers")
  else
    match checkPrimaryKey [] spec.primaryKey with
    | .error err => .error err
    | .ok seen =>
      if spec.scopeColumn ∈ seen then .ok ()
      else
        .error (errorf .invalidReaderConfig (": projection scope column " ++
          quote spec.scopeColumn ++ " must be part of the primary key"))

theorem checkPrimaryKey_mem {seen columns seen' : List String}
    (h : checkPrimaryKey seen columns = .ok seen') {column : String} :
    column ∈ seen' ↔ column ∈ seen ∨ column ∈ columns := by
  induction columns generalizing seen with
  | nil =>
    cases h
    simp
  | cons c columns ih =>
    unfold checkPrimaryKey at h
    split at h
    · cases h
    · split at h
      · cases h
      · rw [ih h, List.mem_cons, List.mem_cons]
        tauto

theorem checkPrimaryKey_nodup {seen columns seen' : List String}
    (h : checkPrimaryKey seen columns = .ok seen') :
    columns.Nodup ∧ ∀ column ∈ columns, column ∉ seen := by
  induction columns generalizing seen with
  | nil => simp
  | cons c columns ih =>
    unfold checkPrimaryKey at h
    split at h
    · cases h
    · split at h
      · cases h
      · next hnew =>
        obtain ⟨hnodup, hout⟩ := ih h
        refine ⟨List.nodup_cons.mpr ⟨fun hmem => hout c hmem List.mem_cons_self, hnodup⟩, ?_⟩
        intro column hmem hseen
        rcases List.mem_cons.mp hmem with rfl | hmem
        · exact hnew hseen
        · exact hout column hmem (List.mem_cons_of_mem _ hseen)

theorem validateProjectionSpecConfig_eq_ok {spec : ProjectionSpec}
    (h : validateProjectionSpecConfig spec = .ok ()) :
    ∃ seen, checkPrimaryKey [] spec.primaryKey = .ok seen ∧ spec.scopeColumn ∈ seen := by
  unfold validateProjectionSpecConfig at h
  split at h
  · cases h
  · split at h
    · cases h
    · cases hseen : checkPrimaryKey [] spec.primaryKey with
      | error err =>
        rw [hseen] at h
        cases h
      | ok seen =>
        rw [hseen] at h
        simp only at h
        split at h
        · next hmem => exact ⟨seen, rfl, hmem⟩
        · cases h

/-- An accepted spec's scope column is one of its primary-key columns. -/
theorem scopeColumn_mem_primaryKey {spec : ProjectionSpec}
    (h : validateProjectionSpecConfig spec = .ok ()) : spec.scopeColumn ∈ spec.primaryKey := by
  obtain ⟨seen, hseen, hmem⟩ := validateProjectionSpecConfig_eq_ok h
  simpa [checkPrimaryKey_mem hseen] using hmem

/-- An accepted spec names no primary-key column twice. -/
theorem primaryKey_nodup {spec : ProjectionSpec}
    (h : validateProjectionSpecConfig spec = .ok ()) : spec.primaryKey.Nodup := by
  obtain ⟨seen, hseen, -⟩ := validateProjectionSpecConfig_eq_ok h
  exact (checkPrimaryKey_nodup hseen).1

end Watchd.Cdc
