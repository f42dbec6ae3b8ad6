import Watchd.Cdc.Consume
import Watchd.Cdc.Validation
import Watchd.Watch.Delivery

/-!
# Routing a change to its row's scope

A change is routed by its key: the watchers of the scope that the key's scope
column names get it.  The key is the table's replica identity, while validation
asks for the scope column in the primary key; the two agree unless the replica
identity leaves primary-key columns out (`routable_iff`).
-/

namespace Watchd.Watch

open Watchd.Cdc Watchd.Lib

/-- The projection of a spec, as `New` makes it. -/
def Projection.of (spec : ProjectionSpec) : Projection := ⟨spec, spec.schema ++ "." ++ spec.table⟩

/-- Accepting `t` puts an item with `change` into the queue of watcher `w`. -/
def Hub.Hands (h : Hub) (t : Transaction) (change : Change) (w : WatcherId) : Prop :=
  ∃ item, ((h.acceptNew t).registry.cell w).queue = (h.registry.cell w).queue ++ [item] ∧
    change ∈ item.changes

/-- `change`, decoded from `msg`, reaches exactly the watchers of its row's scope. -/
structure Routable (spec : ProjectionSpec) (rm : RelationMessage) (msg : Message)
    (change : Change) : Prop where
  key : ∀ column ∈ spec.primaryKey,
    ∃ v, change.key.lookup column = some v ∧ msg.rowValue rm column = some v
  changes : ∀ (scope : Text) (t : Transaction), change ∈ t.changes →
    (change ∈ (Projection.of spec).changes scope t ↔
      msg.rowValue rm spec.scopeColumn = some scope)
  accept : ∀ s, Reaches machine anyStep s → ∀ t : Transaction, change ∈ t.changes →
    ∀ w ∈ (s.hub.acceptNew t).registry.watchers,
      (s.hub.registry.cell w).projection = Projection.of spec →
      (s.hub.Hands t change w ↔
        msg.rowValue rm spec.scopeColumn = some (s.hub.registry.cell w).scope)

/-! ## The hub hands a change over by `projection.changes` -/

theorem Hub.hands_iff {h : Hub} (hidx : Indexed h.registry) (hscratch : h.scratch = {})
    {t : Transaction} {change : Change} {w : WatcherId}
    (hw : w ∈ (h.acceptNew t).registry.watchers) :
    h.Hands t change w ↔ change ∈ (h.registry.cell w).changesOf t := by
  obtain ⟨-, -, hout, hin⟩ := h.acceptNew_outcome hidx hscratch t
  unfold Hub.Hands
  have hview : (h.acceptNew t).registry.view w =
      ((h.acceptNew t).registry.cell w, true) := Registry.view_eq.2 ⟨rfl, decide_eq_true hw⟩
  have hreg : w ∈ h.registry.watchers := by
    by_contra hn
    have hsame := (hout w hn).symm.trans hview
    exact hn (of_decide_eq_true (congrArg Prod.snd hsame))
  have ho := hin w hreg
  rw [hview] at ho
  generalize (h.acceptNew t).registry.cell w = c at ho ⊢
  cases ho with
  | unconcerned _ hnil => simp [hnil]
  | queued _ _ _ memo => simp

/-! ## Routing -/

section Routing

variable {spec : ProjectionSpec} {fails : ShapeQuery → Option GoError} {catalog : Catalog}
  {shape : RelationShape} {rm : RelationMessage}

/-- A change whose key holds its row's scope goes to that scope. -/
theorem mem_changes_iff {change : Change} {v scope : Text} {t : Transaction}
    (htable : change.table = (Projection.of spec).table)
    (hlookup : change.key.lookup spec.scopeColumn = some v) (hmem : change ∈ t.changes) :
    change ∈ (Projection.of spec).changes scope t ↔ v = scope := by
  have hat : change.keyAt spec.scopeColumn = v := by rw [Change.keyAt, hlookup, Option.getD_some]
  rw [Projection.changes, List.mem_filter, decide_eq_true_iff]
  constructor
  · intro h
    exact hat.symm.trans h.2.2
  · intro h
    exact ⟨hmem, htable, hat.trans h⟩

/-- **When a change can be routed to its row's scope.**  For an accepted spec, a baseline read for
its table and a relation that matches the baseline, a change the decoder makes of a row reaches
exactly the watchers of the row's scope, keyed by the whole primary key, if and only if the
replica identity includes the primary key. -/
theorem routable_iff (hspec : validateProjectionSpecConfig spec = .ok ())
    (hshape : projectionShape fails catalog spec = .ok shape)
    (htable : (shapeOfRelation rm).table = shape.table)
    (hdiff : shape.diff (shapeOfRelation rm) = "")
    {d d' : Decoder} (hknows : d.Knows rm) {reads : Option Reads} {msg : Message}
    (hrow : msg.row? = some rm.relationID) {pending : List Change} {change : Change}
    (hpending : d.pending = some pending) (hacc : d.consume reads msg = (d', .ok none))
    (hchange : d'.pending = some (pending ++ [change])) :
    Routable spec rm msg change ↔ catalog.CoversPrimaryKey spec := by
  have hnd := names_nodup_of_diff hshape hdiff
  obtain ⟨hkeyed, hname⟩ := hknows.keyed hnd hrow hpending hacc hchange
  have hscope := scopeColumn_mem_primaryKey hspec
  rw [Catalog.coversPrimaryKey_iff (List.ne_nil_of_mem hscope)]
  constructor
  · intro hrouted column hmem
    obtain ⟨v, hlookup, -⟩ := hrouted.key column hmem
    exact (mem_keyColumns_iff hshape hdiff).1 (hkeyed.mem_of_lookup hnd hlookup)
  · intro hall
    have hkey : ∀ column ∈ spec.primaryKey,
        ∃ v, change.key.lookup column = some v ∧ msg.rowValue rm column = some v :=
      fun column hmem =>
        hkeyed.lookup_of_mem hnd ((mem_keyColumns_iff hshape hdiff).2 (hall column hmem))
    obtain ⟨v, hlookup, hvalue⟩ := hkey _ hscope
    have htable' : change.table = (Projection.of spec).table :=
      hname.trans (htable.trans (projectionShape_eq hshape).1)
    have hchanges : ∀ (scope : Text) (t : Transaction), change ∈ t.changes →
        (change ∈ (Projection.of spec).changes scope t ↔
          msg.rowValue rm spec.scopeColumn = some scope) := by
      intro scope t hmem
      rw [mem_changes_iff htable' hlookup hmem, hvalue, Option.some.injEq]
    refine ⟨hkey, hchanges, fun s hs t hmem w hw hproj => ?_⟩
    have hinv := Reaches.inv hs
    rw [Hub.hands_iff hinv.indexed hinv.scratch hw, Watcher.changesOf, hproj]
    exact hchanges _ t hmem

end Routing

namespace Demo

/-- The members table with replica identity `identity`; its replica-identity index, if that is
what it uses, is over the user alone. -/
def catalog (identity : String) : Catalog where
  oid := 16384
  identity := identity
  attributes := [⟨"tenant_id", 25⟩, ⟨"user_id", 25⟩]
  attnames := ["tenant_id", "user_id"]
  replicaIndex := ["user_id"]
  names_nodup := by decide

/-- The table as the stream presents it; `tenantFlag` tells whether the tenant is in the key. -/
def relation (identity : Char) (tenantFlag : UInt8) : RelationMessage :=
  ⟨16384, "public", "members", identity.toUInt8,
    [⟨tenantFlag, "tenant_id", 25⟩, ⟨1, "user_id", 25⟩]⟩

/-- A decoder that has received the relation and a BEGIN. -/
def decoder (rm : RelationMessage) : Decoder :=
  (((newDecoderWithLimits 0 0 0).consume none (.relation rm)).1.consume none (.begin 7 0)).1

theorem decoder_knows (rm : RelationMessage) : (decoder rm).Knows rm :=
  (Decoder.knows_relation _ none rm).consume nofun

/-- A text column. -/
def cell (b : UInt8) : TupleDataColumn := ⟨tupleDataTypeText, [b]⟩

/-- A member is deleted: PostgreSQL sends its replica identity. -/
def deletion (cells : TupleData) : Message := .delete ⟨16384, some cells⟩

/-- A member is deleted. -/
def deleted (key : TextMap) : Change := ⟨.delete, "public.members", key, [], []⟩

end Demo

/-- With a replica-identity index that leaves the scope column out, a delete has no scope: its key
lacks the column, and a missing entry reads as the empty scope. -/
theorem replica_index_unroutable :
    ∃ (catalog : Catalog) (shape : RelationShape) (rm : RelationMessage) (d d' : Decoder)
      (msg : Message) (change : Change),
      validateProjectionSpecConfig Demo.spec = .ok () ∧
      projectionShape (fun _ => none) catalog Demo.spec = .ok shape ∧
      (shapeOfRelation rm).table = shape.table ∧ shape.diff (shapeOfRelation rm) = "" ∧
      d.Knows rm ∧ msg.row? = some rm.relationID ∧ d.pending = some [] ∧
      d.consume none msg = (d', .ok none) ∧ d'.pending = some [change] ∧
      (∀ t : Transaction, change ∈ t.changes →
        change ∈ (Projection.of Demo.spec).changes [] t) ∧
      ¬Routable Demo.spec rm msg change := by
  refine ⟨Demo.catalog "i", shapeOfRelation (Demo.relation 'i' 0), Demo.relation 'i' 0,
    Demo.decoder (Demo.relation 'i' 0), _, Demo.deletion [Demo.cell 0x31],
    Demo.deleted ((∅ : TextMap).insert "user_id" [0x31]), by decide, by decide, rfl, by decide,
    Demo.decoder_knows _, rfl, rfl, Prod.ext rfl (by decide), by decide, ?_, ?_⟩
  · intro t ht
    exact List.mem_filter.2 ⟨ht, by decide⟩
  · intro h
    obtain ⟨v, hlookup, -⟩ := h.key "tenant_id" (by decide)
    have hnone : ((∅ : TextMap).insert "user_id" [0x31]).lookup "tenant_id" = none := by decide
    cases hnone.symm.trans hlookup

theorem routable_default :
    Routable Demo.spec (Demo.relation 'd' 1) (Demo.deletion [Demo.cell 0x41, Demo.cell 0x31])
      (Demo.deleted (((∅ : TextMap).insert "tenant_id" [0x41]).insert "user_id" [0x31])) := by
  have hshape : projectionShape (fun _ => none) (Demo.catalog "d") Demo.spec =
      .ok (shapeOfRelation (Demo.relation 'd' 1)) := by decide
  have hacc : (Demo.decoder (Demo.relation 'd' 1)).consume none
      (Demo.deletion [Demo.cell 0x41, Demo.cell 0x31]) = (_, .ok none) := Prod.ext rfl (by decide)
  exact (routable_iff (by decide) hshape rfl (by decide) (Demo.decoder_knows _) rfl rfl hacc
    (by decide)).2 (.inl (by decide))

end Watchd.Watch
