import Watchd.Cdc.Changes
import Watchd.Sdk.Memory
import Watchd.Server.Encoding
import Watchd.Server.Order
import Watchd.Watch.Delivery

/-!
# Values over the wire

What the server converts and the SDK converts back: a change keeps its operation,
table and key, and every column its value; a snapshot row likewise.  The columns
and values of a change are parallel lists, as the decoder makes them, and its
column names are distinct; nothing is added, lost or defaulted on the way.

`values_survive_wire` states this for batches, pages and shared encodings.
-/

namespace Watchd.Cdc

/-- The columns and values of a change go together. -/
structure Change.Parallel (c : Change) : Prop where
  length : c.columns.length = c.values.length
  distinct : c.columns.Nodup

/-- What a row message decodes to is parallel if the relation's column names are distinct. -/
theorem Message.Decodes.parallel {rm : RelationMessage} {maxValueBytes : Int} {change : Change}
    {msg : Message} (h : msg.Decodes rm maxValueBytes change)
    (hdistinct : (rm.columns.map (·.name)).Nodup) : change.Parallel := by
  cases msg with
  | insert m =>
    obtain ⟨t, -, hacc, rfl⟩ := h
    exact ⟨by simp [rowChange, hacc.length_eq], hdistinct⟩
  | update m =>
    obtain ⟨t, -, hacc, -, rfl⟩ := h
    exact ⟨by simp [rowChange, hacc.length_eq], hdistinct⟩
  | delete m =>
    obtain ⟨-, old, -, -, rfl⟩ := h
    exact ⟨rfl, List.nodup_nil⟩
  | _ => exact h.elim

end Watchd.Cdc

namespace Watchd.Sdk

open Watchd.Cdc Watchd.Lib Watchd.Wire

/-! ## Changes -/

/-- The operation of the SDK for one of the decoder. -/
def sameOperation : Cdc.Operation → Operation
  | .insert => .insert
  | .update => .update
  | .delete => .delete

/-- The change `r` of the SDK is the change `c` of the decoder. -/
structure SameChange (c : Cdc.Change) (r : Change) : Prop where
  operation : r.operation = sameOperation c.operation
  table : r.table = c.table
  key : r.key = c.key
  values : ∀ p ∈ c.columns.zip c.values, r.values.lookup p.1 = some (valueOf p.2)
  others : ∀ column, column ∉ c.columns → r.values.lookup column = none

/-- Text, the empty one included, NULL and unchanged TOAST stay apart. -/
theorem valueOf_eq_iff {v v' : Cdc.Value} :
    valueOf v = valueOf v' ↔ v.kind = v'.kind ∧ (v.kind = .text → v.text = v'.text) := by
  unfold valueOf
  cases hv : v.kind <;> cases hv' : v'.kind <;> simp

theorem lookup_cells {c : Cdc.Change} (h : c.Parallel) (column : String) (v : Cdc.Value) :
    (cells c).lookup column = some v ↔ (column, v) ∈ c.columns.zip c.values := by
  refine lookup_fill_empty ?_ column v
  rw [List.map_fst_zip h.length.le]
  exact h.distinct

theorem receivedChange_same {c : Cdc.Change} (h : c.Parallel) :
    SameChange c (receivedChange c) where
  operation := by cases hop : c.operation <;> simp [receivedChange, convertChange,
    Wire.convertChange, hop, Wire.operations, operations, sameOperation]
  table := rfl
  key := rfl
  values p hp := by
    rw [lookup_receivedChange, (lookup_cells h p.1 p.2).2 hp]
    rfl
  others column hcolumn := by
    rw [lookup_receivedChange]
    cases hcell : (cells c).lookup column with
    | none => rfl
    | some v => exact absurd (List.of_mem_zip ((lookup_cells h column v).1 hcell)).1 hcolumn

/-! ## Snapshot rows -/

/-- The row `r` of the SDK is the row `row` of the snapshot. -/
def SameRow (row : Watch.Row) (r : Row) : Prop :=
  ∀ column, r.lookup column = (row.lookup column).map fun value =>
    match value with
    | some text => { text := text }
    | none => { null := true }

/-- The event a message is handled as when it arrives. -/
def eventFrom (p : Proto) (out : Outgoing) : Option Event := (p.arrives out).map eventOf

/-- The messages of a page arrive as its rows. -/
theorem sendRows_received (srv : Server) (rows : List Watch.Row) :
    ∃ pages : List (List Row), (srv.sendRows rows).map eventOf = pages.map .snapshotRows ∧
      pages.flatten = rows.map receivedRow := by
  refine ⟨(srv.sendRows rows).map fun msg => msg.rows.map convertValues, ?_, ?_⟩
  · rw [List.map_map]
    refine List.map_congr_left fun msg hmsg => ?_
    have hkind := srv.sendRows_kind rows msg hmsg
    cases msg with
    | snapshotRows rows => rfl
    | _ => cases hkind
  · calc ((srv.sendRows rows).map fun msg => msg.rows.map convertValues).flatten
        = ((srv.sendRows rows).flatMap Message.rows).map convertValues := by
          rw [List.map_flatMap, List.flatMap_def]
      _ = rows.map receivedRow := by
          rw [srv.sendRows_rows, List.map_map]
          rfl

theorem receivedRow_same (row : Watch.Row) : SameRow row (receivedRow row) :=
  fun column => lookup_receivedRow row column

/-! ## The round trip -/

/-- **Values survive the wire unchanged**, with `p` delivering each message it is given: a batch's
changes arrive one by one as they were decoded, a page's rows as they were read, the three kinds of
values apart; and a batch that is sent through its memo arrives, in every run of the hub and its
streams, as it does without. -/
theorem values_survive_wire (srv : Server) (p : Proto) (hunknown : p.CopiesUnknown) :
    (∀ b : Watch.Batch, (∀ c ∈ b.changes, c.Parallel) → p.Delivers (srv.convertBatch b) →
      ∃ b' : Batch, eventFrom p { message := srv.convertBatch b } = some (.batch b') ∧
        List.Forall₂ SameChange b.changes b'.changes) ∧
    (∀ rows : List Watch.Row, (∀ msg ∈ srv.sendRows rows, p.Delivers msg) →
      ∃ pages : List (List Row),
        (srv.sendRows rows).mapM (fun msg => eventFrom p { message := msg }) =
          some (pages.map .snapshotRows) ∧
        List.Forall₂ SameRow rows pages.flatten) ∧
    (∀ v v' : Cdc.Value, valueOf v = valueOf v' ↔
      v.kind = v'.kind ∧ (v.kind = .text → v.text = v'.text)) ∧
    (∀ s, Reaches (served srv) anyStep s →
      ∀ (id : Watch.WatcherId) (ws : Watch.WatchState) (b : Watch.Batch),
      s.system.watches[id]? = some ws →
      batchAt ws.phase = some b → p.Delivers (srv.convertBatch b) →
      p.arrives (srv.batchOutgoing p (s.memos.encoded p) b) =
        p.arrives { message := srv.convertBatch b }) := by
  refine ⟨fun b hb hp => ?_, fun rows hp => ?_, fun _ _ => valueOf_eq_iff, ?_⟩
  · refine ⟨received srv b, ?_, ?_⟩
    · rw [eventFrom, hp, Option.map_some, eventOf_convertBatch]
    · exact List.forall₂_map_right_iff.2
        (List.forall₂_same.2 fun c hc => receivedChange_same (hb c hc))
  · obtain ⟨pages, hpages, hrows⟩ := sendRows_received srv rows
    refine ⟨pages, ?_, ?_⟩
    · rw [← hpages]
      exact mapM_eq_some_map fun msg hmsg => by rw [eventFrom, hp msg hmsg, Option.map_some]
    · rw [hrows]
      exact List.forall₂_map_right_iff.2 (List.forall₂_same.2 fun row _ => receivedRow_same row)
  · intro s hs id ws b hws hb hp
    rw [Served.batch_arrives hs hws hb hp hunknown, hp]

namespace Demo

open Watch.Demo (openSnapshot readSnapshot snapshot tenant transaction)

/-- An update with an empty text, a NULL and an unchanged column. -/
def mixedBatch : Watch.Batch :=
  ⟨⟨"main", 500⟩, 0, [⟨.update, "public.notes", fill ∅ [("id", [1])],
    ["id", "title", "body", "size"],
    [⟨.text, [1]⟩, ⟨.text, []⟩, ⟨.null, []⟩, ⟨.unchangedToast, []⟩]⟩], none⟩

/-- Two watches of one scope are reading their snapshots when the transaction comes; the first has
sent its batch and the second is about to. -/
def sharing : List Watch.Label :=
  openSnapshot ++ [.open_ ⟨"members", tenant, ""⟩] ++ List.replicate 3 (.watch 1 .run) ++
    [.accept (transaction 600 30)] ++ readSnapshot 500 ++ List.replicate 4 (.watch 0 .run) ++
    [.watch 1 (.read (.ok (snapshot 500)))] ++ List.replicate 7 (.watch 1 .run)

end Demo

/-- Both batches arrive, the second by way of the memo that the other stream has loaded. -/
theorem values_survive_wire_mixed :
    (∃ b' : Batch,
      eventFrom (Wire.Demo.proto [Wire.Demo.mainServer.convertBatch Demo.mixedBatch])
        { message := Wire.Demo.mainServer.convertBatch Demo.mixedBatch } = some (.batch b') ∧
      List.Forall₂ SameChange Demo.mixedBatch.changes b'.changes) ∧
    ∃ s ws b, Reaches (served Wire.Demo.mainServer) anyStep s ∧
      s.system.watches[1]? = some ws ∧ batchAt ws.phase = some b ∧
      b.memo = some 0 ∧ (s.memos 0).isSome = true ∧
      let p := Wire.Demo.proto [Wire.Demo.mainServer.convertBatch b]
      p.arrives (Wire.Demo.mainServer.batchOutgoing p (s.memos.encoded p) b) =
        some (Wire.Demo.mainServer.convertBatch b) := by
  constructor
  · refine (values_survive_wire Wire.Demo.mainServer _
      (Wire.Demo.proto_copiesUnknown _)).1 Demo.mixedBatch ?_ (Wire.Demo.proto_delivers _)
    intro c hc
    cases List.mem_singleton.1 hc
    exact ⟨rfl, by decide⟩
  · obtain ⟨s, hreach, hany⟩ :=
      Served.exists_of_run Wire.Demo.mainServer Wire.Demo.parseHexLSN (Watch.Demo.config 10 10)
        (Demo.sharing.map .hub)
        (fun s => (s.system.watches[1]?.any fun ws => (batchAt ws.phase).any fun b =>
          b.memo = some 0 ∧ (s.memos 0).isSome = true) = true) (by decide)
    obtain ⟨ws, hws, hany⟩ := (Option.any_eq_true _ _).1 hany
    obtain ⟨b, hb, hshared⟩ := (Option.any_eq_true _ _).1 hany
    obtain ⟨hmemo, hloaded⟩ := of_decide_eq_true hshared
    have hdelivers := Wire.Demo.proto_delivers (Wire.Demo.mainServer.convertBatch b)
    refine ⟨s, ws, b, hreach, hws, hb, hmemo, hloaded, ?_⟩
    exact ((values_survive_wire Wire.Demo.mainServer _ (Wire.Demo.proto_copiesUnknown _)).2.2.2
      s hreach 1 ws b hws hb hdelivers).trans hdelivers

end Watchd.Sdk
