import Watchd.Sdk.Client
import Watchd.Server.Wire
import Watchd.Watch.Delivery

/-!
# What the client makes of a stream

The SDK converts each message and handles it; `receive` feeds it the messages of
one stream.  Each stage of a stream corresponds to what `stream` holds (a writer
exactly inside a snapshot), so a client whose store never fails accepts every
stream the hub and the server can produce.

`stream_accepted` states it for every stream, cut off anywhere.
-/

namespace Watchd.Sdk

open Watchd.Cdc Watchd.Lib Watchd.Wire

/-! ## Conversion -/

/-- A value as the SDK has it; one of an unknown kind is left out. -/
def convertValue : WireValue → Option Value
  | .text text => some { text := text }
  | .null => some { null := true }
  | .unchangedToast => some { unchanged := true }
  | .unset => none

/-- A row as the SDK has it. -/
def convertValues (values : WireRow) : Row := collect (fun _ value => convertValue value) values

/-- An operation as the SDK has it. -/
def operations : WireOperation → Operation
  | .unspecified => .unknown
  | .insert => .insert
  | .update => .update
  | .delete => .delete

/-- A change as the SDK has it. -/
def convertChange (c : WireChange) : Change :=
  ⟨operations c.operation, c.table, c.key, convertValues c.values⟩

/-- A batch as the SDK has it. -/
def convertBatch (b : WireBatch) : Batch := ⟨b.cursor, b.changes.map convertChange⟩

/-- The event a message is handled as. -/
def eventOf : Wire.Message → Event
  | .snapshotBegin => .snapshotBegin
  | .snapshotRows rows => .snapshotRows (rows.map convertValues)
  | .snapshotEnd => .snapshotEnd
  | .batch b => .batch (convertBatch b)
  | .progress cursor => .progress cursor
  | .resync _ => .resync
  | .unset => .unknown "<nil>"

section Receive

variable {σ ω : Type} (st : Store σ ω)

/-- The call after the messages of one stream, each received while it is streaming. -/
def Sync.receive : Sync σ ω → List Wire.Message → Option (Sync σ ω)
  | s, [] => some s
  | s, msg :: msgs => (s.step st (.recv (.event (eventOf msg)))).bind (receive · msgs)

/-- A store none of whose operations on a stream fails. -/
structure Store.NeverFails : Prop where
  beginSnapshot : ∀ s, ∃ s' w, st.beginSnapshot s = (s', .ok w)
  put : ∀ s w rows, ∃ s' w', st.put s w rows = (s', w', none)
  commit : ∀ s w, ∃ s', st.commit s w = (s', none)
  apply : ∀ s b, ∃ s', st.apply s b = (s', none)
  saveCursor : ∀ s c, ∃ s', st.saveCursor s c = (s', none)

/-! ## Stages -/

/-- What `stream` holds at each stage: a writer exactly inside a snapshot. -/
def Sync.At (s : Sync σ ω) : Watch.Stage → Prop
  | .opened | .live => ∃ cursor heard, s.phase = .streaming cursor heard none
  | .reading => ∃ cursor heard w, s.phase = .streaming cursor heard (some w)
  | .ended => s.phase = .ended .resync

/-- A live event of a stream without a snapshot going on is taken. -/
theorem Sync.At.live (hst : st.NeverFails) {s : Sync σ ω} {msg : Wire.Message}
    (hk : msg.kind = some .live) (hs : ∃ cursor heard, s.phase = .streaming cursor heard none) :
    ∃ s', s.step st (.recv (.event (eventOf msg))) = some s' ∧ s'.At .live := by
  obtain ⟨cursor, heard, hp⟩ := hs
  cases msg with
  | batch b =>
    obtain ⟨store, happly⟩ := hst.apply s.store (convertBatch b)
    exact ⟨_, step_recv st hp _, cursor, true, by
      simp only [eventOf, handle, happly]⟩
  | progress c =>
    obtain ⟨store, hsave⟩ := hst.saveCursor s.store c
    refine ⟨_, step_recv st hp _, cursor, true, ?_⟩
    simp only [eventOf, handle, hsave, phase_setState]
  | _ => cases hk

/-- **The client follows the stages**: a message that leads a stream on leads the client on. -/
theorem Sync.At.step (hst : st.NeverFails) {s : Sync σ ω} {q q' : Watch.Stage} {msg : Wire.Message}
    {k : Watch.Kind} (hk : msg.kind = some k) (hq : q.next k = some q') (hs : s.At q) :
    ∃ s', s.step st (.recv (.event (eventOf msg))) = some s' ∧ s'.At q' := by
  have hresync : ∀ cursor heard writer, s.phase = .streaming cursor heard writer →
      k = .resync → ∃ s', s.step st (.recv (.event (eventOf msg))) = some s' ∧ s'.At .ended := by
    rintro cursor heard writer hp rfl
    cases msg with
    | resync reason =>
      exact ⟨_, Sync.step_recv st hp _, phase_ends st _ _ _⟩
    | _ => cases hk
  cases q with
  | opened =>
    obtain ⟨cursor, heard, hp⟩ := id hs
    cases k with
    | snapshotBegin =>
      cases hq
      cases msg with
      | snapshotBegin =>
        obtain ⟨store, w, hbegin⟩ := hst.beginSnapshot (s.setState false "").store
        exact ⟨_, Sync.step_recv st hp _, cursor, true, w, by
          simp only [eventOf, handle, hbegin]⟩
      | _ => cases hk
    | live =>
      cases hq
      exact Sync.At.live st hst hk hs
    | resync =>
      cases hq
      exact hresync _ _ _ hp rfl
    | _ => cases hq
  | reading =>
    obtain ⟨cursor, heard, w, hp⟩ := hs
    cases k with
    | snapshotRows =>
      cases hq
      cases msg with
      | snapshotRows rows =>
        obtain ⟨store, w', hput⟩ := hst.put s.store w (rows.map convertValues)
        exact ⟨_, Sync.step_recv st hp _, cursor, true, w', by
          simp only [eventOf, handle, hput]⟩
      | _ => cases hk
    | snapshotEnd =>
      cases hq
      cases msg with
      | snapshotEnd =>
        obtain ⟨store, hcommit⟩ := hst.commit s.store w
        exact ⟨_, Sync.step_recv st hp _, cursor, true, by
          simp only [eventOf, handle, hcommit, observe]⟩
      | _ => cases hk
    | resync =>
      cases hq
      exact hresync _ _ _ hp rfl
    | _ => cases hq
  | live =>
    obtain ⟨cursor, heard, hp⟩ := id hs
    cases k with
    | live =>
      cases hq
      exact Sync.At.live st hst hk hs
    | resync =>
      cases hq
      exact hresync _ _ _ hp rfl
    | _ => cases hq
  | ended => cases k <;> cases hq

/-- Messages that lead through the stages are all received. -/
theorem Sync.At.receive (hst : st.NeverFails) {msgs : List Wire.Message} {ks : List Watch.Kind}
    (hks : msgs.map Message.kind = ks.map some) {s : Sync σ ω} {q q' : Watch.Stage}
    (hq : q.after ks = some q') (hs : s.At q) :
    ∃ s', s.receive st msgs = some s' ∧ s'.At q' := by
  induction ks generalizing msgs s q with
  | nil =>
    obtain rfl : msgs = [] := by simpa using hks
    cases hq
    exact ⟨s, rfl, hs⟩
  | cons k ks ih =>
    cases msgs with
    | nil => cases hks
    | cons msg msgs =>
      simp only [List.map_cons, List.cons.injEq] at hks
      obtain ⟨q₁, hnext, hafter⟩ := Option.bind_eq_some_iff.1 hq
      obtain ⟨s₁, hstep, hs₁⟩ := Sync.At.step st hst hks.1 hnext hs
      obtain ⟨s', hreceive, hs'⟩ := ih hks.2 hafter hs₁
      exact ⟨s', by simp only [Sync.receive, hstep, Option.bind_some, hreceive], hs'⟩

end Receive

/-- **Every stream the hub can produce is one the SDK accepts.**  In every run of a hub behind a
server, what a watch has sent is a prefix of one of the streams of `Whole`.  A client that receives
any part of the messages and whose store never fails handles them all; only a Resync, as the last of
them, ends its stream. -/
theorem stream_accepted (srv : Server) {s : Served} (hs : Reaches (served srv) anyStep s)
    {id : Watch.WatcherId} {ws : Watch.WatchState} (hws : s.system.watches[id]? = some ws) :
    (∃ whole, Watch.Whole whole ∧ ws.sent <+: whole) ∧
      ∀ (σ ω : Type) (st : Store σ ω), st.NeverFails →
        ∀ (received : List Wire.Message), received <+: s.streams id →
          ∀ (c : Sync σ ω) (cursor : String), c.phase = .streaming cursor false none →
            ∃ c', c.receive st received = some c' ∧
              ((∃ cursor heard writer, c'.phase = .streaming cursor heard writer) ∨
                c'.phase = .ended .resync) := by
  constructor
  · obtain ⟨q, hq, -⟩ := Watch.Reaches.stage (Served.reaches hs) hws
    exact Watch.Whole.of_after hq
  · intro σ ω st hst received hpre c cursor hc
    obtain ⟨q, hq, -⟩ := (Served.staged hs).streams id ws hws
    obtain ⟨q', ks, hks, hafter⟩ := hq.of_prefix hpre
    obtain ⟨c', hreceive, hc'⟩ := Sync.At.receive st hst hks hafter (s := c) ⟨cursor, false, hc⟩
    refine ⟨c', hreceive, ?_⟩
    cases q' with
    | opened =>
      obtain ⟨cursor, heard, hp⟩ := hc'
      exact .inl ⟨cursor, heard, none, hp⟩
    | reading =>
      obtain ⟨cursor, heard, w, hp⟩ := hc'
      exact .inl ⟨cursor, heard, some w, hp⟩
    | live =>
      obtain ⟨cursor, heard, hp⟩ := hc'
      exact .inl ⟨cursor, heard, none, hp⟩
    | ended => exact .inr hc'

namespace Demo

open Watch.Demo

/-- Every row is large enough for a message of its own. -/
def server : Server := ⟨"main", 8, fun _ => "0/1F4", fun _ => 8⟩

/-- A store that keeps nothing. -/
def store : Store Unit Unit where
  cursor s := (s, .ok "")
  beginSnapshot s := (s, .ok ())
  put s w _ := (s, w, none)
  commit s _ := (s, none)
  abort s _ := (s, none)
  apply s _ := (s, none)
  saveCursor s _ := (s, none)

theorem store_neverFails : store.NeverFails :=
  ⟨fun s => ⟨s, (), rfl⟩, fun s w _ => ⟨s, w, rfl⟩, fun s _ => ⟨s, rfl⟩, fun s _ => ⟨s, rfl⟩,
    fun s _ => ⟨s, rfl⟩⟩

/-- A client that has just opened a stream. -/
def client : Sync Unit Unit :=
  { store := (), phase := .streaming "" false none, minBackoff := 1, maxBackoff := 1, backoff := 1 }

/-- A snapshot whose second page is cut off after the first of its two rows. -/
def cutSnapshot : List Served.Label :=
  (openSnapshot ++ [go (.rows [∅])]).map .hub ++ [.cut 0 [∅, ∅] 1 (.new "connection lost")]

end Demo

/-- The hypotheses hold in a run whose snapshot is cut off inside a page. -/
theorem stream_accepted_cut : ∃ s ws, Reaches (served Demo.server) anyStep s ∧
    s.system.watches[0]? = some ws ∧
    s.streams 0 = [.snapshotBegin, .snapshotRows [∅], .snapshotRows [∅]] ∧
    (∃ whole, Watch.Whole whole ∧ ws.sent <+: whole) ∧
    ∃ c', Demo.client.receive Demo.store (s.streams 0) = some c' ∧
      ((∃ cursor heard writer, c'.phase = .streaming cursor heard writer) ∨
        c'.phase = .ended .resync) := by
  obtain ⟨s, hreach, hopened, hstream⟩ :=
    Served.exists_of_run Demo.server Watch.Demo.parseLSN (Watch.Demo.config 0 0) Demo.cutSnapshot
      (fun s => s.system.watches[0]?.isSome = true ∧
        s.streams 0 = [.snapshotBegin, .snapshotRows [∅], .snapshotRows [∅]]) (by decide)
  obtain ⟨ws, hws⟩ := Option.isSome_iff_exists.1 hopened
  obtain ⟨hwhole, haccepted⟩ := stream_accepted Demo.server hreach hws
  exact ⟨s, ws, hreach, hws, hstream, hwhole,
    haccepted Unit Unit Demo.store Demo.store_neverFails _ List.prefix_rfl Demo.client "" rfl⟩

end Watchd.Sdk
