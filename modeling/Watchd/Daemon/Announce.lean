import Watchd.Daemon.Replication
import Watchd.Watch.Lifetime

/-!
# Dropped row changes are announced

The decoder drops the row changes of a relation that disagrees with its
baseline, and reports the disagreement once, on the next COMMIT; the hub then
ends the table's watchers.  The report is lost when that COMMIT is of a
transaction the hub has accepted before.  As long as every report rides on a
new transaction, no watcher that was registered when the decoder found the
disagreement outlives a transaction with a dropped change
(`dropped_announced`).
-/

namespace Watchd.Daemon

open Watchd.Cdc Watchd.Lib Watchd.Watch

/-! ## Reports -/

/-- Some event names `table`. -/
def Named (events : List IncompatibleRelationError) (table : String) : Prop :=
  ∃ e ∈ events, e.table = table

theorem Named.report {events : List IncompatibleRelationError} {table : String}
    (h : Named events table) (event : IncompatibleRelationError) :
    Named (report events event) table := by
  obtain ⟨e, he, htable⟩ := h
  unfold Cdc.report
  split
  · exact ⟨e, he, htable⟩
  · exact ⟨e, List.mem_append_left _ he, htable⟩

theorem named_report (events : List IncompatibleRelationError)
    (event : IncompatibleRelationError) : Named (report events event) event.table := by
  unfold Cdc.report
  split
  · next hany =>
    obtain ⟨e, he, htable⟩ := List.any_eq_true.1 hany
    exact ⟨e, he, of_decide_eq_true htable⟩
  · exact ⟨event, List.mem_append_right _ (List.mem_singleton_self _), rfl⟩

section Check

variable {info : RelationInfo} {events : List IncompatibleRelationError} {table : String}

theorem Named.reportRenamed (h : Named events table) (renamed : Option RelationShape) :
    Named (info.reportRenamed events renamed) table := by
  cases renamed with
  | none => exact h
  | some renamed =>
    simp only [RelationInfo.reportRenamed]
    split
    · exact h.report _
    · exact h

theorem Named.check (h : Named events table) (reads : Reads) :
    Named (info.check events (some reads)).2 table := by
  unfold RelationInfo.check
  simp only
  split
  · exact h.reportRenamed _
  · split
    · exact (h.reportRenamed _).report _
    · exact h.reportRenamed _

/-- A check reports the relation it finds incompatible. -/
theorem named_check (reads : Reads)
    (h : (info.check events (some reads)).1.incompatible.isSome = true) :
    Named (info.check events (some reads)).2 (info.check events (some reads)).1.table := by
  unfold RelationInfo.check at h ⊢
  simp only at h ⊢
  split at h
  · cases h
  · split at h
    · next hdiff => simpa only [hdiff, ne_eq, not_false_eq_true, if_true] using named_report _ _
    · cases h

end Check

/-- What consuming a message does to the relations and events: nothing, or one check. -/
theorem Consumed.checked {d d' : Decoder} {reads : Reads} {msg : Message}
    (h : Consumed d (some reads) msg d' (.ok none)) :
    d'.relations = d.relations ∧ d'.events = d.events ∨
      ∃ (id : UInt32) (info : RelationInfo), relation? msg = some id ∧
        d'.relations = d.relations.insert id (info.check d.events (some reads)).1 ∧
        d'.events = (info.check d.events (some reads)).2 := by
  have hrelation : ∀ {id : UInt32}, msg.row? = some id → relation? msg = some id := by
    intro id hrow
    cases msg <;> first | exact hrow | cases hrow
  cases h with
  | relation m => exact .inr ⟨_, _, rfl, rfl, rfl⟩
  | begin _ _ _ => exact .inl ⟨rfl, rfl⟩
  | dropped hrow hre _ =>
    cases hre with
    | current _ => exact .inl ⟨rfl, rfl⟩
    | again _ => exact .inr ⟨_, _, hrelation hrow, rfl, rfl⟩
  | appended hrow hre _ _ _ =>
    cases hre with
    | current _ => exact .inl ⟨rfl, rfl⟩
    | again _ => exact .inr ⟨_, _, hrelation hrow, rfl, rfl⟩
  | ignored _ => exact .inl ⟨rfl, rfl⟩

/-! ## What the connection notes -/

section Note

variable {c : Conn} {watchers : List WatcherId} {d : Decoder} {msg : Message} {table : String}

theorem mem_found_note_of_mem (h : table ∈ c.found) : table ∈ (c.note watchers d msg).found := by
  unfold Conn.note
  simp only
  split
  · split
    · exact h
    · exact Finmap.mem_insert.2 (.inr h)
  · exact h

theorem mem_found_note {info : RelationInfo}
    (h : incompatible? d (relation? msg) = some info) :
    info.table ∈ (c.note watchers d msg).found := by
  simp only [Conn.note, h]
  split
  · next hmem => exact hmem
  · exact Finmap.mem_insert.2 (.inl rfl)

/-- The watchers noted for a table: as before, or those registered now that its relation has been
found incompatible. -/
theorem lookup_found_note {ws : List WatcherId}
    (h : (c.note watchers d msg).found.lookup table = some ws) :
    c.found.lookup table = some ws ∨
      ∃ info, incompatible? d (relation? msg) = some info ∧ info.table = table ∧
        table ∉ c.found ∧ ws = watchers := by
  unfold Conn.note at h
  simp only at h
  split at h
  · next info hinfo =>
    split at h
    · exact .inl h
    · next hmem =>
      by_cases htable : table = info.table
      · subst htable
        rw [Finmap.lookup_insert] at h
        cases h
        exact .inr ⟨info, hinfo, rfl, hmem, rfl⟩
      · rw [Finmap.lookup_insert_of_ne _ htable] at h
        exact .inl h
  · exact .inl h

variable (watchers) in
theorem mem_dropped_note (h : table ∈ (c.note watchers d msg).dropped) :
    table ∈ c.dropped ∨
      ∃ info, incompatible? d (relation? msg) = some info ∧ info.table = table := by
  cases msg with
  | begin _ _ => cases h
  | insert m | update m | delete m =>
    rcases List.mem_append.1 h with h | h
    · right
      obtain ⟨info, hinfo, rfl⟩ := Option.map_eq_some_iff.1 (Option.mem_toList.1 h)
      exact ⟨info, hinfo, rfl⟩
    · exact .inl h
  | _ => exact .inl h

end Note

/-! ## The invariant -/

/-- None of `ws` is still registered for `table`. -/
def Unwatched (s : System) (table : String) (ws : List WatcherId) : Prop :=
  ∀ w ∈ ws, (s.hub.registry.cell w).projection.table = table → w ∉ s.hub.registry.watchers

/-- Where a connection stands with its reports: what it has found is still to be reported, or the
watchers of then are gone. -/
structure Announced (s : System) (c : Conn) : Prop where
  found : ∀ id info, c.stream.decoder.relations.lookup id = some info →
    info.incompatible.isSome = true → info.table ∈ c.found
  dropped : ∀ table ∈ c.dropped, table ∈ c.found
  told : ∀ table ws, c.found.lookup table = some ws →
    Named c.stream.decoder.events table ∨ Unwatched s table ws
  started : ∀ table ws, c.found.lookup table = some ws → ∀ w ∈ ws, s.Started w

/-- Every report rides on a transaction the hub has not accepted yet. -/
def reportsRide (s : State) : Label → Prop
  | .receive (.xlogData _ (some (.commit _ endLSN))) _ _ => ∀ c ∈ s.conn,
    c.stream.decoder.events ≠ [] →
      ∀ received ∈ s.system.hub.window.received, later ⟨s.config.sourceID, endLSN⟩ received = true
  | _ => True

instance (s : State) (l : Label) : Decidable (reportsRide s l) := by
  unfold reportsRide
  split <;> infer_instance

theorem isNew_of_later {h : Hub} {t : Transaction}
    (hlater : ∀ received ∈ h.window.received, later t.cursor received = true) :
    h.isNew t = .ok true := by
  unfold Hub.isNew
  cases hr : h.window.received with
  | none => rfl
  | some received =>
    have hgt := Cursor.compare_gt_iff.2 (later_iff.1 (hlater received hr))
    simp only [hgt]
    rfl

section Invariant

variable {s s' : System} {c : Conn}

theorem Announced.opened (s : System) (cfg : ReaderConfig) (start : Nat) :
    Announced s { stream := ⟨cfg.newDecoder, start⟩, start := start } := by
  refine ⟨?_, nofun, ?_, ?_⟩
  · intro id info hl
    simp [ReaderConfig.newDecoder, newDecoderWithLimits] at hl
  · intro table ws hl
    simp at hl
  · intro table ws hl
    simp at hl

theorem Unwatched.stepped (hinv : Inv s) {l : Watch.Label} (hs : s.Stepped l s') {table : String}
    {ws : List WatcherId} (hstarted : ∀ w ∈ ws, s.Started w) (h : Unwatched s table ws) :
    Unwatched s' table ws := by
  intro w hw htable
  rw [hs.projection_eq hinv (hstarted w hw)] at htable
  exact hs.unregistered hinv (hstarted w hw) (h w hw htable)

/-- The hub and its watches may do anything meanwhile. -/
theorem Announced.stepped (hinv : Inv s) {l : Watch.Label} (hs : s.Stepped l s')
    (h : Announced s c) : Announced s' c := by
  refine ⟨h.found, h.dropped, fun table ws hl => ?_, fun table ws hl w hw => ?_⟩
  · exact (h.told table ws hl).imp_right (·.stepped hinv hs (h.started table ws hl))
  · exact hs.started (h.started table ws hl w hw)

theorem Announced.consumed (hinv : Inv s) (h : Announced s c) {d' : Decoder} {reads : Reads}
    {msg : Message} (hc : Consumed c.stream.decoder (some reads) msg d' (.ok none)) :
    Announced s { c.note s.hub.registry.watchers d' msg with
      stream := { c.stream with decoder := d' } } := by
  have hchecked := Consumed.checked hc
  refine ⟨?_, ?_, ?_, ?_⟩
  · intro id info hl hinc
    rcases hchecked with ⟨hrel, -⟩ | ⟨id', info', hid, hrel, -⟩
    · exact mem_found_note_of_mem (h.found id info (hrel ▸ hl) hinc)
    · have hl' : d'.relations.lookup id = some info := hl
      by_cases heq : id = id'
      · subst heq
        exact mem_found_note (by simp [incompatible?, hid, hl', hinc])
      · rw [hrel, Finmap.lookup_insert_of_ne _ heq] at hl'
        exact mem_found_note_of_mem (h.found id info hl' hinc)
  · intro table hmem
    rcases mem_dropped_note s.hub.registry.watchers hmem with hmem | ⟨info, hinfo, rfl⟩
    · exact mem_found_note_of_mem (h.dropped table hmem)
    · exact mem_found_note hinfo
  · intro table ws hl
    rcases lookup_found_note hl with hl | ⟨info, hinfo, rfl, hnew, rfl⟩
    · rcases h.told table ws hl with hnamed | hgone
      · left
        rcases hchecked with ⟨-, hev⟩ | ⟨id', info', -, -, hev⟩
        · exact hev ▸ hnamed
        · exact hev ▸ hnamed.check reads
      · exact .inr hgone
    · -- found only now, so the check has just reported it
      left
      obtain ⟨hlookup, hinc⟩ := Option.filter_eq_some_iff.1 hinfo
      obtain ⟨id, hid, hlookup⟩ := Option.bind_eq_some_iff.1 hlookup
      rcases hchecked with ⟨hrel, -⟩ | ⟨id', info', hid', hrel, hev⟩
      · exact absurd (h.found id info (hrel ▸ hlookup) hinc) hnew
      · cases hid.symm.trans hid'
        rw [hrel, Finmap.lookup_insert] at hlookup
        cases hlookup
        exact hev ▸ named_check reads hinc
  · intro table ws hl w hw
    rcases lookup_found_note hl with hl | ⟨-, -, -, -, rfl⟩
    · exact h.started table ws hl w hw
    · exact hinv.started_of_registered hw

/-- **Once a transaction has been accepted**, the watchers of every table found so far are gone. -/
theorem Announced.unwatched (hinv : Inv s) (h : Announced s c) {t : Transaction}
    (ht : t.incompatible = c.stream.decoder.events)
    (hnew : c.stream.decoder.events ≠ [] → s.hub.isNew t = .ok true) {table : String}
    {ws : List WatcherId} (hl : c.found.lookup table = some ws) :
    Unwatched (s.accept t) table ws := by
  have hs : s.Stepped (.accept t) (s.accept t) := System.step_stepped rfl
  have hstarted := h.started table ws hl
  rcases h.told table ws hl with ⟨e, he, htable⟩ | hgone
  · have hnew' := hnew (List.ne_nil_of_mem he)
    have hacc : (s.accept t).hub = s.hub.acceptNew t := by
      simp only [System.accept, Hub.accept, hnew']
    intro w hw hw_table
    by_cases hreg : w ∈ s.hub.registry.watchers
    · rw [hs.projection_eq hinv (hstarted w hw)] at hw_table
      have hreports : reports t (s.hub.registry.cell w).projection.table :=
        ⟨e, ht ▸ he, htable.trans hw_table.symm⟩
      obtain ⟨-, -, -, hin⟩ := s.hub.acceptNew_outcome hinv.indexed hinv.scratch t
      have ho := hin w hreg
      rw [hacc]
      intro hmem
      rw [Registry.view_eq.2 ⟨rfl, decide_eq_true hmem⟩] at ho
      generalize (s.hub.acceptNew t).registry.cell w = c' at ho
      cases ho with
      | unconcerned hnot _ => exact hnot hreports
      | queued hnot _ _ _ => exact hnot hreports
    · exact hs.unregistered hinv (hstarted w hw) hreg
  · exact hgone.stepped hinv hs hstarted

/-- A COMMIT the hub has accepted, or discarded, leaves nothing to report. -/
theorem Announced.committed (hinv : Inv s) (h : Announced s c) {t : Transaction}
    (ht : t.incompatible = c.stream.decoder.events)
    (hnew : c.stream.decoder.events ≠ [] → s.hub.isNew t = .ok true)
    (watchers : List WatcherId) {d' : Decoder}
    (hrel : d'.relations = c.stream.decoder.relations) (commitLSN endLSN : Nat) :
    Announced (s.accept t) { c.note watchers d' (.commit commitLSN endLSN) with
      stream := ⟨d', endLSN⟩ } := by
  have hs : s.Stepped (.accept t) (s.accept t) := System.step_stepped rfl
  refine ⟨?_, h.dropped, ?_, ?_⟩
  · intro id info hl hinc
    exact h.found id info (hrel ▸ hl) hinc
  · intro table ws hl
    exact .inr (h.unwatched hinv ht hnew hl)
  · intro table ws hl w hw
    exact hs.started (h.started table ws hl w hw)

end Invariant

/-! ## The run -/

section Run

variable {s s' : State} {l : Label}

theorem reportsRide.isNew {walBytes commitLSN endLSN : Nat} {recording : Recording}
    {sendErr : Option GoError}
    (h : reportsRide s (.receive (.xlogData walBytes (some (.commit commitLSN endLSN))) recording
      sendErr)) {c : Conn} (hconn : s.conn = some c) (changes : List Change) :
    c.stream.decoder.events ≠ [] → s.system.hub.isNew
      (c.stream.decoder.committed s.config changes commitLSN endLSN) = .ok true :=
  fun hne => isNew_of_later (h c hconn hne)

theorem announced_stepped (hinv : Inv s.system)
    (h : ∀ c, s.conn = some c → Announced s.system c) (hok : reportsRide s l)
    (hs : s.Stepped l s') : ∀ c, s'.conn = some c → Announced s'.system c := by
  intro c' hc'
  cases hs with
  | connect start _ =>
    cases hc'
    exact .opened s.system s.config start
  | @receive data recording sendErr c hd hconn hh =>
    have hc := h c hconn
    cases hh with
    | broken _ s' err =>
      exact absurd hc' (by simp only [State.handled]; unfold Conn.after; split <;> simp)
    | consumed walBytes hcons =>
      cases hc'
      exact hc.consumed hinv hcons
    | rejected _ _ _ _ _ _ _ => cases hc'
    | accepted walBytes commitLSN endLSN hp hsink =>
      cases sink_of_ok hsink
      simp only [State.handled, Conn.after] at hc'
      split at hc'
      · cases hc'
      · cases hc'
        refine hc.committed hinv rfl (hok.isNew hconn _) _ ?_ commitLSN endLSN
        rfl
    | keepalive position replyRequested =>
      have hafter : c.after s.system.hub.registry.watchers _
          (.keepalive position replyRequested) = some c' := hc'
      cases Conn.after_keepalive hafter
      have hdecoder : (c.stream.advance position).decoder = c.stream.decoder := by
        unfold Stream.advance
        split <;> rfl
      exact ⟨by rw [hdecoder]; exact hc.found, hc.dropped, by rw [hdecoder]; exact hc.told,
        hc.started⟩
  | timeout sendErr hconn =>
    simp only at hc'
    split at hc'
    · cases hc'
    · cases hc'
      exact h _ hconn
  | cut => cases hc'
  | record shape => exact h c' hc'
  | hub hl hsystem => exact (h c' hc').stepped hinv (System.step_stepped hsystem)

theorem Reaches.announced (h : Reaches machine reportsRide s) :
    ∀ c, s.conn = some c → Announced s.system c := by
  refine Reaches.invariant (I := fun s : State => ∀ c, s.conn = some c → Announced s.system c)
    ?_ ?_ h
  · rintro s ⟨config, parseLSN, cfg, hub, -, rfl⟩
    exact nofun
  · intro s l s' hreach hann hok hstep
    exact announced_stepped (Reaches.inv (system_reaches hreach)) hann hok
      (State.step_stepped hstep)

/-- **Dropped row changes are announced.**  In a run in which every report rides on a transaction
the hub has not accepted yet: when the hub takes a transaction as new, no watcher of a table with
a row change dropped in that transaction is left of those that were registered when the decoder
first found the table's relation incompatible. -/
theorem dropped_announced (h : Reaches machine reportsRide s) (hok : reportsRide s l)
    (hstep : machine.step s l = some s') {c : Conn} (hconn : s.conn = some c) {t : Transaction}
    (hnew : s'.system.accepted = s.system.accepted ++ [t]) {table : String}
    (hdropped : table ∈ c.dropped) :
    ∃ ws, c.found.lookup table = some ws ∧ ∀ w ∈ ws,
      (s'.system.hub.registry.cell w).projection.table = table →
        w ∉ s'.system.hub.registry.watchers := by
  have hinv := Reaches.inv (system_reaches h)
  have hann := Reaches.announced h c hconn
  obtain ⟨ws, hl⟩ := Finmap.mem_iff.1 (hann.dropped table hdropped)
  refine ⟨ws, hl, ?_⟩
  have hsame : ∀ {system : System}, system.accepted = s.system.accepted →
      s'.system = system → False := by
    intro system hacc heq
    rw [heq, hacc] at hnew
    simpa using congrArg List.length hnew
  cases State.step_stepped hstep with
  | @receive data recording sendErr c₀ hd hconn₀ hh =>
    cases hconn.symm.trans hconn₀
    cases hh with
    | accepted walBytes commitLSN endLSN hp hsink =>
      cases sink_of_ok hsink
      exact hann.unwatched hinv rfl (hok.isNew hconn _) hl
    | rejected _ _ _ _ _ hsink _ => exact (hsame rfl (sink_of_error hsink)).elim
    | broken _ _ _ => exact (hsame rfl rfl).elim
    | consumed _ _ => exact (hsame rfl rfl).elim
    | keepalive _ _ => exact (hsame rfl rfl).elim
  | hub hl hsystem => exact (hsame (accepted_of_stepped hsystem hl) rfl).elim
  | connect _ _ => exact (hsame rfl rfl).elim
  | timeout _ _ => exact (hsame rfl rfl).elim
  | cut => exact (hsame rfl rfl).elim
  | record _ => exact (hsame rfl rfl).elim

end Run

namespace Demo

open Watchd.Watch.Demo (relation openSnapshot)

/-- The members table as it was, and with a column added. -/
def oldShape : RelationShape := shapeOfRelation (relation 'd' 1)

/-- The table with a column added. -/
def newShape : RelationShape := { oldShape with columns := oldShape.columns ++ [⟨"role", 25⟩] }

/-- The relation and a row of it. -/
def relationSent : List Message := [.relation (relation 'd' 1), insertion]

/-- The hub accepts the first transaction; then the table's new shape is validated, and after a
reconnect both transactions, which precede the change, are sent up to the last COMMIT. -/
def resent : List Label :=
  .record oldShape :: openSnapshot.map .hub ++ [.connect 400] ++ sends first relationSent ++
    [.cut, .record newShape, .connect 400] ++ sends first relationSent ++
    (sends second [insertion]).dropLast

/-- The first transaction arrives after the new shape has been validated. -/
def unsent : List Label :=
  .record newShape :: openSnapshot.map .hub ++ [.connect 400] ++
    (sends first relationSent).dropLast

end Demo

/-- The one report rides on a transaction the hub discards: the next transaction's row is dropped
and the watcher, registered all the time, is not told. -/
theorem dropped_unannounced :
    ∃ (s s' : State) (c : Conn) (t : Transaction) (ws : List WatcherId) (w : WatcherId),
      Reaches machine (walsender [Demo.first, Demo.second] 400) s ∧
      walsender [Demo.first, Demo.second] 400 s (Demo.pgoutput (.commit 600 610)) ∧
      machine.step s (Demo.pgoutput (.commit 600 610)) = some s' ∧ s.conn = some c ∧
      s'.system.accepted = s.system.accepted ++ [t] ∧ "public.members" ∈ c.dropped ∧
      c.found.lookup "public.members" = some ws ∧ w ∈ ws ∧
      (s'.system.hub.registry.cell w).projection.table = "public.members" ∧
      w ∈ s'.system.hub.registry.watchers := by
  obtain ⟨s, hs, hwal, c, hc, s', hs', t, -, hacc, hdropped, ws, hws, w, hw, htable, hreg⟩ :=
    Demo.exists_of_run (walsender [Demo.first, Demo.second] 400) Demo.resent
      (fun s => walsender [Demo.first, Demo.second] 400 s (Demo.pgoutput (.commit 600 610)) ∧
        ∃ c ∈ s.conn, ∃ s' ∈ machine.step s (Demo.pgoutput (.commit 600 610)),
        ∃ t ∈ s'.system.accepted.getLast?, s'.system.accepted = s.system.accepted ++ [t] ∧
        "public.members" ∈ c.dropped ∧ ∃ ws ∈ c.found.lookup "public.members", ∃ w ∈ ws,
          (s'.system.hub.registry.cell w).projection.table = "public.members" ∧
          w ∈ s'.system.hub.registry.watchers) (by decide)
  exact ⟨s, s', c, t, ws, w, hs, hwal, hs', hc, hacc, hdropped, hws, hw, htable, hreg⟩

theorem dropped_announced_run :
    ∃ (s s' : State) (c : Conn) (ws : List WatcherId),
      machine.step s (Demo.pgoutput (.commit 500 510)) = some s' ∧ s.conn = some c ∧
      c.found.lookup "public.members" = some ws ∧ 0 ∈ s.system.hub.registry.watchers ∧
      ∀ w ∈ ws, (s'.system.hub.registry.cell w).projection.table = "public.members" →
        w ∉ s'.system.hub.registry.watchers := by
  obtain ⟨s, hs, hok, c, hc, s', hs', t, -, hacc, hdropped, hreg⟩ :=
    Demo.exists_of_run reportsRide Demo.unsent
      (fun s => reportsRide s (Demo.pgoutput (.commit 500 510)) ∧
        ∃ c ∈ s.conn, ∃ s' ∈ machine.step s (Demo.pgoutput (.commit 500 510)),
        ∃ t ∈ s'.system.accepted.getLast?, s'.system.accepted = s.system.accepted ++ [t] ∧
        "public.members" ∈ c.dropped ∧ 0 ∈ s.system.hub.registry.watchers) (by decide)
  obtain ⟨ws, hws, hgone⟩ := dropped_announced hs hok hs' hc hacc hdropped
  exact ⟨s, s', c, ws, hs', hc, hws, hreg, hgone⟩

end Watchd.Daemon
