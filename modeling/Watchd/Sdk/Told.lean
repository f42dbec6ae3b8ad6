import Watchd.Sdk.Follow
import Watchd.Server.Shared

/-!
# What a watch tells is true

`HubAt` says, phase by phase of a Watch call for the scene's scope, what a client
that has received everything the watch has sent knows.  Every step of the watch
sends only true messages, as long as the hub follows the history undisturbed, the
snapshot it is given covers a prefix, and a hub that has received nothing reports
no position past the snapshot's rows.

`HubAt.moves` is that step.
-/

namespace Watchd.Sdk

open Watchd.Cdc Watchd.Lib Watchd.Wire

/-- A watcher of the scope. -/
def Scene.watcher (X : Scene) : Watch.Watcher := ⟨X.projection, X.scope, [], false, .unset⟩

/-! ## Where `live` starts -/

/-- The arguments of `live`, how many transactions the client's rows hold then, and the snapshot it
was given on the stream. -/
inductive Based (X : Scene) : Watch.LiveArgs → Nat → Option Snapshot → Prop
  | resumed (c : Cursor) (hsrc : c.sourceID = X.srv.sourceID) (hc : c.lsn < 2 ^ 64) :
    Based X ⟨c, true, .after c⟩ (X.passed c.lsn) none
  | installed (snap : Snapshot) (rows : List Watch.Row) (n : Nat) (htaken : X.Taken snap rows n) :
    Based X ⟨snap.cursor, false, .notCovered snap⟩ n (some snap)

section Based

variable {X : Scene} {args : Watch.LiveArgs} {start : Nat} {base : Option Snapshot}

theorem Based.source (h : Based X args start base) : args.base.sourceID = X.srv.sourceID := by
  cases h with
  | resumed c hsrc hc => exact hsrc
  | installed snap rows n htaken => exact htaken.source

theorem Based.bounded (h : Based X args start base) : args.base.lsn < 2 ^ 64 := by
  cases h with
  | resumed c hsrc hc => exact hc
  | installed snap rows n htaken => exact htaken.bounded

/-- The watch needs what is not in the rows. -/
theorem Based.needs_iff (hX : X.Sound) (h : Based X args start base) {i : Nat} {t : Transaction}
    (hi : X.history[i]? = some t) : args.need.needs t = true ↔ start ≤ i := by
  cases h with
  | resumed c hsrc hc =>
    have hsame : t.cursor.sourceID = c.sourceID :=
      (hX.committed.source t (List.mem_of_getElem? hi)).trans hsrc.symm
    have hafter : (Watch.Need.after c).apply t = .ok (decide (t.commitLSN ≥ c.lsn)) := by
      simp [Watch.Need.apply, Transaction.after, hsame]
    rw [Watch.Need.needs_of_ok hafter, decide_eq_true_iff, ← Nat.not_lt, Scene.lt_passed_iff hX hi,
      Nat.not_lt]
  | installed snap rows n htaken =>
    obtain ⟨hin, hout⟩ := htaken.covers
    by_cases hlt : i < start
    · have hmem : t ∈ X.history.take start :=
        List.mem_iff_getElem?.2 ⟨i, by rw [List.getElem?_take_of_lt hlt]; exact hi⟩
      have hcov : (Watch.Need.notCovered snap).apply t = .ok false := by
        simp [Watch.Need.apply, hin t hmem, Except.map]
      rw [Watch.Need.needs_of_ok hcov]
      simpa using hlt
    · have hmem : t ∈ X.history.drop start :=
        List.mem_iff_getElem?.2 ⟨i - start, by
          rw [List.getElem?_drop, Nat.add_sub_cancel' (Nat.le_of_not_lt hlt)]; exact hi⟩
      have hcov : (Watch.Need.notCovered snap).apply t = .ok true := by
        simp [Watch.Need.apply, hout t hmem, Except.map]
      rw [Watch.Need.needs_of_ok hcov]
      simpa using hlt

/-- Nothing of what is in the rows is sent. -/
theorem Based.owed_start (hX : X.Sound) (h : Based X args start base) :
    X.watcher.owed args.need (X.history.take start) = [] := by
  refine feed_eq_nil _ _ fun t ht => ?_
  obtain ⟨i, hi⟩ := List.mem_iff_getElem?.1 ht
  rw [List.getElem?_take] at hi
  split at hi
  · next hlt =>
    have hneeds : args.need.needs t = false := by
      rw [← Bool.not_eq_true, h.needs_iff hX hi]
      exact Nat.not_le.2 hlt
    rw [Watch.Watcher.wants, hneeds, Bool.and_false]
  · cases hi

/-- What the watch does not want after its start has no part for the scope. -/
theorem Based.quiet (hX : X.Sound) (h : Based X args start base) {n k : Nat} (hn : start ≤ n)
    (hnone : ∀ t ∈ (X.history.take k).drop n, X.watcher.wants args.need t = false) :
    X.Quiet n k := by
  intro t ht
  have hwants := hnone t ht
  obtain ⟨j, hj⟩ := List.mem_iff_getElem?.1 ht
  have hi : X.history[n + j]? = some t := by
    rw [List.getElem?_drop, List.getElem?_take] at hj
    split at hj
    · exact hj
    · cases hj
  have hneeds := (h.needs_iff hX hi).2 (hn.trans (Nat.le_add_right ..))
  rw [Watch.Watcher.wants, hneeds, Bool.and_true] at hwants
  by_contra hne
  have hconcerns : X.watcher.concerns t = true := Watch.Watcher.concerns_iff.2 hne
  rw [hconcerns] at hwants
  cases hwants

end Based

/-! ## What is known in each phase -/

/-- The client's rows hold the first `n` transactions, and everything wanted of them was sent. -/
structure Live (X : Scene) (accepted : Nat) (hist : Watch.History) (sent : List Watch.Batch)
    (args : Watch.LiveArgs) (start n : Nat) (base : Option Snapshot) : Prop where
  based : Based X args start base
  le : start ≤ n
  reached : n = start ∨ n ≤ accepted
  sent_eq : sent = X.watcher.owed args.need (X.history.take n)
  nothing : hist.readNothing = true → X.passed args.base.lsn ≤ start

/-- A position that only the rows of the stream's own snapshot may be ahead of. -/
structure Tracks (X : Scene) (start n : Nat) (base : Option Snapshot) (pos : Cursor) : Prop where
  source : pos.sourceID = X.srv.sourceID
  bounded : pos.lsn < 2 ^ 64
  ahead : n ≤ X.passed pos.lsn ∨ n = start ∧ base.isSome = true

/-- A position nothing before which is missing. -/
structure Complete (X : Scene) (accepted n : Nat) (pos : Cursor) : Prop where
  quiet : X.Quiet n (X.passed pos.lsn)
  reached : X.passed pos.lsn ≤ n ∨ X.passed pos.lsn ≤ accepted

/-- A request of a client whose rows hold the first `n` transactions. -/
def Asks (X : Scene) (req : Watch.Request) (n : Nat) : Prop :=
  req.resumeCursor = "" ∨ ∃ lsn < 2 ^ 64, req.resumeCursor = X.srv.lsnString lsn ∧ X.passed lsn = n

/-- What a client knows that has received everything the watch has sent. -/
def HubAt (X : Scene) (accepted : Nat) (req : Watch.Request) (hist : Watch.History)
    (sent : List Watch.Event) : Watch.Phase → View → Prop
  | .start, v =>
    hist.need = none ∧ hist.readNothing = false ∧ sent = [] ∧ ∃ n, v = .live n none ∧ Asks X req n
  | .resume c, v => v = .live (X.passed c.lsn) none ∧ c.sourceID = X.srv.sourceID ∧ c.lsn < 2 ^ 64
  | .snapshot, v | .snapshotBegin _, v =>
    hist.need = none ∧ hist.readNothing = false ∧ sent = [] ∧ ∃ n, v = .live n none
  | .reading _, v =>
    hist.need = none ∧ hist.readNothing = false ∧
      ∃ n, v = .reading n ((Watch.rowsOf sent).map convertRow)
  | .overflowCheck _ snap, v | .clearStale _ snap, v | .recordSnapshot _ snap, v
  | .snapshotEnd _ snap, v =>
    hist.need = some (.notCovered snap) ∧ hist.readNothing = false ∧ Watch.batchesOf sent = [] ∧
      (∃ m, X.Taken snap (Watch.rowsOf sent) m) ∧
      ∃ n, v = .reading n ((Watch.rowsOf sent).map convertRow)
  | .backlog _ args, v | .position args _, v | .select args _ _, v =>
    ∃ start n base, v = .live n base ∧
      Live X accepted hist (Watch.batchesOf sent) args start n base
  | .drain args _ pos _, v | .deliver args _ pos _ _, v =>
    ∃ start n base, v = .live n base ∧
      Live X accepted hist (Watch.batchesOf sent) args start n base ∧ Tracks X start n base pos
  | .progress args _ pos _, v =>
    ∃ start n base, v = .live n base ∧
      Live X accepted hist (Watch.batchesOf sent) args start n base ∧ Tracks X start n base pos ∧
      Complete X accepted n pos
  | .resync _, _ | .refuse _, _ | .unregister _, _ | .returned _, _ => True

/-! ### Steps of the watch -/

section Live

variable {X : Scene} {accepted : Nat} {hist : Watch.History} {sent : List Watch.Batch}
  {args : Watch.LiveArgs} {start n : Nat} {base : Option Snapshot} {pos : Cursor}

/-- The next batch is the next part that matters. -/
theorem Live.next (hX : X.Sound) (h : Live X accepted hist sent args start n base)
    {b : Watch.Batch}
    (hb : sent ++ [b] <+: X.watcher.owed args.need (X.history.take accepted)) :
    ∃ i t, X.history[i]? = some t ∧ n ≤ i ∧ X.Quiet n i ∧ b = X.part t ∧
      Live X accepted hist (sent ++ [b]) args start (i + 1) base := by
  have hall : sent ++ [b] <+: X.watcher.owed args.need X.history :=
    hb.trans (feed_mono _ _ (List.take_prefix ..))
  rw [h.sent_eq] at hall
  obtain ⟨i, t, hle, hi, hwants, hpart, hbetween⟩ := feed_next _ _ hall
  have hquiet := h.based.quiet hX h.le hbetween
  have hsent : X.watcher.owed args.need (X.history.take n) =
      X.watcher.owed args.need (X.history.take i) := (feed_take_eq_iff _ _ hle).2 hbetween
  refine ⟨i, t, hi, hle, hquiet, hpart.symm, h.based,
    h.le.trans (hle.trans (Nat.le_succ i)), .inr ?_,
    ?_, h.nothing⟩
  · -- the batch is that of an accepted transaction, which its cursor tells
    obtain ⟨t', ht', hpart'⟩ :=
      List.mem_map.1 (hb.subset (List.mem_append_right _ List.mem_cons_self))
    obtain ⟨j, hj⟩ := List.mem_iff_getElem?.1 (List.mem_of_mem_filter ht')
    rw [List.getElem?_take] at hj
    split at hj
    · next hlt =>
      have hcursor : t'.cursor = t.cursor := by
        have heq := hpart'.trans hpart.symm
        exact congrArg Watch.Batch.cursor heq
      have hpassed := Scene.passed_cursor hX hj
      rw [hcursor, Scene.passed_cursor hX hi] at hpassed
      omega
    · cases hj
  · rw [h.sent_eq, hsent, ← hpart]
    exact (feed_take_succ _ _ hi hwants).symm

/-- The batch message is true. -/
theorem Live.tells_batch (hX : X.Sound) (h : Live X accepted hist sent args start n base)
    {b : Watch.Batch} (need : Option Watch.Need)
    (hb : sent ++ [b] <+: X.watcher.owed args.need (X.history.take accepted)) :
    ∃ i t, X.history[i]? = some t ∧ b.cursor = t.cursor ∧
      Tells X need (.live n base) (X.srv.convertBatch b) (.live (i + 1) base) ∧
      Live X accepted hist (sent ++ [b]) args start (i + 1) base := by
  obtain ⟨i, t, hi, hle, hquiet, rfl, hlive⟩ := h.next hX hb
  exact ⟨i, t, hi, rfl, .batch n i base t hi hle hquiet, hlive⟩

theorem Live.grow (h : Live X accepted hist sent args start n base) {accepted' : Nat}
    {hist' : Watch.History} (hle : accepted ≤ accepted')
    (hnothing : hist'.readNothing = hist.readNothing) :
    Live X accepted' hist' sent args start n base :=
  ⟨h.based, h.le, h.reached.imp_right fun hn => hn.trans hle, h.sent_eq, hnothing ▸ h.nothing⟩

/-- Raising the position keeps the rows behind it. -/
theorem Tracks.raise (hX : X.Sound) (h : Tracks X start n base pos) {c : Cursor}
    (hc : c.lsn < 2 ^ 64) : Tracks X start n base (Watch.raise c pos) := by
  obtain ⟨hsource, hle⟩ := Watch.le_raise c pos
  refine ⟨hsource.trans h.source, ?_, h.ahead.imp_left fun hn =>
    hn.trans (Scene.passed_mono hX hle)⟩
  rcases Watch.raise_cases c pos with ⟨heq, -⟩ | ⟨heq, -⟩
  · rw [heq]
    exact h.bounded
  · rw [heq]
    exact hc

/-- The position is raised past the batch just sent. -/
theorem Tracks.past (hX : X.Sound) (h : Tracks X start n base pos) {i : Nat} {t : Transaction}
    (hi : X.history[i]? = some t) : Tracks X start (i + 1) base (Watch.raise t.cursor pos) := by
  have hmem := List.mem_of_getElem? hi
  have hraised := h.raise hX (hX.committed.bounded t hmem)
  refine ⟨hraised.source, hraised.bounded, .inl ?_⟩
  have hle : t.cursor.lsn ≤ (Watch.raise t.cursor pos).lsn := by
    have hsame : t.cursor.sourceID = pos.sourceID :=
      (hX.committed.source t hmem).trans h.source.symm
    rcases Watch.raise_cases t.cursor pos with ⟨heq, hlater⟩ | ⟨heq, -⟩
    · rw [heq]
      rw [← Bool.not_eq_true, Watch.later_iff] at hlater
      exact Nat.le_of_not_lt fun hlt => hlater ⟨hsame, hlt⟩
    · rw [heq]
  calc i + 1 = X.passed t.cursor.lsn := (Scene.passed_cursor hX hi).symm
    _ ≤ X.passed (Watch.raise t.cursor pos).lsn := Scene.passed_mono hX hle

/-- The position a round starts at. -/
theorem Tracks.read (hX : X.Sound) (h : Live X accepted hist sent args start n base)
    (hle : accepted ≤ X.history.length) {received : Option Cursor}
    (hreceived : received = (X.history.take accepted).getLast?.map Transaction.cursor) :
    Tracks X start n base (args.startAt received) := by
  -- unless the stream has a snapshot of its own, the rows are not past the base or what was
  -- received
  have hahead : ∀ pos : Cursor, accepted ≤ X.passed pos.lsn →
      (base = none → start ≤ X.passed pos.lsn) →
      n ≤ X.passed pos.lsn ∨ n = start ∧ base.isSome = true := by
    intro pos hpos hbase
    rcases h.reached with heq | hn
    · cases hb : base with
      | none => exact .inl (heq ▸ hbase hb)
      | some snap => exact .inr ⟨heq, rfl⟩
    · exact .inl (hn.trans hpos)
  have hbased : base = none → start = X.passed args.base.lsn ∧ args.baseSafe = true := by
    rintro rfl
    cases h.based
    exact ⟨rfl, rfl⟩
  cases hlast : (X.history.take accepted).getLast? with
  | none =>
    have hzero : accepted = 0 := by
      have hnil := congrArg List.length (List.getLast?_eq_none_iff.1 hlast)
      rw [List.length_take, Nat.min_eq_left hle] at hnil
      exact hnil
    rw [hreceived, hlast]
    exact ⟨h.based.source, h.based.bounded, hahead _ (hzero ▸ Nat.zero_le _) fun hb =>
      (hbased hb).1.le⟩
  | some newest =>
    have hget : X.history[accepted - 1]? = some newest ∧ 0 < accepted := by
      rw [List.getLast?_eq_getElem?, List.length_take, Nat.min_eq_left hle,
        List.getElem?_take] at hlast
      split at hlast
      · exact ⟨hlast, by omega⟩
      · cases hlast
    have hmem := List.mem_of_getElem? hget.1
    have hpassed : X.passed newest.cursor.lsn = accepted := by
      rw [Scene.passed_cursor hX hget.1]
      omega
    have hsame : args.base.sourceID = newest.cursor.sourceID :=
      h.based.source.trans (hX.committed.source newest hmem).symm
    rw [hreceived, hlast]
    simp only [Option.map_some, Watch.LiveArgs.startAt]
    split
    · next hsafe =>
      have hlater := Watch.later_iff.1 (Bool.and_eq_true_iff.1 hsafe).2
      refine ⟨h.based.source, h.based.bounded, hahead _ ?_ fun hb => (hbased hb).1.le⟩
      rw [← hpassed]
      exact Scene.passed_mono hX hlater.2.le
    · next hsafe =>
      refine ⟨hX.committed.source newest hmem, hX.committed.bounded newest hmem,
        hahead _ hpassed.ge fun hb => ?_⟩
      obtain ⟨hstart, hbaseSafe⟩ := hbased hb
      rw [hstart]
      refine Scene.passed_mono hX (Nat.le_of_not_lt fun hlt => hsafe ?_)
      rw [hbaseSafe, Bool.true_and]
      exact Watch.later_iff.2 ⟨hsame, hlt⟩

/-- With the queue drained, nothing before the round's position is missing. -/
theorem Complete.drained (hX : X.Sound) (h : Live X accepted hist sent args start n base)
    (hsent : sent = X.watcher.owed args.need (X.history.take accepted))
    (horigin : (pos = args.base ∧ (args.baseSafe = true ∨ hist.readNothing = true)) ∨
      ∃ t ∈ X.history.take accepted, pos = t.cursor) : Complete X accepted n pos := by
  rcases horigin with ⟨rfl, hbase⟩ | ⟨t, ht, rfl⟩
  · have hpassed : X.passed args.base.lsn ≤ start := by
      rcases hbase with hsafe | hnothing
      · cases h.based with
        | resumed c hsrc hc => exact Nat.le_refl _
        | installed snap rows n htaken => cases hsafe
      · exact h.nothing hnothing
    have hle := hpassed.trans h.le
    exact ⟨Scene.quiet_of_le hle, .inl hle⟩
  · obtain ⟨j, hj⟩ := List.mem_iff_getElem?.1 ht
    rw [List.getElem?_take] at hj
    split at hj
    · next hlt =>
      have hpassed : X.passed t.cursor.lsn ≤ accepted := (Scene.passed_cursor hX hj).le.trans hlt
      refine ⟨?_, .inr hpassed⟩
      rcases Nat.le_total n accepted with hle | hle
      · have hnone := (feed_take_eq_iff _ _ hle).1 (h.sent_eq.symm.trans hsent)
        exact (h.based.quiet hX h.le hnone).mono hpassed
      · exact Scene.quiet_of_le (hpassed.trans hle)
    · cases hj

/-- Progress moves the client past transactions without a part for the scope. -/
theorem Live.progressed (h : Live X accepted hist sent args start n base)
    (hpos : Complete X accepted n pos) :
    Live X accepted hist sent args start (max n (X.passed pos.lsn)) base := by
  refine ⟨h.based, h.le.trans (Nat.le_max_left ..), ?_, ?_, h.nothing⟩
  · rcases Nat.le_total (X.passed pos.lsn) n with hle | hle
    · rw [Nat.max_eq_left hle]
      exact h.reached
    · rw [Nat.max_eq_right hle]
      rcases hpos.reached with hn | haccepted
      · rw [Nat.le_antisymm hn hle]
        exact h.reached
      · exact .inr haccepted
  · rcases Nat.le_total (X.passed pos.lsn) n with hle | hle
    · rw [Nat.max_eq_left hle]
      exact h.sent_eq
    · rw [Nat.max_eq_right hle, h.sent_eq]
      refine (feed_take_eq_iff _ _ hle).2 fun t ht => ?_
      have hnone : X.watcher.changesOf t = [] := hpos.quiet t ht
      simp [Watch.Watcher.wants, Watch.Watcher.concerns, hnone]

/-- The progress message is true. -/
theorem Live.tells (h : Live X accepted hist sent args start n base)
    (htracks : Tracks X start n base pos) (hpos : Complete X accepted n pos)
    (need : Option Watch.Need) :
    Tells X need (.live n base) (.progress (X.srv.encodeCursor pos))
      (.live (max n (X.passed pos.lsn)) base) := by
  refine .progress n base pos htracks.bounded hpos.quiet (htracks.ahead.imp_right ?_)
  rintro ⟨rfl, hbase⟩
  cases h.based with
  | resumed c hsrc hc => cases hbase
  | installed snap rows n htaken => exact ⟨snap, rfl, htaken.covers⟩

end Live

/-- The messages of a page. -/
theorem Tells.rows {X : Scene} {need : Option Watch.Need} {n : Nat} {msgs : List Wire.Message}
    (hkind : ∀ msg ∈ msgs, msg.kind = some .snapshotRows) (rows : List WireRow) :
    Path (Tells X need) (.reading n rows) msgs
      (.reading n (rows ++ msgs.flatMap Message.rows)) := by
  induction msgs generalizing rows with
  | nil =>
    rw [List.flatMap_nil, List.append_nil]
    exact .nil _
  | cons msg msgs ih =>
    rw [List.forall_mem_cons] at hkind
    cases msg with
    | snapshotRows new =>
      rw [List.flatMap_cons, ← List.append_assoc]
      exact .cons (.snapshotRows n rows new) (ih hkind.2 (rows ++ new))
    | _ => cases hkind.1

/-! ### The steps of a watch tell the truth -/

/-- What is known does not depend on what the hub accepts. -/
theorem HubAt.grow {X : Scene} {accepted accepted' : Nat} {req : Watch.Request}
    {hist hist' : Watch.History} {sent : List Watch.Event} {p : Watch.Phase} {v : View}
    (h : HubAt X accepted req hist sent p v) (hle : accepted ≤ accepted')
    (hneed : hist'.need = hist.need) (hnothing : hist'.readNothing = hist.readNothing) :
    HubAt X accepted' req hist' sent p v := by
  have hlive : ∀ {args start n base},
      Live X accepted hist (Watch.batchesOf sent) args start n base →
      Live X accepted' hist' (Watch.batchesOf sent) args start n base :=
    fun hlive => hlive.grow hle hnothing
  cases p with
  | start | snapshot | snapshotBegin streamed | reading streamed | overflowCheck streamed snap
  | clearStale streamed snap | recordSnapshot batches snap | snapshotEnd batches snap =>
    unfold HubAt at h ⊢
    rw [hneed, hnothing]
    exact h
  | resume c => exact h
  | backlog batches args | position args round | select args progressed tick =>
    obtain ⟨start, n, base, hv, hl⟩ := h
    exact ⟨start, n, base, hv, hlive hl⟩
  | drain args round pos tick | deliver args round pos tick item =>
    obtain ⟨start, n, base, hv, hl, htracks⟩ := h
    exact ⟨start, n, base, hv, hlive hl, htracks⟩
  | progress args round pos tick =>
    obtain ⟨start, n, base, hv, hl, htracks, hcomplete⟩ := h
    exact ⟨start, n, base, hv, hlive hl, htracks, hcomplete.quiet,
      hcomplete.reached.imp_right fun hreached => hreached.trans hle⟩
  | resync reason | refuse reason | unregister result | returned result => trivial

section Inversion

variable {req : Watch.Request} {closed : Watch.TickId → Bool} {h : Watch.Hub} {id : Watch.WatcherId}
  {act : Watch.Act} {m : Watch.Move}

/-- A watch resumes from the cursor it was asked to. -/
theorem parsed_of_step {c : Cursor} (hm : Watch.Phase.step req closed h id .start act = some m)
    (hp : m.phase = .resume c) :
    req.resumeCursor ≠ "" ∧ parseCursor h.parseLSN h.sourceID req.resumeCursor = .ok c := by
  cases act <;> simp only [Watch.Phase.step, reduceCtorEq] at hm
  split at hm
  · cases hm
    cases hp
  · split at hm
    · next hne =>
      split at hm
      · next cursor hparse =>
        cases hm
        cases hp
        exact ⟨hne, hparse⟩
      · cases hm
        cases hp
    · cases hm
      cases hp

/-- The snapshot of a watch is what the snapshotter returned. -/
theorem read_of_step {streamed streamed' : List Transaction} {snap : Snapshot}
    (hm : Watch.Phase.step req closed h id (.reading streamed) act = some m)
    (hp : m.phase = .overflowCheck streamed' snap) : act = .read (.ok snap) := by
  cases act with
  | rows rs =>
    simp only [Watch.Phase.step] at hm
    cases hm
    cases hp
  | read result =>
    cases result with
    | ok snap' =>
      simp only [Watch.Phase.step] at hm
      cases hm
      cases hp
      rfl
    | error err =>
      simp only [Watch.Phase.step] at hm
      split at hm
      · cases hm
        cases hp
      · split at hm <;> cases hm <;> cases hp
  | _ => simp only [Watch.Phase.step, reduceCtorEq] at hm

end Inversion

theorem Asks.parsed {X : Scene} (hX : X.Sound) {req : Watch.Request} {n : Nat} (h : Asks X req n)
    (hne : req.resumeCursor ≠ "") {c : Cursor}
    (hparse : parseCursor X.parseLSN X.srv.sourceID req.resumeCursor = .ok c) :
    X.passed c.lsn = n ∧ c.lsn < 2 ^ 64 := by
  rcases h with hempty | ⟨lsn, hlsn, htext, hpassed⟩
  · exact absurd hempty hne
  · rw [htext] at hparse
    unfold parseCursor at hparse
    rw [if_neg hX.serves.1, hX.readsBack lsn hlsn] at hparse
    cases hparse
    exact ⟨hpassed, hlsn⟩

/-- The hub serves the scene: it is of the scene's source and knows its projection. -/
structure Hosts (X : Scene) (h : Watch.Hub) : Prop where
  source : h.sourceID = X.srv.sourceID
  parse : h.parseLSN = X.parseLSN
  projection : h.projections.lookup X.name = some X.projection

/-- A hub that has received nothing is not about to report a position past the snapshot's rows. -/
def settled (history : List Transaction) (h : Watch.Hub) : Watch.Phase → Prop
  | .position ⟨_, _, .notCovered snap⟩ _ => h.window.received = none →
    ∀ t ∈ history, t.after snap.cursor = .ok false → snap.covers t = .ok true
  | _ => True

instance (history : List Transaction) (h : Watch.Hub) :
    (p : Watch.Phase) → Decidable (settled history h p)
  | .position ⟨_, _, .notCovered _⟩ _ => inferInstanceAs (Decidable (_ → _))
  | .position ⟨_, _, .after _⟩ _ => .isTrue trivial
  | .start | .resume _ | .snapshot | .snapshotBegin _ | .reading _ | .overflowCheck _ _
  | .clearStale _ _ | .recordSnapshot _ _ | .snapshotEnd _ _ | .backlog _ _ | .drain _ _ _ _
  | .deliver _ _ _ _ _ | .progress _ _ _ _ | .select _ _ _ | .resync _ | .refuse _ | .unregister _
  | .returned _ => .isTrue trivial

section Moves

variable {X : Scene} {s : Served} {id : Watch.WatcherId} {ws : Watch.WatchState} {v : View}

/-- The batch a watch owes next, among what the hub has accepted. -/
theorem owed_next {c : Watch.Watcher} (hcalm : Watch.Calm X.history s.system)
    (hws : s.system.watches[id]? = some ws) (hstatic : c.Static X.watcher) {need : Watch.Need}
    {sent : List Watch.Batch} {b : Watch.Batch} {held : List Watch.Batch}
    (h : Watch.Owes c ws.history.need ws.history.ring (ws.history.since s.system.accepted) sent need
      (b :: held)) :
    sent ++ [b] <+: X.watcher.owed need (X.history.take s.system.accepted.length) := by
  rw [← hcalm.accepted_eq, ← hstatic.owed_eq, ← hcalm.stream hws]
  refine ⟨held ++ feed (c.wants need) c.batchOf (c.queue.map Watch.Queued.transaction), ?_⟩
  rw [List.append_assoc]
  exact h.feeding

/-- With the queue drained, everything owed of what the hub has accepted was sent. -/
theorem owed_drained {c : Watch.Watcher} (hcalm : Watch.Calm X.history s.system)
    (hws : s.system.watches[id]? = some ws) (hstatic : c.Static X.watcher) {need : Watch.Need}
    {sent : List Watch.Batch}
    (h : Watch.Owes c ws.history.need ws.history.ring (ws.history.since s.system.accepted) sent need
      []) (hqueue : c.queue = []) :
    sent = X.watcher.owed need (X.history.take s.system.accepted.length) := by
  rw [← hcalm.accepted_eq, ← hstatic.owed_eq, ← hcalm.stream hws]
  have hfeed : Feeding _ _ _ _ _ (c.queue.map _) := h.feeding
  rw [hqueue] at hfeed
  exact hfeed.drained

/-- A hub about to report its first position has nothing before it missing. -/
theorem settled_passed (hX : X.Sound) {args : Watch.LiveArgs} {round : Watch.Round} {start : Nat}
    {base : Option Snapshot} {h : Watch.Hub} (hbased : Based X args start base)
    (hsettled : settled X.history h (.position args round)) (hnone : h.window.received = none) :
    X.passed args.base.lsn ≤ start := by
  cases hbased with
  | resumed c hsrc hc => exact Nat.le_refl _
  | installed snap rows n htaken =>
    refine Nat.le_of_not_lt fun hlt => ?_
    -- the first transaction the snapshot does not cover would be before its position
    have hlen : start < X.history.length := hlt.trans_le (X.passed_le _)
    have hget : X.history[start]? = some X.history[start] := List.getElem?_eq_getElem hlen
    have hmem := List.mem_of_getElem? hget
    have hnot : X.history[start].after snap.cursor = .ok false := by
      have hbefore := (Scene.lt_passed_iff hX hget).1 hlt
      simp [Transaction.after, (hX.committed.source _ hmem).trans htaken.source.symm, hbefore]
    have huncovered := htaken.covers.2 X.history[start]
      (List.mem_iff_getElem?.2 ⟨0, by rw [List.getElem?_drop]; exact hget⟩)
    rw [hsettled hnone _ hmem hnot] at huncovered
    cases huncovered

/-- A new round reads the hub's position. -/
theorem Live.positioned (hX : X.Sound) (hinv : Watch.Inv s.system)
    (hcalm : Watch.Calm X.history s.system) {hist hist' : Watch.History} {sent : List Watch.Batch}
    {args : Watch.LiveArgs} {round : Watch.Round} {start n : Nat} {base : Option Snapshot}
    (h : Live X s.system.accepted.length hist sent args start n base)
    (hsettled : settled X.history s.system.hub (.position args round))
    (hnothing : hist'.readNothing = (hist.readNothing || s.system.hub.window.received.isNone)) :
    Live X s.system.accepted.length hist' sent args start n base ∧
      Tracks X start n base (args.startAt s.system.hub.window.received) := by
  obtain ⟨evicted, hacc, hret⟩ := hinv.retains
  have hreceived := hret.received
  rw [← hacc, hcalm.accepted_eq] at hreceived
  refine ⟨⟨h.based, h.le, h.reached, h.sent_eq, fun hread => ?_⟩,
    .read hX h hcalm.follows.length_le hreceived⟩
  rw [hnothing] at hread
  rcases Bool.or_eq_true_iff.1 hread with hold | hnew
  · exact h.nothing hold
  · exact settled_passed hX h.based hsettled (Option.isNone_iff_eq_none.1 hnew)

/-- **The steps of a watch tell the truth.** -/
theorem HubAt.moves (hX : X.Sound) (hserved : Reaches (served X.srv) anyStep s)
    (hcalm : Watch.Calm X.history s.system) (hhub : Hosts X s.system.hub)
    (hws : s.system.watches[id]? = some ws)
    (hstatic : (s.system.hub.registry.cell id).Static X.watcher) {act : Watch.Act} {m : Watch.Move}
    (hm : ws.phase.step ws.request (fun tick => decide (tick ∈ s.system.closed))
      s.system.hub id act =
      some m)
    (hread : ∀ streamed snap, ws.phase = .reading streamed → act = .read (.ok snap) →
      ∃ n, X.Taken snap (Watch.rowsOf ws.sent) n)
    (hsettled : settled X.history s.system.hub ws.phase)
    (h : HubAt X s.system.accepted.length ws.request ws.history ws.sent ws.phase v) :
    ∃ v', Path (Tells X (ws.history.note s.system id ws.phase m.phase).need) v
        (m.sent.toList.flatMap (X.srv.send s.memos)) v' ∧
      HubAt X s.system.accepted.length ws.request (ws.history.note s.system id ws.phase m.phase)
        (ws.sent ++ m.sent.toList) m.phase v' := by
  have hreach := Served.reaches hserved
  have hinv := Watch.Reaches.inv hreach
  obtain ⟨hbooks, hhand⟩ := hinv.watch id ws hws
  have hround := Watch.Reaches.roundOk hreach id ws hws
  have hended := hcalm.ended id ws hws
  have hend : ws.history.endAt s.system.accepted = s.system.accepted.length :=
    Watch.History.endAt_of_none hended
  have hmessage : ∀ b, batchAt ws.phase = some b →
      X.srv.batchMessage s.memos b = X.srv.convertBatch b :=
    fun b => Served.batchMessage_eq hserved hws
  have hitem : ∀ item ∈ (s.system.hub.registry.cell id).queue,
      item.transaction.cursor.lsn < 2 ^ 64 := by
    intro item hitem
    have hmem := hbooks.mem_take_of_since hitem
    exact hX.committed.bounded _ (hcalm.follows.subset (List.mem_of_mem_take hmem))
  have hmoves := Watch.Phase.step_moves hm
  obtain ⟨req, p, sent, hist⟩ := ws
  dsimp only at *
  cases hmoves with
  | parsed cursor hsrc =>
    obtain ⟨-, -, -, n, rfl, hasks⟩ := h
    obtain ⟨hne, hparse⟩ := parsed_of_step hm rfl
    rw [hhub.parse, hhub.source] at hparse
    obtain ⟨rfl, hc⟩ := hasks.parsed hX hne hparse
    exact ⟨_, .nil _, rfl, hsrc.trans hhub.source, hc⟩
  | scratch =>
    obtain ⟨hneed, hnothing, rfl, n, rfl, -⟩ := h
    exact ⟨_, .nil _, hneed, hnothing, rfl, n, rfl⟩
  | turnedAway p p' hp hp' =>
    rcases hp' with ⟨reason, rfl⟩ | ⟨err, rfl⟩
    · exact ⟨v, .nil _, trivial⟩
    · exact ⟨v, .nil _, trivial⟩
  | resumed cursor batches hfloor hbatches =>
    obtain ⟨rfl, hsrc, hc⟩ := h
    have hbased := Based.resumed (X := X) cursor hsrc hc
    refine ⟨_, .nil _, _, _, _, rfl, hbased, Nat.le_refl _, .inl rfl, ?_, fun _ => Nat.le_refl _⟩
    rw [Watch.batchesOf_quiet _ rfl, hhand.1, hbased.owed_start hX]
  | registered =>
    obtain ⟨hneed, hnothing, rfl, n, rfl⟩ := h
    exact ⟨_, .nil _, hneed, hnothing, rfl, n, rfl⟩
  | begun streamed =>
    obtain ⟨hneed, hnothing, rfl, n, rfl⟩ := h
    exact ⟨_, .single (.snapshotBegin n none), hneed, hnothing, n, rfl⟩
  | rows streamed rows =>
    obtain ⟨hneed, hnothing, n, rfl⟩ := h
    refine ⟨_, ?_, hneed, hnothing, n, rfl⟩
    have hrows : Watch.rowsOf (sent ++ [.snapshotRows rows]) = Watch.rowsOf sent ++ rows := by
      simp [Watch.rowsOf]
    have hsend : [Watch.Event.snapshotRows rows].flatMap (X.srv.send s.memos) =
        X.srv.sendRows rows := by
      simp [Server.send]
    rw [Option.toList_some, hrows, hsend, List.map_append, ← X.srv.sendRows_rows rows]
    exact Tells.rows (X.srv.sendRows_kind rows) _
  | read streamed snap =>
    obtain ⟨hneed, hnothing, n, rfl⟩ := h
    obtain ⟨m, htaken⟩ := hread streamed snap rfl (read_of_step hm rfl)
    simp only [Option.toList_none, List.append_nil]
    exact ⟨_, .nil _, rfl, hnothing, hhand.unsent, ⟨m, htaken⟩, n, rfl⟩
  | installs streamed snap hover =>
    simp only [Option.toList_none, List.append_nil]
    exact ⟨v, .nil _, h⟩
  | cleared streamed snap stale batches hbatches =>
    simp only [Option.toList_none, List.append_nil]
    exact ⟨v, .nil _, h⟩
  | recorded batches snap =>
    simp only [Option.toList_none, List.append_nil]
    exact ⟨v, .nil _, h⟩
  | installed batches snap =>
    obtain ⟨hneed, hnothing, hsent, ⟨n', htaken⟩, n, rfl⟩ := h
    have hbased := Based.installed snap _ n' htaken
    refine ⟨_, .single (.snapshotEnd n n' _ snap hneed htaken), _, _, _, rfl, hbased, Nat.le_refl _,
      .inl rfl, ?_, fun hread => ?_⟩
    · rw [Watch.batchesOf_quiet _ rfl, hsent, hbased.owed_start hX]
    · rw [show hist.readNothing = true from hread] at hnothing
      cases hnothing
  | caughtUp args =>
    simp only [Option.toList_none, List.append_nil]
    exact ⟨v, .nil _, h⟩
  | replayed b batches args =>
    obtain ⟨start, n, base, rfl, hlive⟩ := h
    obtain ⟨i, t, hi, -, htells, hlive'⟩ :=
      hlive.tells_batch hX hist.need (owed_next hcalm hws hstatic hhand)
    refine ⟨.live (i + 1) base, ?_, start, i + 1, base, rfl, ?_⟩
    · rw [← hmessage b rfl] at htells
      exact .single htells
    · rw [Watch.batchesOf_append, Option.toList_some, Watch.batchesOf_singleton_batch,
        Watch.Owes.bare_eq hhand List.mem_cons_self]
      exact hlive'
  | positioned args round =>
    obtain ⟨start, n, base, rfl, hlive⟩ := h
    simp only [Option.toList_none, List.append_nil]
    exact ⟨_, .nil _, start, n, base, rfl, hlive.positioned hX hinv hcalm hsettled rfl⟩
  | drained args round pos tick hqueue =>
    obtain ⟨start, n, base, rfl, hlive, htracks⟩ := h
    have hsent := owed_drained hcalm hws hstatic hhand hqueue
    have hread : hist.endedAtRead = false := by
      rw [← Bool.not_eq_true]
      exact fun hread => hround.ended hread hended
    have horigin := hround.origin hread
    rw [hend, List.take_length] at horigin
    simp only [Option.toList_none, List.append_nil]
    refine ⟨_, .nil _, start, n, base, rfl, hlive, htracks, .drained hX hlive hsent ?_⟩
    rw [← hcalm.accepted_eq]
    exact horigin.imp_left fun hbase => ⟨hbase.1, hbase.2.imp_right And.right⟩
  | received args round pos tick item queue hqueue hneed =>
    simp only [Option.toList_none, List.append_nil]
    exact ⟨v, .nil _, h⟩
  | skipped args round pos tick item queue hqueue hneed =>
    obtain ⟨start, n, base, rfl, hlive, htracks⟩ := h
    have hmem : item ∈ (s.system.hub.registry.cell id).queue := by
      rw [hqueue]
      exact List.mem_cons_self
    simp only [Option.toList_none, List.append_nil]
    exact ⟨_, .nil _, start, n, base, rfl, hlive, htracks.raise hX (hitem item hmem)⟩
  | delivered args round pos tick item =>
    obtain ⟨start, n, base, rfl, hlive, htracks⟩ := h
    obtain ⟨howes, hchanges⟩ := hhand
    obtain ⟨i, t, hi, hcursor, htells, hlive'⟩ :=
      hlive.tells_batch hX hist.need (owed_next hcalm hws hstatic howes)
    have hbare := Watch.Queued.batch_bare hchanges
    refine ⟨.live (i + 1) base, ?_, start, i + 1, base, rfl, ?_, ?_⟩
    · rw [← hbare] at htells
      have hconv : X.srv.batchMessage s.memos item.batch = X.srv.convertBatch item.batch.bare :=
        hmessage item.batch rfl
      rw [← hconv] at htells
      exact .single htells
    · rw [Watch.batchesOf_append, Option.toList_some, Watch.batchesOf_singleton_batch, hbare]
      exact hlive'
    · rw [show item.transaction.cursor = t.cursor from hcursor]
      exact htracks.past hX hi
  | progressed args round pos tick hdue =>
    obtain ⟨start, n, base, rfl, hlive, htracks, hcomplete⟩ := h
    refine ⟨_, .single (hlive.tells htracks hcomplete _), start, _, base, rfl, ?_⟩
    rw [Watch.batchesOf_quiet _ rfl]
    exact hlive.progressed hcomplete
  | unchanged args round pos tick =>
    obtain ⟨start, n, base, rfl, hlive, -, -⟩ := h
    simp only [Option.toList_none, List.append_nil]
    exact ⟨_, .nil _, start, n, base, rfl, hlive⟩
  | woken args progressed tick =>
    simp only [Option.toList_none, List.append_nil]
    exact ⟨v, .nil _, h⟩
  | leaves p p' stale hp hp' =>
    refine ⟨v, .nil _, ?_⟩
    cases p' <;> trivial
  | resynced reason => exact ⟨.ended, .single (.resync v _), trivial⟩
  | refused reason => exact ⟨.ended, .single (.resync v _), trivial⟩
  | incomparable args round pos tick item queue hqueue err => exact ⟨v, .nil _, trivial⟩
  | refusalFailed reason err => exact ⟨v, .nil _, trivial⟩
  | unregistered result => exact ⟨v, .nil _, trivial⟩

end Moves

end Watchd.Sdk
