import Mathlib.Data.List.Forall2
import Watchd.Cdc.Changes

/-!
# The transactions of a message sequence

A sequence of pgoutput messages is cut into segments, each from a BEGIN to its
COMMIT, and a tail in which nothing commits.  A decoder without a registry
returns one transaction for each segment, with the rows of that segment as the
relation definitions received before each of them say.

`returned_are_committed` states this for every sequence of messages.
-/

namespace Watchd.Cdc

open Watchd.Lib

/-! ## Segments -/

/-- BEGIN and COMMIT. -/
def Message.isBoundary : Message → Bool
  | .begin _ _ => true
  | .commit _ _ => true
  | _ => false

/-- What is received from the end of one transaction to the end of the next: the messages between
the two, BEGIN, the messages of the transaction, COMMIT. -/
structure Segment where
  lead : List Message
  xid : UInt32
  commitTime : Time
  body : List Message
  commitLSN : Nat
  transactionEndLSN : Nat

namespace Segment

/-- The messages of a segment. -/
def messages (s : Segment) : List Message :=
  s.lead ++ .begin s.xid s.commitTime :: (s.body ++ [.commit s.commitLSN s.transactionEndLSN])

/-- Begin and Commit stand only where the segment has them. -/
structure Proper (s : Segment) : Prop where
  lead : ∀ msg ∈ s.lead, msg.isBoundary = false
  body : ∀ msg ∈ s.body, msg.isBoundary = false

end Segment

/-! ## What a segment commits -/

/-- The definition last received for a relation ID. -/
def latestRelation (past : List Message) (id : UInt32) : Option RelationMessage :=
  (past.filterMap Message.relation?).reverse.find? (·.relationID = id)

/-- The row messages of `body`, each with everything received before it. -/
def rowsOf (past body : List Message) : List (List Message × Message) :=
  (withPast (fun msg => [msg]) past body).filter (·.2.row?.isSome)

/-- The row is `change` under the definition last received for its relation. -/
def DecodedAs (maxValueBytes : Int) (row : List Message × Message) (change : Change) : Prop :=
  ∃ rm, row.2.row? = some rm.relationID ∧ latestRelation row.1 rm.relationID = some rm ∧
    row.2.Decodes rm maxValueBytes change

/-- `t` is the transaction of a segment, given with everything received before it. -/
structure Segment.Commits (maxValueBytes : Int) (s : List Message × Segment) (t : Transaction) :
    Prop where
  changes : List.Forall₂ (DecodedAs maxValueBytes)
    (rowsOf (s.1 ++ s.2.lead ++ [.begin s.2.xid s.2.commitTime]) s.2.body) t.changes
  xid_eq : t.xid = s.2.xid
  commitTime_eq : t.commitTime = s.2.commitTime
  commitLSN_eq : t.commitLSN = s.2.commitLSN
  cursor_eq : t.cursor = ⟨"", s.2.transactionEndLSN⟩

/-! ## One message more -/

theorem latestRelation_append (past : List Message) (msg : Message) (id : UInt32) :
    latestRelation (past ++ [msg]) id =
      match msg.relation? with
      | some m => if m.relationID = id then some m else latestRelation past id
      | none => latestRelation past id := by
  unfold latestRelation
  cases hmsg : msg.relation? with
  | none => simp [hmsg]
  | some m => by_cases h : m.relationID = id <;> simp [hmsg, h]

theorem rowsOf_append (past body : List Message) (msg : Message) :
    rowsOf past (body ++ [msg]) =
      rowsOf past body ++ if msg.row?.isSome then [(past ++ body, msg)] else [] := by
  unfold rowsOf
  rw [withPast_append, List.filter_append]
  by_cases h : msg.row?.isSome = true <;> simp [h]

theorem rowsOf_append_of_none {msg : Message} (h : msg.row? = none) (past body : List Message) :
    rowsOf past (body ++ [msg]) = rowsOf past body := by
  simp [rowsOf_append, h]

/-! ## The decoder over a sequence -/

/-- `Consume` of each message of a sequence, without a registry, up to the first error; gives the
transactions returned. -/
def Decoder.consumeAll (d : Decoder) (msgs : List Message) :
    Except GoError (Decoder × List Transaction) :=
  msgs.foldlM (fun s msg =>
    match s.1.consume none msg with
    | (_, .error err) => .error err
    | (d, .ok t) => .ok (d, s.2 ++ t.toList)) (d, [])

/-- The relations the decoder holds are the definitions last received. -/
def Decoder.HoldsLatest (d : Decoder) (past : List Message) : Prop :=
  ∀ id, Option.Rel RelationInfo.IsOf (d.relations.lookup id) (latestRelation past id)

/-- What the decoder holds of the messages since the last COMMIT: nothing, or the open transaction
with the rows of its messages so far. -/
def Decoder.HoldsTail (d : Decoder) (maxValueBytes : Int) (past tail : List Message) : Prop :=
  match d.pending with
  | none => ∀ msg ∈ tail, msg.isBoundary = false
  | some changes => ∃ lead body,
      tail = lead ++ .begin d.pendingXid d.pendingCommitTime :: body ∧
      (∀ msg ∈ lead, msg.isBoundary = false) ∧ (∀ msg ∈ body, msg.isBoundary = false) ∧
      List.Forall₂ (DecodedAs maxValueBytes)
        (rowsOf (past ++ lead ++ [.begin d.pendingXid d.pendingCommitTime]) body) changes

/-- The decoder after `msgs`: one transaction for each segment, and the tail held back. -/
structure Scanned (maxValueBytes : Int) (msgs : List Message) (d : Decoder)
    (returned : List Transaction) (segments : List Segment) (tail : List Message) : Prop where
  limit : d.maxValueBytes = maxValueBytes
  latest : d.HoldsLatest msgs
  compatible : ∀ id info, d.relations.lookup id = some info → info.incompatible = none
  messages_eq : msgs = segments.flatMap Segment.messages ++ tail
  proper : ∀ s ∈ segments, s.Proper
  returned : List.Forall₂ (Segment.Commits maxValueBytes) (withPast Segment.messages [] segments)
    returned
  tail : d.HoldsTail maxValueBytes (segments.flatMap Segment.messages) tail

/-! ## One message -/

theorem Message.isBoundary_of_row {msg : Message} {id : UInt32} (h : msg.row? = some id) :
    msg.isBoundary = false := by
  cases msg <;> first | rfl | cases h

theorem relationID_of_latestRelation {past : List Message} {id : UInt32} {rm : RelationMessage}
    (h : latestRelation past id = some rm) : rm.relationID = id := by
  simpa using List.find?_some h

namespace Decoder.HoldsLatest

variable {d d' : Decoder} {past : List Message}

/-- A known relation, with the definition it was made from. -/
theorem exists_isOf (h : d.HoldsLatest past) {id : UInt32} {info : RelationInfo}
    (hl : d.relations.lookup id = some info) :
    ∃ rm, rm.relationID = id ∧ latestRelation past id = some rm ∧ info.IsOf rm := by
  have hrel := h id
  rw [hl] at hrel
  cases hlast : latestRelation past id with
  | none =>
    rw [hlast] at hrel
    cases hrel
  | some rm =>
    rw [hlast] at hrel
    cases hrel with
    | some hof => exact ⟨rm, relationID_of_latestRelation hlast, rfl, hof⟩

theorem rechecked (h : d.HoldsLatest past) {reads : Option Reads} {id : UInt32}
    {info : RelationInfo} (hre : Rechecked d reads id d' info) : d'.HoldsLatest past := by
  cases hre with
  | current _ => exact h
  | again hl =>
    intro id'
    by_cases hid : id' = id
    · subst hid
      obtain ⟨rm, -, hlast, hof⟩ := h.exists_isOf hl
      rw [hlast, Decoder.check, Finmap.lookup_insert]
      exact .some (hof.check _ _)
    · rw [Decoder.check, Finmap.lookup_insert_of_ne _ hid]
      exact h id'

/-- Whatever a message does, the decoder then holds the definitions received with it. -/
theorem consume (h : d.HoldsLatest past) (reads : Option Reads) (msg : Message) :
    (d.consume reads msg).1.HoldsLatest (past ++ [msg]) := by
  cases hmsg : msg.relation? with
  | some m =>
    obtain rfl : msg = .relation m := by
      cases msg with
      | relation m' => rw [Option.some.inj hmsg]
      | _ => cases hmsg
    intro id
    rw [latestRelation_append, hmsg]
    by_cases hid : m.relationID = id
    · subst hid
      have hof : (newRelationInfo m).IsOf m := rfl
      simp only [Decoder.consume, Decoder.check, Finmap.lookup_insert, if_true]
      exact .some (hof.check _ _)
    · simp only [Decoder.consume, Decoder.check, Finmap.lookup_insert_of_ne _ (Ne.symm hid),
        if_neg hid]
      exact h id
  | none =>
    -- no other message defines a relation, and a check keeps its definition
    have hkeep : (d.consume reads msg).1.HoldsLatest past := by
      have hc := consume_consumed d reads msg
      generalize (d.consume reads msg).1 = d', (d.consume reads msg).2 = r at hc
      cases hc with
      | relation m => cases hmsg
      | dropped _ hre _ => exact h.rechecked hre
      | refused _ hre _ _ => exact h.rechecked hre
      | appended _ hre _ _ _ => exact fun id => h.rechecked hre id
      | begin _ _ _ => exact h
      | commit _ _ _ => exact h
      | ignored _ => exact h
      | failed _ _ => exact h
    intro id
    rw [latestRelation_append, hmsg]
    exact hkeep id

end Decoder.HoldsLatest

/-- Without a registry a relation is never checked again. -/
theorem Rechecked.eq_of_none {d d' : Decoder} {id : UInt32} {info : RelationInfo}
    (h : Rechecked d none id d' info) :
    d.relations.lookup id = some info ∧
      ∀ id', d'.relations.lookup id' = d.relations.lookup id' := by
  cases h with
  | current h => exact ⟨h, fun _ => rfl⟩
  | again h =>
    refine ⟨h, fun id' => ?_⟩
    by_cases hid : id' = id
    · subst hid
      exact (Finmap.lookup_insert _).trans h.symm
    · exact Finmap.lookup_insert_of_ne _ hid

/-- A message that is no boundary and adds no row. -/
theorem Decoder.HoldsTail.append {d d' : Decoder} {maxValueBytes : Int} {past tail : List Message}
    (h : d.HoldsTail maxValueBytes past tail) {msg : Message} (hbound : msg.isBoundary = false)
    (hrow : msg.row? = none) (hp : d'.pending = d.pending) (hx : d'.pendingXid = d.pendingXid)
    (ht : d'.pendingCommitTime = d.pendingCommitTime) :
    d'.HoldsTail maxValueBytes past (tail ++ [msg]) := by
  have hinner : ∀ {l : List Message}, (∀ m ∈ l, m.isBoundary = false) →
      ∀ m ∈ l ++ [msg], m.isBoundary = false := by
    intro l hl m hm
    rcases List.mem_append.mp hm with hm | hm
    · exact hl m hm
    · rw [List.mem_singleton.mp hm]
      exact hbound
  unfold HoldsTail at h ⊢
  rw [hp, hx, ht]
  cases hpend : d.pending with
  | none =>
    rw [hpend] at h
    exact hinner h
  | some changes =>
    rw [hpend] at h
    obtain ⟨lead, body, rfl, hlead, hbody, hrows⟩ := h
    refine ⟨lead, body ++ [msg], by simp, hlead, hinner hbody, ?_⟩
    rw [rowsOf_append_of_none hrow]
    exact hrows

namespace Scanned

variable {maxValueBytes : Int} {msgs : List Message} {d : Decoder} {returned : List Transaction}
  {segments : List Segment} {tail : List Message}

/-- A message that is no boundary and adds no row goes to the tail. -/
theorem quiet (h : Scanned maxValueBytes msgs d returned segments tail) {d' : Decoder}
    {msg : Message} (hbound : msg.isBoundary = false) (hrow : msg.row? = none)
    (hd : d' = { d with relations := d'.relations, events := d'.events })
    (hlatest : d'.HoldsLatest (msgs ++ [msg]))
    (hcompat : ∀ id info, d'.relations.lookup id = some info → info.incompatible = none) :
    Scanned maxValueBytes (msgs ++ [msg]) d' returned segments (tail ++ [msg]) where
  limit := by rw [hd]; exact h.limit
  latest := hlatest
  compatible := hcompat
  messages_eq := by rw [h.messages_eq, List.append_assoc]
  proper := h.proper
  returned := h.returned
  tail := h.tail.append hbound hrow (by rw [hd]) (by rw [hd]) (by rw [hd])

theorem begin (h : Scanned maxValueBytes msgs d returned segments tail) (xid : UInt32)
    (commitTime : Time) (hp : d.pending = none)
    (hlatest : d.HoldsLatest (msgs ++ [.begin xid commitTime])) :
    Scanned maxValueBytes (msgs ++ [.begin xid commitTime])
      { d with
        pending := some []
        pendingXid := xid
        pendingCommitTime := commitTime
        pendingBytes := 0 } returned segments (tail ++ [.begin xid commitTime]) where
  limit := h.limit
  latest := hlatest
  compatible := h.compatible
  messages_eq := by rw [h.messages_eq, List.append_assoc]
  proper := h.proper
  returned := h.returned
  tail := by
    have htail := h.tail
    simp only [Decoder.HoldsTail, hp] at htail
    exact ⟨tail, [], rfl, htail, by simp, .nil⟩

theorem commit (h : Scanned maxValueBytes msgs d returned segments tail)
    (commitLSN transactionEndLSN : Nat) {changes : List Change} (hp : d.pending = some changes)
    (hlatest : d.HoldsLatest (msgs ++ [.commit commitLSN transactionEndLSN]))
    {t : Transaction} (ht : t = {
      cursor := ⟨"", transactionEndLSN⟩
      changes := changes
      commitTime := d.pendingCommitTime
      incompatible := d.events
      commitLSN := commitLSN
      xid := d.pendingXid }) :
    ∃ segments', Scanned maxValueBytes (msgs ++ [.commit commitLSN transactionEndLSN])
      { d with events := [], pending := none, pendingBytes := 0 } (returned ++ [t])
      segments' [] := by
  have htail := h.tail
  simp only [Decoder.HoldsTail, hp] at htail
  obtain ⟨lead, body, hcut, hlead, hbody, hrows⟩ := htail
  -- the tail and this COMMIT are the next segment
  let s : Segment := ⟨lead, d.pendingXid, d.pendingCommitTime, body, commitLSN, transactionEndLSN⟩
  refine ⟨segments ++ [s], h.limit, hlatest, h.compatible, ?_, ?_, ?_,
    by simp [Decoder.HoldsTail]⟩
  · rw [h.messages_eq, hcut]
    simp [Segment.messages, s]
  · intro s' hs'
    rcases List.mem_append.mp hs' with hs' | hs'
    · exact h.proper s' hs'
    · rw [List.mem_singleton.mp hs']
      exact ⟨hlead, hbody⟩
  · rw [withPast_append]
    refine List.rel_append h.returned (.cons ?_ .nil)
    subst ht
    exact ⟨hrows, rfl, rfl, rfl, rfl⟩

theorem appended (h : Scanned maxValueBytes msgs d returned segments tail) {d' : Decoder}
    {msg : Message} {id : UInt32} {info : RelationInfo} {change : Change} {pending : List Change}
    (hrow : msg.row? = some id) (hre : Rechecked d none id d' info)
    (hdec : msg.decode d' = .ok change) (hp : d.pending = some pending)
    (hlatest : d'.HoldsLatest (msgs ++ [msg])) :
    Scanned maxValueBytes (msgs ++ [msg])
      { d' with
        pending := some (pending ++ [change])
        pendingBytes := d'.pendingBytes + estimatedChangeBytes change } returned segments
      (tail ++ [msg]) := by
  obtain ⟨hl, hsame⟩ := hre.eq_of_none
  obtain ⟨rm, rfl, hlast, hof⟩ := h.latest.exists_isOf hl
  obtain ⟨hx, ht, hmax⟩ : d'.pendingXid = d.pendingXid ∧
      d'.pendingCommitTime = d.pendingCommitTime ∧ d'.maxValueBytes = d.maxValueBytes := by
    cases hre <;> exact ⟨rfl, rfl, rfl⟩
  have hchange := (Decoder.decode_eq_ok_iff hof ((hsame _).trans hl) hrow).mp hdec
  rw [hmax, h.limit] at hchange
  have htail := h.tail
  simp only [Decoder.HoldsTail, hp] at htail
  obtain ⟨lead, body, hcut, hlead, hbody, hrows⟩ := htail
  refine ⟨hmax.trans h.limit, hlatest, ?_, by rw [h.messages_eq, List.append_assoc], h.proper,
    h.returned, ?_⟩
  · exact fun id' info' hl' => h.compatible id' info' ((hsame id').symm.trans hl')
  · simp only [Decoder.HoldsTail, hx, ht]
    refine ⟨lead, body ++ [msg], by rw [hcut]; simp, hlead, ?_, ?_⟩
    · intro m hm
      rcases List.mem_append.mp hm with hm | hm
      · exact hbody m hm
      · rw [List.mem_singleton.mp hm]
        exact Message.isBoundary_of_row hrow
    · rw [rowsOf_append, hrow]
      refine List.rel_append hrows (.cons ⟨rm, hrow, ?_, hchange⟩ .nil)
      -- everything received before the row is what the decoder has received
      rw [h.messages_eq, hcut] at hlast
      simpa using hlast

/-- One message more. -/
theorem consume (h : Scanned maxValueBytes msgs d returned segments tail) {msg : Message}
    {d' : Decoder} {r : Option Transaction} (hc : d.consume none msg = (d', .ok r)) :
    ∃ segments' tail',
      Scanned maxValueBytes (msgs ++ [msg]) d' (returned ++ r.toList) segments' tail' := by
  have hcon := Decoder.consume_consumed d none msg
  have hlatest := h.latest.consume none msg
  rw [hc] at hcon hlatest
  cases hcon with
  | relation m =>
    simp only [Option.toList_none, List.append_nil]
    refine ⟨_, _, h.quiet rfl rfl rfl hlatest fun id info hl => ?_⟩
    by_cases hid : id = m.relationID
    · subst hid
      rw [← Option.some.inj ((Finmap.lookup_insert _).symm.trans hl)]
      rfl
    · exact h.compatible id info ((Finmap.lookup_insert_of_ne _ hid).symm.trans hl)
  | begin xid commitTime hp =>
    simp only [Option.toList_none, List.append_nil]
    exact ⟨_, _, h.begin xid commitTime hp hlatest⟩
  | dropped hrow hre hinc =>
    -- without a registry no relation is incompatible
    obtain ⟨hl, -⟩ := hre.eq_of_none
    rw [h.compatible _ _ hl] at hinc
    cases hinc
  | appended hrow hre _ hdec hp =>
    simp only [Option.toList_none, List.append_nil]
    exact ⟨_, _, h.appended hrow hre hdec hp hlatest⟩
  | commit commitLSN transactionEndLSN hp =>
    obtain ⟨segments', h'⟩ := h.commit commitLSN transactionEndLSN hp hlatest rfl
    exact ⟨segments', [], h'⟩
  | ignored hmsg =>
    simp only [Option.toList_none, List.append_nil]
    rcases hmsg with rfl | rfl
    · exact ⟨_, _, h.quiet rfl rfl rfl hlatest h.compatible⟩
    · exact ⟨_, _, h.quiet rfl rfl rfl hlatest h.compatible⟩

end Scanned

/-! ## Whole sequences -/

theorem holdsLatest_nil (maxTransactionBytes maxTransactionChanges maxValueBytes : Int) :
    (newDecoderWithLimits maxTransactionBytes maxTransactionChanges
      maxValueBytes).HoldsLatest [] := by
  intro id
  simp [newDecoderWithLimits, latestRelation]

/-- A decoder that has received nothing. -/
theorem scanned_nil (maxTransactionBytes maxTransactionChanges maxValueBytes : Int) :
    Scanned (newDecoderWithLimits maxTransactionBytes maxTransactionChanges
      maxValueBytes).maxValueBytes []
      (newDecoderWithLimits maxTransactionBytes maxTransactionChanges maxValueBytes) [] [] [] where
  limit := rfl
  latest := holdsLatest_nil maxTransactionBytes maxTransactionChanges maxValueBytes
  compatible := fun id info hl => by simp [newDecoderWithLimits] at hl
  messages_eq := rfl
  proper := by simp
  returned := .nil
  tail := by simp [Decoder.HoldsTail, newDecoderWithLimits]

theorem Scanned.consumeAll {maxValueBytes : Int} {past : List Message} {d : Decoder}
    {returned : List Transaction} {segments : List Segment} {tail : List Message}
    (h : Scanned maxValueBytes past d returned segments tail) {msgs : List Message}
    {result : Decoder × List Transaction}
    (hrun : msgs.foldlM (fun s msg =>
      match s.1.consume none msg with
      | (_, .error err) => Except.error err
      | (d, .ok t) => .ok (d, s.2 ++ t.toList)) (d, returned) = .ok result) :
    ∃ segments' tail',
      Scanned maxValueBytes (past ++ msgs) result.1 result.2 segments' tail' := by
  induction msgs generalizing past d returned segments tail with
  | nil =>
    cases hrun
    exact ⟨segments, tail, by simpa using h⟩
  | cons msg msgs ih =>
    rw [List.foldlM_cons] at hrun
    obtain ⟨⟨d', returned'⟩, hstep, hrest⟩ := bind_eq_ok.mp hrun
    cases hc : d.consume none msg with
    | mk d₁ r =>
      cases r with
      | error err =>
        simp only [hc] at hstep
        cases hstep
      | ok t =>
        simp only [hc, Except.ok.injEq, Prod.mk.injEq] at hstep
        obtain ⟨rfl, rfl⟩ := hstep
        obtain ⟨segments', tail', h'⟩ := h.consume hc
        have := ih h' hrest
        simpa using this

/-- **The decoder returns exactly the committed transactions.**  A sequence it consumes without
error is cut into segments from BEGIN to COMMIT and a tail in which nothing commits; the
transactions returned are those of the segments, in order, each with the rows of its own segment as
the relation definitions received before each row say. -/
theorem returned_are_committed
    (maxTransactionBytes maxTransactionChanges maxValueBytes : Int) {msgs : List Message}
    {d : Decoder} {returned : List Transaction}
    (h : (newDecoderWithLimits maxTransactionBytes maxTransactionChanges maxValueBytes).consumeAll
      msgs = .ok (d, returned)) :
    ∃ segments tail, msgs = segments.flatMap Segment.messages ++ tail ∧
      (∀ s ∈ segments, s.Proper) ∧
      (∀ commitLSN transactionEndLSN, .commit commitLSN transactionEndLSN ∉ tail) ∧
      List.Forall₂ (Segment.Commits d.maxValueBytes) (withPast Segment.messages [] segments)
        returned := by
  obtain ⟨segments, tail, hs⟩ := (scanned_nil maxTransactionBytes maxTransactionChanges
    maxValueBytes).consumeAll h
  refine ⟨segments, tail, hs.messages_eq, hs.proper, fun commitLSN transactionEndLSN hmem => ?_,
    hs.limit ▸ hs.returned⟩
  have htail := hs.tail
  unfold Decoder.HoldsTail at htail
  split at htail
  · exact absurd (htail _ hmem) (by simp [Message.isBoundary])
  · obtain ⟨lead, body, rfl, hlead, hbody, -⟩ := htail
    simp only [List.mem_append, List.mem_cons, reduceCtorEq, false_or] at hmem
    rcases hmem with hmem | hmem
    · exact absurd (hlead _ hmem) (by simp [Message.isBoundary])
    · exact absurd (hbody _ hmem) (by simp [Message.isBoundary])

namespace Demo

/-- A table with one column, under two names. -/
def tags (column : String) : RelationMessage := ⟨3, "public", "tags", 0x64, [⟨1, column, 25⟩]⟩

/-- A row of one column. -/
def tag (b : UInt8) : InsertMessage := ⟨3, some [⟨tupleDataTypeText, [b]⟩]⟩

/-- Two rows of one transaction with the column renamed between them, and a second transaction
that has not committed. -/
def tagMessages : List Message :=
  [.relation (tags "id"), .begin 5 0, .insert (tag 0x61), .relation (tags "tag"),
    .insert (tag 0x62), .commit 90 100, .begin 6 1, .insert (tag 0x63)]

end Demo

theorem returned_are_committed_sample :
    ∃ d returned, (newDecoderWithLimits 0 0 0).consumeAll Demo.tagMessages = .ok (d, returned) ∧
      returned.map (fun t => (t.xid, t.changes.map (·.columns))) = [(5, [["id"], ["tag"]])] ∧
      ∃ segments tail, Demo.tagMessages = segments.flatMap Segment.messages ++ tail ∧
        List.Forall₂ (Segment.Commits d.maxValueBytes) (withPast Segment.messages [] segments)
          returned := by
  obtain ⟨⟨d, returned⟩, hrun, hmap⟩ : ∃ r, (newDecoderWithLimits 0 0 0).consumeAll
      Demo.tagMessages = .ok r ∧
      r.2.map (fun t => (t.xid, t.changes.map (·.columns))) = [(5, [["id"], ["tag"]])] :=
    ⟨_, rfl, by decide⟩
  obtain ⟨segments, tail, hcut, -, -, hreturned⟩ := returned_are_committed 0 0 0 hrun
  exact ⟨d, returned, hrun, hmap, segments, tail, hcut, hreturned⟩

end Watchd.Cdc
