import Watchd.Cdc.RowKey

/-!
# What consuming a message can do

`Consumed` lists the outcomes of `Decoder.consume`, one constructor for each; the
proofs about the decoder are case splits on it.
-/

namespace Watchd.Cdc

/-- The relation message that a message is. -/
def Message.relation? : Message → Option RelationMessage
  | .relation m => some m
  | _ => none

/-- The relation a row message belongs to. -/
def Message.row? : Message → Option UInt32
  | .insert m => some m.relationID
  | .update m => some m.relationID
  | .delete m => some m.relationID
  | _ => none

/-- The change a row message decodes to. -/
def Message.decode (d : Decoder) : Message → Except GoError Change
  | .insert m => d.insert m
  | .update m => d.update m
  | .delete m => d.delete m
  | _ => .error (.sentinel .noTransaction)

/-- `skip` found relation `id` as `info`, after checking it again if a baseline moved. -/
inductive Rechecked (d : Decoder) (reads : Option Reads) (id : UInt32) :
    Decoder → RelationInfo → Prop
  | current {info : RelationInfo} (h : d.relations.lookup id = some info) :
    Rechecked d reads id d info
  | again {info : RelationInfo} (h : d.relations.lookup id = some info) :
    Rechecked d reads id (d.check reads id info) (info.check d.events reads).1

theorem Rechecked.lookup {d d' : Decoder} {reads : Option Reads} {id : UInt32}
    {info : RelationInfo} (h : Rechecked d reads id d' info) :
    d'.relations.lookup id = some info := by
  cases h with
  | current h => exact h
  | again h => exact Finmap.lookup_insert _

theorem Rechecked.pending_eq {d d' : Decoder} {reads : Option Reads} {id : UInt32}
    {info : RelationInfo} (h : Rechecked d reads id d' info) : d'.pending = d.pending := by
  cases h <;> rfl

theorem Decoder.skip_cases {d d' : Decoder} {reads : Option Reads} {id : UInt32}
    {r : Except GoError Bool} (h : d.skip reads id = (d', r)) :
    (∃ err, d' = d ∧ r = .error err) ∨
      ∃ info, Rechecked d reads id d' info ∧ r = .ok info.incompatible.isSome := by
  cases hl : d.relations.lookup id with
  | none =>
    simp only [skip, relation, hl] at h
    cases h
    exact .inl ⟨_, rfl, rfl⟩
  | some info =>
    right
    have hre : ∃ info', Rechecked d reads id d' info' := by
      simp only [skip, relation_eq hl] at h
      cases reads with
      | none =>
        cases h
        exact ⟨info, .current hl⟩
      | some reads =>
        simp only at h
        split at h
        · cases h
          exact ⟨_, .again hl⟩
        · cases h
          exact ⟨info, .current hl⟩
    obtain ⟨info', hre⟩ := hre
    refine ⟨info', hre, ?_⟩
    have hrel : d'.relation id = .ok info' := relation_eq hre.lookup
    simp only [skip, relation_eq hl] at h
    obtain ⟨rfl, rfl⟩ := Prod.mk.inj h
    rw [hrel]
    rfl

/-- The outcomes of consuming a message. -/
inductive Consumed (d : Decoder) (reads : Option Reads) :
    Message → Decoder → Except GoError (Option Transaction) → Prop
  | relation (m : RelationMessage) :
    Consumed d reads (.relation m) (d.check reads m.relationID (newRelationInfo m)) (.ok none)
  | begin (xid : UInt32) (commitTime : Time) (h : d.pending = none) :
    Consumed d reads (.begin xid commitTime)
      { d with
        pending := some []
        pendingXid := xid
        pendingCommitTime := commitTime
        pendingBytes := 0 } (.ok none)
  | dropped {msg : Message} {id : UInt32} {d' : Decoder} {info : RelationInfo}
      (hrow : msg.row? = some id) (h : Rechecked d reads id d' info)
      (hinc : info.incompatible.isSome = true) : Consumed d reads msg d' (.ok none)
  | refused {msg : Message} {id : UInt32} {d' : Decoder} {info : RelationInfo}
      (hrow : msg.row? = some id) (h : Rechecked d reads id d' info)
      (hinc : info.incompatible.isSome = false) (err : GoError) :
    Consumed d reads msg d' (.error err)
  | appended {msg : Message} {id : UInt32} {d' : Decoder} {info : RelationInfo} {change : Change}
      {pending : List Change} (hrow : msg.row? = some id) (h : Rechecked d reads id d' info)
      (hinc : info.incompatible.isSome = false) (hdec : msg.decode d' = .ok change)
      (hp : d.pending = some pending) :
    Consumed d reads msg
      { d' with
        pending := some (pending ++ [change])
        pendingBytes := d'.pendingBytes + estimatedChangeBytes change } (.ok none)
  | commit (commitLSN transactionEndLSN : Nat) {changes : List Change}
      (h : d.pending = some changes) :
    Consumed d reads (.commit commitLSN transactionEndLSN)
      { d with events := [], pending := none, pendingBytes := 0 }
      (.ok (some {
        cursor := ⟨"", transactionEndLSN⟩
        changes := changes
        commitTime := d.pendingCommitTime
        incompatible := d.events
        commitLSN := commitLSN
        xid := d.pendingXid }))
  | ignored {msg : Message} (h : msg = .type ∨ msg = .origin) : Consumed d reads msg d (.ok none)
  | failed (msg : Message) (err : GoError) : Consumed d reads msg d (.error err)

namespace Decoder

variable {d : Decoder} {reads : Option Reads}

theorem append_cases (d : Decoder) (change : Change) :
    (∃ err, d.append change = (d, .error err)) ∨
      ∃ pending, d.pending = some pending ∧
        d.append change = ({ d with
          pending := some (pending ++ [change])
          pendingBytes := d.pendingBytes + estimatedChangeBytes change }, .ok ()) := by
  unfold append
  cases hp : d.pending with
  | none => exact .inl ⟨_, rfl⟩
  | some pending =>
    simp only
    split
    · exact .inl ⟨_, rfl⟩
    · split
      · exact .inl ⟨_, rfl⟩
      · exact .inr ⟨pending, rfl, rfl⟩

theorem consumeRow_consumed {msg : Message} {id : UInt32} (hrow : msg.row? = some id)
    {decode : Decoder → Except GoError Change} (hdec : ∀ d, decode d = msg.decode d) :
    Consumed d reads msg (d.consumeRow reads id decode).1 (d.consumeRow reads id decode).2 := by
  cases hskip : d.skip reads id with
  | mk d' r =>
    rcases skip_cases hskip with ⟨err, rfl, rfl⟩ | ⟨info, hre, rfl⟩
    · simp only [consumeRow, hskip]
      exact .failed msg err
    · cases hinc : info.incompatible.isSome with
      | true =>
        rw [hinc] at hskip
        simp only [consumeRow, hskip]
        exact .dropped hrow hre hinc
      | false =>
        rw [hinc] at hskip
        simp only [consumeRow, hskip]
        cases hd : decode d' with
        | error err => exact .refused hrow hre hinc err
        | ok change =>
          rcases d'.append_cases change with ⟨err, ha⟩ | ⟨pending, hp, ha⟩
          · simp only [ha]
            exact .refused hrow hre hinc err
          · simp only [ha]
            exact .appended hrow hre hinc ((hdec d').symm.trans hd) (hre.pending_eq ▸ hp)

theorem consume_consumed (d : Decoder) (reads : Option Reads) (msg : Message) :
    Consumed d reads msg (d.consume reads msg).1 (d.consume reads msg).2 := by
  cases msg with
  | relation m => exact .relation m
  | begin xid commitTime =>
    cases hp : d.pending with
    | none =>
      simp only [consume, hp]
      exact .begin xid commitTime hp
    | some changes =>
      simp only [consume, hp]
      exact .failed _ _
  | insert m => exact consumeRow_consumed rfl fun _ => rfl
  | update m => exact consumeRow_consumed rfl fun _ => rfl
  | delete m => exact consumeRow_consumed rfl fun _ => rfl
  | commit commitLSN transactionEndLSN =>
    cases hp : d.pending with
    | none =>
      simp only [consume, hp]
      exact .failed _ _
    | some changes =>
      simp only [consume, hp]
      exact .commit commitLSN transactionEndLSN hp
  | type => exact .ignored (.inl rfl)
  | origin => exact .ignored (.inr rfl)
  | other typeText => exact .failed _ _

/-- A row message of any kind is consumed in one way. -/
theorem consume_row {msg : Message} {id : UInt32} (hrow : msg.row? = some id) :
    d.consume reads msg = d.consumeRow reads id fun d => msg.decode d := by
  cases msg with
  | insert m => cases hrow; rfl
  | update m => cases hrow; rfl
  | delete m => cases hrow; rfl
  | _ => cases hrow

/-! ## Known relations -/

/-- The relation the decoder holds under `rm`'s ID was made from `rm`. -/
def Knows (d : Decoder) (rm : RelationMessage) : Prop :=
  ∃ info, d.relations.lookup rm.relationID = some info ∧ info.IsOf rm

theorem knows_relation (d : Decoder) (reads : Option Reads) (rm : RelationMessage) :
    (d.consume reads (.relation rm)).1.Knows rm := by
  have hof : (newRelationInfo rm).IsOf rm := rfl
  exact ⟨_, Finmap.lookup_insert _, hof.check _ _⟩

theorem Knows.rechecked {rm : RelationMessage} {d' : Decoder} {id : UInt32} {info : RelationInfo}
    (h : d.Knows rm) (hre : Rechecked d reads id d' info) : d'.Knows rm := by
  cases hre with
  | current _ => exact h
  | again hlookup =>
    obtain ⟨info', hl, hof⟩ := h
    by_cases hid : rm.relationID = id
    · subst hid
      rw [hlookup] at hl
      cases hl
      exact ⟨_, Finmap.lookup_insert _, hof.check _ _⟩
    · exact ⟨info', (Finmap.lookup_insert_of_ne _ hid).trans hl, hof⟩

/-- Only another Relation message under the same ID replaces a known relation. -/
theorem Knows.consume {rm : RelationMessage} {msg : Message} (h : d.Knows rm)
    (hmsg : ∀ m, msg = .relation m → m.relationID ≠ rm.relationID) :
    (d.consume reads msg).1.Knows rm := by
  have hc := consume_consumed d reads msg
  generalize (d.consume reads msg).1 = d', (d.consume reads msg).2 = r at hc
  cases hc with
  | relation m =>
    obtain ⟨info, hl, hof⟩ := h
    exact ⟨info, (Finmap.lookup_insert_of_ne _ (hmsg m rfl).symm).trans hl, hof⟩
  | dropped _ hre _ => exact h.rechecked hre
  | refused _ hre _ _ => exact h.rechecked hre
  | appended _ hre _ _ _ =>
    obtain ⟨info, hl, hof⟩ := h.rechecked hre
    exact ⟨info, hl, hof⟩
  | begin _ _ _ => exact h
  | commit _ _ _ => exact h
  | ignored _ => exact h
  | failed _ _ => exact h

/-- The change a row message of a known relation adds to the open transaction. -/
theorem Knows.keyed {rm : RelationMessage} {msg : Message} {d' : Decoder} {pending : List Change}
    {change : Change} (h : d.Knows rm) (hnd : (rm.columns.map (·.name)).Nodup)
    (hrow : msg.row? = some rm.relationID) (hpending : d.pending = some pending)
    (hacc : d.consume reads msg = (d', .ok none))
    (hchange : d'.pending = some (pending ++ [change])) :
    Keyed rm msg change.key ∧ change.table = qualifiedTable rm.nspace rm.relationName := by
  have hc := consume_consumed d reads msg
  rw [hacc] at hc
  cases hc with
  | dropped _ hre _ =>
    have hp : d'.pending = some pending := hre.pending_eq.trans hpending
    simp [hp] at hchange
  | appended hrow' hre _ hdec hp =>
    cases hrow.symm.trans hrow'
    cases hpending.symm.trans hp
    cases List.append_cancel_left (Option.some.inj hchange)
    obtain ⟨info, hl, hof⟩ := h.rechecked hre
    rw [← hof.table_eq]
    cases msg with
    | insert m => exact keyed_of_insert hl hof hnd (Option.some.inj hrow) hdec
    | update m => exact keyed_of_update hl hof hnd (Option.some.inj hrow) hdec
    | delete m => exact keyed_of_delete hl hof hnd (Option.some.inj hrow) hdec
    | _ => cases hrow
  | relation m => cases hrow
  | begin _ _ _ => cases hrow
  | ignored hmsg => rcases hmsg with rfl | rfl <;> cases hrow

end Decoder

end Watchd.Cdc
