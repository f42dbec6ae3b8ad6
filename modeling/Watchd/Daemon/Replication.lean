import Watchd.Daemon.Run
import Watchd.Watch.Routing

/-!
# No transaction is lost or taken twice

A walsender sends the committed transactions of the WAL from the position a
connection starts at; connections may be cut anywhere, and a new one starts at
a position that was acknowledged.  The hub then takes the committed sequence in
order, each transaction once, and no position is acknowledged before every
transaction that commits ahead of it has been taken (`no_transaction_lost`).
-/

namespace Watchd.Daemon

open Watchd.Cdc Watchd.Lib Watchd.Watch

/-! ## The walsender -/

/-- A published transaction in the WAL. -/
structure SourceTransaction where
  xid : UInt32
  commitTime : Time
  commitLSN : Nat
  endLSN : Nat
  commit_lt_end : commitLSN < endLSN
  deriving DecidableEq

namespace SourceTransaction

/-- The messages around a transaction's changes. -/
def frame (tx : SourceTransaction) : List Message :=
  [.begin tx.xid tx.commitTime, .commit tx.commitLSN tx.endLSN]

/-- `a` ends before `b` commits. -/
def Precedes (a b : SourceTransaction) : Prop := a.endLSN ≤ b.commitLSN

end SourceTransaction

/-- The transactions sent on a connection started at `start`. -/
def streamed (txs : List SourceTransaction) (start : Nat) : List SourceTransaction :=
  txs.filter fun tx => start ≤ tx.commitLSN

/-- A Begin. -/
def isBegin : Message → Bool
  | .begin _ _ => true
  | _ => false

/-- A Commit. -/
def isCommit : Message → Bool
  | .commit _ _ => true
  | _ => false

/-- The BEGIN and COMMIT messages among `ms`. -/
def frames (ms : List Message) : List Message := ms.filter fun m => isBegin m || isCommit m

/-- How many transactions have been sent in full on the connection. -/
def Conn.complete (c : Conn) : Nat := (frames c.sent).countP isCommit

/-- Whether a transaction has been sent in part. -/
def Conn.sending (c : Conn) : Bool := (frames c.sent).getLast?.any isBegin

/-- What is assumed of PostgreSQL: where connections start, that the transactions from there on are
sent in order, each with whatever messages between its BEGIN and COMMIT, and that a keepalive's
position has only transactions before it that were sent already, or are before the start, or the
one being sent. -/
def walsender (txs : List SourceTransaction) (initial : Nat) (s : State) : Label → Prop
  | .connect start => start ≤ initial ∨ ∃ a ∈ s.acks, start ≤ a
  | .receive (.xlogData _ (some msg)) _ _ => ∀ c ∈ s.conn,
    frames (c.sent ++ [msg]) <+: (streamed txs c.start).flatMap (·.frame)
  | .receive (.keepalive position _) _ _ => ∀ c ∈ s.conn, ∀ tx ∈ txs,
    tx.commitLSN < position →
      tx.commitLSN < c.start ∨ tx ∈ (streamed txs c.start).take c.complete ∨
        c.sending = true ∧ (streamed txs c.start)[c.complete]? = some tx
  | _ => True

instance (txs : List SourceTransaction) (initial : Nat) (s : State) (l : Label) :
    Decidable (walsender txs initial s l) := by
  unfold walsender
  split <;> infer_instance

/-- What identifies a transaction. -/
structure Identity where
  cursor : Cursor
  commitLSN : Nat
  commitTime : Time
  xid : UInt32
  deriving DecidableEq

/-- The identity of a transaction the hub took. -/
def identity (t : Transaction) : Identity := ⟨t.cursor, t.commitLSN, t.commitTime, t.xid⟩

/-- The identity of a transaction of the source. -/
def SourceTransaction.identity (sourceID : String) (tx : SourceTransaction) : Identity :=
  ⟨⟨sourceID, tx.endLSN⟩, tx.commitLSN, tx.commitTime, tx.xid⟩

/-! ## Positions in the WAL -/

section Wal

variable {txs : List SourceTransaction}

theorem pairwise_of_chain (h : txs.IsChain SourceTransaction.Precedes) :
    txs.Pairwise SourceTransaction.Precedes := by
  have : IsTrans SourceTransaction SourceTransaction.Precedes :=
    ⟨fun a b c hab hbc => Nat.le_trans hab (Nat.le_trans (Nat.le_of_lt b.commit_lt_end) hbc)⟩
  exact List.isChain_iff_pairwise.1 h

/-- Every transaction that commits before `lsn` is among the first `k`. -/
def Covered (txs : List SourceTransaction) (k lsn : Nat) : Prop :=
  ∀ i tx, txs[i]? = some tx → tx.commitLSN < lsn → i < k

theorem Covered.mono {k k' lsn lsn' : Nat} (h : Covered txs k lsn) (hk : k ≤ k')
    (hlsn : lsn' ≤ lsn) : Covered txs k' lsn' :=
  fun i tx hi hlt => Nat.lt_of_lt_of_le (h i tx hi (Nat.lt_of_lt_of_le hlt hlsn)) hk

/-- A transaction of the part `before` of the WAL is at an index within it. -/
theorem index_lt_of_mem {before after : List SourceTransaction}
    (hpair : (before ++ after).Pairwise SourceTransaction.Precedes) {i : Nat}
    {tx : SourceTransaction} (hi : (before ++ after)[i]? = some tx) (hmem : tx ∈ before) :
    i < before.length := by
  by_contra hge
  rw [List.getElem?_append_right (Nat.le_of_not_lt hge)] at hi
  have hprec := (List.pairwise_append.1 hpair).2.2 tx hmem tx (List.mem_of_getElem? hi)
  exact Nat.lt_irrefl _ (Nat.lt_of_lt_of_le tx.commit_lt_end hprec)

/-- What commits before the end of `cur` is `cur` or comes before it. -/
theorem covered_endLSN {before after : List SourceTransaction} {cur : SourceTransaction}
    (hpair : (before ++ cur :: after).Pairwise SourceTransaction.Precedes) :
    Covered (before ++ cur :: after) (before.length + 1) cur.endLSN := by
  intro i tx hi hlt
  by_contra hge
  have hi' : after[i - before.length - 1]? = some tx := by
    rw [List.getElem?_append_right (by omega), show i - before.length =
      (i - before.length - 1) + 1 by omega, List.getElem?_cons_succ] at hi
    exact hi
  have hprec := (List.pairwise_cons.1 (List.pairwise_append.1 hpair).2.1).1 tx
    (List.mem_of_getElem? hi')
  exact Nat.lt_irrefl _ (Nat.lt_of_lt_of_le hlt hprec)

/-- The streamed transactions are a suffix of the WAL. -/
theorem exists_skipped (hpair : txs.Pairwise SourceTransaction.Precedes) (start : Nat) :
    ∃ skipped, txs = skipped ++ streamed txs start ∧ ∀ tx ∈ skipped, tx.commitLSN < start := by
  induction txs with
  | nil => exact ⟨[], rfl, nofun⟩
  | cons tx txs ih =>
    obtain ⟨hhead, htail⟩ := List.pairwise_cons.1 hpair
    by_cases hstart : start ≤ tx.commitLSN
    · refine ⟨[], ?_, nofun⟩
      rw [List.nil_append, streamed, List.filter_eq_self.2]
      intro tx' hmem
      rw [decide_eq_true_iff]
      rcases List.mem_cons.1 hmem with rfl | hmem
      · exact hstart
      · exact Nat.le_trans hstart (Nat.le_trans (Nat.le_of_lt tx.commit_lt_end) (hhead tx' hmem))
    · obtain ⟨skipped, hsplit, hlt⟩ := ih htail
      refine ⟨tx :: skipped, ?_, ?_⟩
      · have hfilter : streamed (tx :: txs) start = streamed txs start :=
          List.filter_cons_of_neg (by simpa using hstart)
        rw [hfilter, List.cons_append, ← hsplit]
      · intro tx' hmem
        rcases List.mem_cons.1 hmem with rfl | hmem
        · exact Nat.lt_of_not_le hstart
        · exact hlt tx' hmem

end Wal

/-! ## Where a connection stands -/

/-- The decoder has consumed the transactions `before`, and nothing or a part of the next one. -/
inductive Position (d : Decoder) (sent : List Message) (before : List SourceTransaction) :
    List SourceTransaction → Prop
  | between {after : List SourceTransaction} (hsent : frames sent = before.flatMap (·.frame))
      (hpending : d.pending = none) : Position d sent before after
  | inside {cur : SourceTransaction} {after : List SourceTransaction}
      (hsent : frames sent = before.flatMap (·.frame) ++ [.begin cur.xid cur.commitTime])
      (hpending : d.pending.isSome = true) (hxid : d.pendingXid = cur.xid)
      (htime : d.pendingCommitTime = cur.commitTime) : Position d sent before (cur :: after)

theorem Rechecked.open_eq {d d' : Decoder} {reads : Option Reads} {id : UInt32}
    {info : RelationInfo} (h : Rechecked d reads id d' info) :
    d'.pending = d.pending ∧ d'.pendingXid = d.pendingXid ∧
      d'.pendingCommitTime = d.pendingCommitTime := by
  cases h <;> exact ⟨rfl, rfl, rfl⟩

/-- Only BEGIN and COMMIT open and close a transaction. -/
theorem Consumed.open_eq {d d' : Decoder} {reads : Option Reads} {msg : Message}
    (h : Consumed d reads msg d' (.ok none)) (hmsg : isBegin msg = false) :
    d'.pending.isSome = d.pending.isSome ∧ d'.pendingXid = d.pendingXid ∧
      d'.pendingCommitTime = d.pendingCommitTime := by
  cases h with
  | relation m => exact ⟨rfl, rfl, rfl⟩
  | begin _ _ _ => cases hmsg
  | dropped _ hre _ =>
    obtain ⟨hp, hxid, htime⟩ := Rechecked.open_eq hre
    exact ⟨congrArg Option.isSome hp, hxid, htime⟩
  | appended _ hre _ _ hp =>
    obtain ⟨-, hxid, htime⟩ := Rechecked.open_eq hre
    exact ⟨by rw [hp]; rfl, hxid, htime⟩
  | ignored _ => exact ⟨rfl, rfl, rfl⟩

theorem frames_append_frame (sent : List Message) {msg : Message}
    (h : isBegin msg = true ∨ isCommit msg = true) :
    frames (sent ++ [msg]) = frames sent ++ [msg] := by
  rw [frames, List.filter_append, List.filter_singleton]
  rcases h with h | h <;> simp [h, frames]

theorem frames_append_other (sent : List Message) {msg : Message} (hb : isBegin msg = false)
    (hc : isCommit msg = false) : frames (sent ++ [msg]) = frames sent := by
  rw [frames, List.filter_append, List.filter_singleton]
  simp [hb, hc, frames]

namespace Position

variable {d d' : Decoder} {sent : List Message} {before after : List SourceTransaction}
  {msg : Message}

/-- Between transactions the next one's BEGIN follows. -/
theorem next_between
    (h : before.flatMap (·.frame) ++ [msg] <+: (before ++ after).flatMap (·.frame)) :
    ∃ cur after', after = cur :: after' ∧ msg = .begin cur.xid cur.commitTime := by
  rw [List.flatMap_append, List.prefix_append_right_inj] at h
  cases after with
  | nil => simp at h
  | cons cur after =>
    rw [List.flatMap_cons, SourceTransaction.frame, List.cons_append, List.cons_prefix_cons] at h
    exact ⟨cur, after, rfl, h.1⟩

/-- Inside a transaction its COMMIT follows. -/
theorem next_inside {cur : SourceTransaction}
    (h : (before.flatMap (·.frame) ++ [.begin cur.xid cur.commitTime]) ++ [msg] <+:
      (before ++ cur :: after).flatMap (·.frame)) : msg = .commit cur.commitLSN cur.endLSN := by
  rw [List.append_assoc, List.flatMap_append, List.prefix_append_right_inj, List.flatMap_cons,
    SourceTransaction.frame, List.cons_append, List.cons_append, List.nil_append,
    List.cons_append, List.cons_prefix_cons, List.cons_prefix_cons] at h
  exact h.2.1

/-- **A consumed message** leaves the connection where it is, or opens the next transaction. -/
theorem consumed {reads : Option Reads} (h : Position d sent before after)
    (hsent : frames (sent ++ [msg]) <+: (before ++ after).flatMap (·.frame))
    (hc : Consumed d reads msg d' (.ok none)) : Position d' (sent ++ [msg]) before after := by
  have hcommit : isCommit msg = false := by
    cases hc with
    | dropped hrow _ _ => cases msg <;> first | rfl | cases hrow
    | appended hrow _ _ _ _ => cases msg <;> first | rfl | cases hrow
    | ignored hm => rcases hm with rfl | rfl <;> rfl
    | _ => rfl
  cases hbegin : isBegin msg with
  | false =>
    obtain ⟨hp, hxid, htime⟩ := Consumed.open_eq hc hbegin
    have hframes := frames_append_other sent hbegin hcommit
    cases h with
    | between hs hpending =>
      rw [hpending, Option.isSome_none, Option.isSome_eq_false_iff, Option.isNone_iff_eq_none] at hp
      exact .between (hframes.trans hs) hp
    | inside hs hpending hxid' htime' =>
      exact .inside (hframes.trans hs) (hp.trans hpending) (hxid.trans hxid') (htime.trans htime')
  | true =>
    have hframes := frames_append_frame sent (.inl hbegin)
    rw [hframes] at hsent
    cases h with
    | between hs hpending =>
      rw [hs] at hsent
      obtain ⟨cur, after', rfl, rfl⟩ := next_between hsent
      cases hc with
      | begin xid commitTime _ => exact .inside (by rw [hframes, hs]) rfl rfl rfl
      | dropped hrow _ _ => cases hrow
      | appended hrow _ _ _ _ => cases hrow
      | ignored hm => rcases hm with hm | hm <;> cases hm
    | inside hs _ _ _ =>
      rw [hs] at hsent
      rw [next_inside hsent] at hbegin
      cases hbegin

/-- A COMMIT is that of the transaction being sent. -/
theorem committed {commitLSN endLSN : Nat} (h : Position d sent before after)
    (hsent : frames (sent ++ [.commit commitLSN endLSN]) <+:
      (before ++ after).flatMap (·.frame)) :
    ∃ cur after', after = cur :: after' ∧ cur.commitLSN = commitLSN ∧ cur.endLSN = endLSN ∧
      d.pendingXid = cur.xid ∧ d.pendingCommitTime = cur.commitTime ∧
      frames (sent ++ [.commit commitLSN endLSN]) = (before ++ [cur]).flatMap (·.frame) := by
  rw [frames_append_frame sent (.inr rfl)] at hsent ⊢
  cases h with
  | between hs _ =>
    rw [hs] at hsent
    obtain ⟨cur, after', rfl, hmsg⟩ := next_between hsent
    cases hmsg
  | @inside cur after' hs _ hxid htime =>
    rw [hs] at hsent ⊢
    cases next_inside hsent
    refine ⟨cur, after', rfl, rfl, rfl, hxid, htime, ?_⟩
    rw [List.flatMap_append, List.append_assoc]
    rfl

end Position

/-! ## What a keepalive's position says -/

theorem countP_frames (txs : List SourceTransaction) :
    (txs.flatMap (·.frame)).countP isCommit = txs.length := by
  induction txs with
  | nil => rfl
  | cons tx txs ih =>
    rw [List.flatMap_cons, List.countP_append, ih, List.length_cons, Nat.add_comm]
    rfl

theorem getLast_frames (txs : List SourceTransaction) :
    (txs.flatMap (·.frame)).getLast?.any isBegin = false := by
  induction txs using List.reverseRecOn with
  | nil => rfl
  | append_singleton txs tx _ =>
    rw [List.flatMap_append, List.flatMap_singleton, SourceTransaction.frame,
      List.getLast?_append_of_ne_nil _ (List.cons_ne_nil _ _)]
    rfl

/-! ## The invariant -/

/-- A connection and how many transactions the hub has taken. -/
structure Connected (txs : List SourceTransaction) (k : Nat) (c : Conn) : Prop where
  start : Covered txs k c.start
  safe : Covered txs k c.stream.safeLSN
  position : ∃ skipped before after, txs = skipped ++ (before ++ after) ∧
    streamed txs c.start = before ++ after ∧ (skipped ++ before).length ≤ k ∧
    Position c.stream.decoder c.sent before after

/-- The hub has taken a prefix of the source's transactions, and nothing is acknowledged beyond
it. -/
structure Lossless (txs : List SourceTransaction) (s : State) : Prop where
  taken : s.system.accepted.map identity =
    (txs.take s.system.accepted.length).map (·.identity s.config.sourceID)
  acks : ∀ a ∈ s.acks, Covered txs s.system.accepted.length a
  conn : ∀ c, s.conn = some c → Connected txs s.system.accepted.length c

section Invariant

variable {txs : List SourceTransaction} {k : Nat} {c : Conn}

/-- A new connection. -/
theorem Connected.opened (hpair : txs.Pairwise SourceTransaction.Precedes) (cfg : ReaderConfig)
    {start : Nat} (hstart : Covered txs k start) :
    Connected txs k { stream := ⟨cfg.newDecoder, start⟩, start := start } := by
  obtain ⟨skipped, htxs, hlt⟩ := exists_skipped hpair start
  refine ⟨hstart, hstart, skipped, [], streamed txs start, htxs, rfl, ?_, .between rfl rfl⟩
  rw [List.append_nil]
  by_contra hgt
  -- the last skipped transaction would be beyond the first `k`
  have hk : k < skipped.length := Nat.lt_of_not_le hgt
  have hi : txs[k]? = some skipped[k] := by
    rw [htxs, List.getElem?_append_left hk, List.getElem?_eq_getElem hk]
  exact Nat.lt_irrefl k (hstart k _ hi (hlt _ (List.getElem_mem hk)))

/-- A keepalive between transactions may move the safe position. -/
theorem Connected.keepalive (hpair : txs.Pairwise SourceTransaction.Precedes)
    (h : Connected txs k c) {position : Nat}
    (hpos : ∀ tx ∈ txs, tx.commitLSN < position →
      tx.commitLSN < c.start ∨ tx ∈ (streamed txs c.start).take c.complete ∨
        c.sending = true ∧ (streamed txs c.start)[c.complete]? = some tx) :
    Connected txs k { c with stream := c.stream.advance position } := by
  obtain ⟨skipped, before, after, htxs, hstream, hlen, hp⟩ := h.position
  unfold Stream.advance
  split
  · next hidle =>
    refine ⟨h.start, ?_, skipped, before, after, htxs, hstream, hlen, hp⟩
    cases hp with
    | between hsent hpending =>
      intro i tx hi hlt
      have hcomplete : c.complete = before.length := by
        rw [Conn.complete, hsent, countP_frames]
      rcases hpos tx (List.mem_of_getElem? hi) hlt with hstart | hmem | ⟨hsending, -⟩
      · exact h.start i tx hi hstart
      · rw [hcomplete, hstream, List.take_left] at hmem
        rw [htxs, ← List.append_assoc] at hi hpair
        exact Nat.lt_of_lt_of_le
          (index_lt_of_mem hpair hi (List.mem_append_right _ hmem)) hlen
      · rw [Conn.sending, hsent, getLast_frames] at hsending
        cases hsending
    | inside _ hpending _ _ =>
      rw [Decoder.inTransaction, hpending] at hidle
      simp at hidle
  · exact h

end Invariant

/-! ## The hub takes the next transaction, or has it already -/

theorem isNew_of_received {h : Hub} {t : Transaction} {received : Cursor}
    (hr : h.window.received = some received) (hsource : t.cursor.sourceID = received.sourceID) :
    h.isNew t = .ok (decide (received.lsn < t.cursor.lsn)) := by
  obtain ⟨order, horder⟩ := Cursor.compare_ok hsource
  simp only [Hub.isNew, hr, horder]
  have hgt : t.cursor.compare received = .ok .gt ↔ _ := Cursor.compare_gt_iff
  rw [horder] at hgt
  by_cases hlt : received.lsn < t.cursor.lsn
  · cases hgt.2 ⟨hsource, hlt⟩
    rw [decide_eq_true hlt]
    rfl
  · have hne : order ≠ .gt := fun heq => hlt (hgt.1 (by rw [heq])).2
    rw [decide_eq_false hlt]
    cases order <;> first | rfl | exact absurd rfl hne

section Accept

variable {txs before after : List SourceTransaction} {cur : SourceTransaction} {s : System}
  {sourceID : String} {t : Transaction}

/-- The hub takes a transaction of the WAL as new exactly when it has taken all before it and no
more. -/
theorem isNew_eq (hpair : (before ++ cur :: after).Pairwise SourceTransaction.Precedes)
    (hinv : Inv s)
    (htaken : s.accepted.map identity =
      ((before ++ cur :: after).take s.accepted.length).map (·.identity sourceID))
    (hlen : before.length ≤ s.accepted.length) (ht : identity t = cur.identity sourceID) :
    s.hub.isNew t = .ok (decide (before.length = s.accepted.length)) := by
  obtain ⟨evicted, hacc, hret⟩ := hinv.retains
  have hreceived := hret.received
  rw [← hacc] at hreceived
  have hcursor : t.cursor = ⟨sourceID, cur.endLSN⟩ := congrArg Identity.cursor ht
  cases hlast : s.accepted.getLast? with
  | none =>
    rw [hlast] at hreceived
    rw [List.getLast?_eq_none_iff] at hlast
    rw [hlast] at hlen ⊢
    have hzero : before.length = 0 := Nat.le_zero.1 hlen
    simp [Hub.isNew, hreceived, hzero]
  | some newest =>
    obtain ⟨older, hsplit⟩ := List.getLast?_eq_some_iff.1 hlast
    have hk : s.accepted.length = older.length + 1 := by rw [hsplit]; simp
    -- the newest accepted transaction is the one of the WAL at its index
    obtain ⟨last, hat, hid⟩ : ∃ last, (before ++ cur :: after)[older.length]? = some last ∧
        last.identity sourceID = identity newest := by
      have hget := congrArg (fun l => l[older.length]?) htaken
      simp only [List.getElem?_map, hk, List.getElem?_take_of_lt (Nat.lt_succ_self _)] at hget
      rw [hsplit, List.getElem?_concat_length, Option.map_some] at hget
      exact Option.map_eq_some_iff.1 hget.symm
    have hnewest : newest.cursor = ⟨sourceID, last.endLSN⟩ := congrArg Identity.cursor hid.symm
    rw [hlast, Option.map_some, hnewest] at hreceived
    rw [isNew_of_received hreceived (by rw [hcursor]), hcursor, hk]
    congr 1
    rw [decide_eq_decide]
    obtain ⟨-, hcur, hcross⟩ := List.pairwise_append.1 hpair
    constructor
    · intro (hlt : last.endLSN < cur.endLSN)
      by_contra hne
      have hle : before.length ≤ older.length := by omega
      rw [List.getElem?_append_right hle] at hat
      rcases List.mem_cons.1 (List.mem_of_getElem? hat) with rfl | hmem
      · exact Nat.lt_irrefl _ hlt
      · have hprec := (List.pairwise_cons.1 hcur).1 last hmem
        have hlast' := last.commit_lt_end
        unfold SourceTransaction.Precedes at hprec
        omega
    · intro heq
      rw [List.getElem?_append_left (by omega)] at hat
      have hprec := hcross last (List.mem_of_getElem? hat) cur List.mem_cons_self
      exact Nat.lt_of_le_of_lt hprec cur.commit_lt_end

/-- **Accepting a transaction of the WAL** keeps the hub on the committed sequence. -/
theorem accept_taken (hpair : (before ++ cur :: after).Pairwise SourceTransaction.Precedes)
    (hinv : Inv s)
    (htaken : s.accepted.map identity =
      ((before ++ cur :: after).take s.accepted.length).map (·.identity sourceID))
    (hlen : before.length ≤ s.accepted.length) (ht : identity t = cur.identity sourceID) :
    (s.accept t).accepted.map identity =
      ((before ++ cur :: after).take (s.accept t).accepted.length).map (·.identity sourceID) ∧
    s.accepted.length ≤ (s.accept t).accepted.length ∧
    before.length + 1 ≤ (s.accept t).accepted.length := by
  have hnew := isNew_eq hpair hinv htaken hlen ht
  by_cases heq : before.length = s.accepted.length
  · rw [decide_eq_true heq] at hnew
    have hacc : (s.accept t).accepted = s.accepted ++ [t] := by
      simp only [System.accept, Hub.accept, hnew]
    rw [hacc, List.length_append, List.length_singleton, ← heq]
    refine ⟨?_, by omega, by omega⟩
    have htake : (before ++ cur :: after).take (before.length + 1) = before ++ [cur] := by
      rw [List.take_append, List.take_of_length_le (by omega)]
      simp
    rw [← heq, List.take_left] at htaken
    rw [htake, List.map_append, List.map_append, htaken, List.map_singleton, List.map_singleton,
      ht]
  · rw [decide_eq_false heq] at hnew
    have hacc : (s.accept t).accepted = s.accepted := by
      simp only [System.accept, Hub.accept, hnew]
    rw [hacc]
    exact ⟨htaken, Nat.le_refl _, by omega⟩

end Accept

/-! ## The run -/

theorem accepted_of_stepped {s s' : System} {l : Watch.Label} (h : s.step l = some s')
    (hl : ∀ t, l ≠ .accept t) : s'.accepted = s.accepted := by
  cases System.step_stepped h with
  | accepted t _ _ => exact absurd rfl (hl t)
  | idle _ _ _ _ => rfl
  | unknown _ _ _ => rfl
  | opened _ _ _ => rfl
  | moved _ _ _ _ _ _ => rfl

section Run

variable {txs : List SourceTransaction} {initial : Nat} {s : State}

/-- A message handled without an error or a commit. -/
theorem Connected.consumed {k : Nat} {c : Conn} {watchers : List WatcherId} {d' : Decoder}
    {reads : Option Reads} {msg : Message} (h : Connected txs k c)
    (hsent : frames (c.sent ++ [msg]) <+: (streamed txs c.start).flatMap (·.frame))
    (hc : Consumed c.stream.decoder reads msg d' (.ok none)) :
    Connected txs k { c.note watchers d' msg with stream := { c.stream with decoder := d' } } := by
  obtain ⟨skipped, before, after, htxs, hstream, hlen, hpos⟩ := h.position
  rw [hstream] at hsent
  exact ⟨h.start, h.safe, skipped, before, after, htxs, hstream, hlen, hpos.consumed hsent hc⟩

/-- A COMMIT the hub has accepted. -/
theorem Lossless.accepted (hpair : txs.Pairwise SourceTransaction.Precedes) (h : Lossless txs s)
    (hinv : Inv s.system) {c : Conn} (hconn : s.conn = some c) {watchers : List WatcherId}
    {commitLSN endLSN : Nat} {changes : List Change}
    (hsent : frames (c.sent ++ [.commit commitLSN endLSN]) <+:
      (streamed txs c.start).flatMap (·.frame)) (sendErr : Option GoError) (shapes : Shapes)
    (walBytes : Nat) {d' : Decoder} (hd' : d'.pending = none) :
    let system := s.system.accept (c.stream.decoder.committed s.config changes commitLSN endLSN)
    Lossless txs (s.handled shapes ⟨⟨d', endLSN⟩, system, some endLSN, sendErr⟩
      (c.after watchers ⟨⟨d', endLSN⟩, system, some endLSN, sendErr⟩
        (.xlogData walBytes (some (.commit commitLSN endLSN))))) := by
  intro system
  have hc := h.conn c hconn
  obtain ⟨skipped, before, after, htxs, hstream, hlen, hpos⟩ := hc.position
  rw [hstream] at hsent
  obtain ⟨cur, after', rfl, rfl, rfl, hxid, htime, hsent'⟩ := hpos.committed hsent
  have htxs' : txs = (skipped ++ before) ++ cur :: after' := by rw [htxs, List.append_assoc]
  have htaken := h.taken
  rw [htxs'] at hpair htaken
  have hid : identity (c.stream.decoder.committed s.config changes cur.commitLSN cur.endLSN) =
      cur.identity s.config.sourceID := by
    simp [identity, Decoder.committed, SourceTransaction.identity, hxid, htime]
  obtain ⟨htaken', hgrow, hnext⟩ := accept_taken hpair hinv htaken hlen hid
  have hsafe : Covered txs system.accepted.length cur.endLSN := by
    rw [htxs']
    exact (covered_endLSN hpair).mono hnext (Nat.le_refl _)
  refine ⟨?_, ?_, ?_⟩
  · rw [htxs']
    exact htaken'
  · intro a ha
    rcases List.mem_append.1 ha with ha | ha
    · exact (h.acks a ha).mono hgrow (Nat.le_refl _)
    · cases List.mem_singleton.1 ha
      exact hsafe
  · intro c' hc'
    simp only [State.handled, Conn.after] at hc'
    split at hc'
    · cases hc'
    · cases hc'
      refine ⟨hc.start.mono hgrow (Nat.le_refl _), hsafe, skipped, before ++ [cur], after', ?_, ?_,
        ?_, .between hsent' hd'⟩
      · rw [htxs, List.append_assoc, List.singleton_append]
      · exact hstream.trans (by rw [List.append_assoc, List.singleton_append])
      · rw [← List.append_assoc, List.length_append]
        exact hnext

/-- A step that leaves the hub's transactions and the acknowledged positions alone. -/
theorem Lossless.keep {s' : State} (h : Lossless txs s)
    (hacc : s'.system.accepted = s.system.accepted) (hcfg : s'.config = s.config)
    (hacks : s'.acks = s.acks)
    (hconn : ∀ c', s'.conn = some c' → Connected txs s.system.accepted.length c') :
    Lossless txs s' :=
  ⟨by rw [hacc, hcfg]; exact h.taken, by rw [hacc, hacks]; exact h.acks,
    by rw [hacc]; exact hconn⟩

theorem Lossless.stepped (hpair : txs.Pairwise SourceTransaction.Precedes)
    (hinitial : ∀ tx ∈ txs, initial ≤ tx.commitLSN) (h : Lossless txs s) (hinv : Inv s.system)
    {l : Label} {s' : State} (hok : walsender txs initial s l) (hs : s.Stepped l s') :
    Lossless txs s' := by
  cases hs with
  | connect start hnone =>
    refine h.keep rfl rfl rfl fun c' hc' => ?_
    cases hc'
    refine .opened hpair s.config ?_
    rcases hok with hle | ⟨a, ha, hle⟩
    · intro i tx hi hlt
      have := hinitial tx (List.mem_of_getElem? hi)
      omega
    · exact (h.acks a ha).mono (Nat.le_refl _) hle
  | @receive data recording sendErr c hd hconn hh =>
    have hc := h.conn c hconn
    cases hh with
    | broken _ s' err =>
      refine h.keep rfl rfl (List.append_nil _) fun c' hc' => ?_
      exact absurd hc' (by simp only [State.handled]; unfold Conn.after; split <;> simp)
    | consumed walBytes hcons =>
      refine h.keep rfl rfl (List.append_nil _) fun c' hc' => ?_
      cases hc'
      exact hc.consumed (hok c hconn) hcons
    | rejected walBytes commitLSN endLSN s' hp hsink err' =>
      cases sink_of_error hsink
      refine h.keep rfl rfl (List.append_nil _) fun c' hc' => ?_
      cases hc'
    | accepted walBytes commitLSN endLSN hp hsink =>
      cases sink_of_ok hsink
      exact h.accepted hpair hinv hconn (hok c hconn) sendErr _ walBytes rfl
    | keepalive position replyRequested =>
      have hk := hc.keepalive hpair (hok c hconn)
      refine ⟨h.taken, fun a ha => ?_, fun c' hc' => ?_⟩
      · rcases List.mem_append.1 ha with ha | ha
        · exact h.acks a ha
        · cases replyRequested with
          | false => simp at ha
          | true =>
            cases List.mem_singleton.1 ha
            exact hk.safe
      · have hafter : c.after s.system.hub.registry.watchers _
            (.keepalive position replyRequested) = some c' := hc'
        cases Conn.after_keepalive hafter
        exact hk
  | @timeout sendErr c hconn =>
    have hc := h.conn c hconn
    refine ⟨h.taken, fun a ha => ?_, fun c' hc' => ?_⟩
    · rcases List.mem_append.1 ha with ha | ha
      · exact h.acks a ha
      · cases List.mem_singleton.1 ha
        exact hc.safe
    · simp only at hc'
      split at hc'
      · cases hc'
      · cases hc'
        exact hc
  | cut =>
    refine h.keep rfl rfl rfl fun c' hc' => ?_
    cases hc'
  | record shape => exact h.keep rfl rfl rfl h.conn
  | hub hl hsystem => exact h.keep (accepted_of_stepped hsystem hl) rfl rfl h.conn

/-- **No transaction is lost or taken twice.**  Whatever connections are made, cut and resumed, the
hub has taken a prefix of the committed sequence, and every position acknowledged so far has only
transactions before it that the hub has taken. -/
theorem no_transaction_lost (hordered : txs.IsChain SourceTransaction.Precedes)
    (hinitial : ∀ tx ∈ txs, initial ≤ tx.commitLSN)
    (h : Reaches machine (walsender txs initial) s) :
    s.system.accepted.map identity <+: txs.map (·.identity s.config.sourceID) ∧
    ∀ a ∈ s.acks, ∀ tx ∈ txs, tx.commitLSN < a →
      tx.identity s.config.sourceID ∈ s.system.accepted.map identity := by
  have hpair := pairwise_of_chain hordered
  have hloss : Lossless txs s := by
    refine Reaches.invariant (I := Lossless txs) ?_ ?_ h
    · rintro s ⟨config, parseLSN, cfg, hub, -, rfl⟩
      exact ⟨rfl, nofun, nofun⟩
    · intro s l s' hreach hloss hok hstep
      exact hloss.stepped hpair hinitial (Reaches.inv (system_reaches hreach)) hok
        (State.step_stepped hstep)
  rw [hloss.taken]
  refine ⟨(List.take_prefix _ _).map _, fun a ha tx htx hlt => ?_⟩
  obtain ⟨i, hi⟩ := List.mem_iff_getElem?.1 htx
  have hik := hloss.acks a ha i tx hi hlt
  refine List.mem_map.2 ⟨tx, List.mem_of_getElem? (i := i) ?_, rfl⟩
  rw [List.getElem?_take_of_lt hik, hi]

end Run

namespace Demo

open Watchd.Watch.Demo (parseLSN relation cell)

/-- The daemon of the members projection, before anything has happened. -/
def start : Option State :=
  (Hub.new parseLSN (Watch.Demo.config 10 10)).toOption.map fun h =>
    { config := ⟨"main", 1000, 10, 100⟩, system := { hub := h } }

theorem exists_of_run (ok : State → Label → Prop) [∀ s l, Decidable (ok s l)] (ls : List Label)
    (P : State → Prop) [∀ s, Decidable (P s)]
    (h : (start.bind (runWhile machine ok · ls)).any (fun s => P s) = true) :
    ∃ s, Reaches machine ok s ∧ P s := by
  obtain ⟨s, hs, hP⟩ := (Option.any_eq_true _ _).1 h
  obtain ⟨s₀, hs₀, hrun⟩ := Option.bind_eq_some_iff.1 hs
  have hinit : machine.init s₀ := by
    obtain ⟨hub, hhub, rfl⟩ := Option.map_eq_some_iff.1 hs₀
    exact ⟨_, _, _, _, toOption_eq_some_iff.1 hhub, rfl⟩
  exact ⟨s, .of_runWhile (.init hinit) hrun, of_decide_eq_true hP⟩

/-- A pgoutput message arrives. -/
def pgoutput (msg : Message) : Label := .receive (.xlogData 20 (some msg)) {} none

/-- A member of the tenant is inserted. -/
def insertion : Message := .insert ⟨16384, some [cell 0x37, cell 0x31]⟩

/-- The source's first transaction. -/
def first : SourceTransaction := ⟨15, 0, 500, 510, by decide⟩

/-- The source's second transaction. -/
def second : SourceTransaction := ⟨16, 0, 600, 610, by decide⟩

/-- The messages of a transaction with `body` between its BEGIN and COMMIT arrive. -/
def sends (tx : SourceTransaction) (body : List Message) : List Label :=
  (.begin tx.xid tx.commitTime :: (body ++ [.commit tx.commitLSN tx.endLSN])).map pgoutput

/-- The first connection is lost in the middle of the second transaction; the second connection
starts over. -/
def reconnecting : List Label :=
  let body := [.relation (relation 'd' 1), insertion]
  [.connect 400] ++ sends first body ++ [.receive (.keepalive 520 true) {} none] ++
    (sends second [insertion]).take 2 ++ [.receive (.keepalive 700 true) {} none, .cut,
    .connect 400] ++ sends first body ++ sends second [insertion] ++
    [.receive (.keepalive 700 true) {} none]

end Demo

theorem no_transaction_lost_run :
    ∃ s, Reaches machine (walsender [Demo.first, Demo.second] 400) s ∧
      s.acks = [510, 520, 520, 510, 610, 700] ∧ s.system.accepted.length = 2 ∧
      s.system.accepted.map identity <+: [Demo.first, Demo.second].map (·.identity "main") := by
  obtain ⟨s, hs, hP⟩ := Demo.exists_of_run (walsender [Demo.first, Demo.second] 400)
    Demo.reconnecting (fun s => s.acks = [510, 520, 520, 510, 610, 700] ∧
      s.system.accepted.length = 2 ∧ s.config.sourceID = "main") (by decide)
  have hchain : [Demo.first, Demo.second].IsChain SourceTransaction.Precedes :=
    .cons_cons (show 510 ≤ 600 by decide) (.singleton _)
  have hlost := no_transaction_lost hchain (by decide) hs
  rw [hP.2.2] at hlost
  exact ⟨s, hs, hP.1, hP.2.1, hlost.1⟩

end Watchd.Daemon
