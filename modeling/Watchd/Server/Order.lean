import Watchd.Lib.Decimal
import Watchd.Lib.Hex
import Watchd.Server.Cursors

/-!
# The order of wire cursors

`CompareCursors` takes two wire cursors apart and compares their positions.  A
position is printed as the upper and the lower half of its bits, in unpadded hex,
so the texts are not in the order of the positions; they are read back before
they are compared.

`cursors_round_trip` states it with the round trip and the refusal of foreign
cursors.
-/

namespace Watchd.Wire

open Watchd.Cdc Watchd.Watch Watchd.Lib

/-! ## Positions as text -/

/-- `pglogrepl.LSN.String`: the upper and the lower 32 bits. -/
def PrintsHex (lsnString : Nat → String) : Prop :=
  ∀ lsn < 2 ^ 64, lsnString lsn = Hex.print (lsn / 2 ^ 32) ++ "/" ++ Hex.print (lsn % 2 ^ 32)

/-- `pglogrepl.ParseLSN`, on two hex numbers of 32 bits. -/
def ParsesHex (parseLSN : String → Option Nat) : Prop :=
  ∀ upper lower, ∀ h < 2 ^ 32, ∀ l < 2 ^ 32, Hex.value upper = some h → Hex.value lower = some l →
    parseLSN (upper ++ "/" ++ lower) = some (h * 2 ^ 32 + l)

theorem readsBack_of_hex {lsnString : Nat → String} {parseLSN : String → Option Nat}
    (hprint : PrintsHex lsnString) (hparse : ParsesHex parseLSN) :
    ReadsBack lsnString parseLSN := by
  intro lsn hlsn
  have hupper : lsn / 2 ^ 32 < 2 ^ 32 := Nat.div_lt_of_lt_mul hlsn
  have hlower : lsn % 2 ^ 32 < 2 ^ 32 := Nat.mod_lt _ (by decide)
  rw [hprint lsn hlsn,
    hparse _ _ _ hupper _ hlower (Hex.value_print _) (Hex.value_print _), Nat.div_add_mod']

/-! ## Comparing -/

/-- The order in an answer to CompareCursors. -/
inductive CursorOrder
  | unspecified
  | before
  | equal
  | after
  deriving DecidableEq, Repr

/-- The answer for an order. -/
def cursorOrder : Ordering → CursorOrder
  | .lt => .before
  | .eq => .equal
  | .gt => .after

namespace Server

/-- The answer to CompareCursors, or the text of its InvalidArgument status. -/
def compareCursors (srv : Server) (parseLSN : String → Option Nat) (left right : String) :
    Except String CursorOrder :=
  match srv.decodeCursor parseLSN left with
  | .error err => .error ("left: " ++ err)
  | .ok left =>
    match srv.decodeCursor parseLSN right with
    | .error err => .error ("right: " ++ err)
    | .ok right =>
      match left.compare right with
      | .error err => .error err.text
      | .ok order => .ok (cursorOrder order)

variable {srv srv' : Server} {parseLSN : String → Option Nat}

theorem encodeCursor_ne_empty (c : Cursor) : srv.encodeCursor c ≠ "" := by
  intro h
  have hchars := congrArg String.toList h
  simp [encodeCursor, String.toList_append] at hchars

/-- What the server asks the hub for with its own cursor. -/
theorem request_encodeCursor (hsrv : srv.Serves) (hlsn : ReadsBack srv.lsnString parseLSN)
    {c : Cursor} (hc : c.lsn < 2 ^ 64) (projection : String) (scope : Text) :
    srv.request parseLSN projection scope (srv.encodeCursor c) =
      .ok ⟨projection, scope, srv.lsnString c.lsn⟩ := by
  rw [request, if_pos (encodeCursor_ne_empty c), decodeCursor_encodeCursor hsrv hlsn hc]
  rfl

/-- A cursor of another source is refused, whatever its position. -/
theorem decodeCursor_foreign (hsrv' : srv'.Serves) (hne : srv'.sourceID ≠ srv.sourceID)
    (c : Cursor) :
    srv.decodeCursor parseLSN (srv'.encodeCursor c) =
      .error ("cursor belongs to source " ++ quote srv'.sourceID ++ ", not " ++
        quote srv.sourceID) := by
  unfold decodeCursor encodeCursor
  rw [cut_append hsrv'.2]
  simp [hne]

theorem compareCursors_encodeCursor (hsrv : srv.Serves)
    (hlsn : ReadsBack srv.lsnString parseLSN) {a b : Cursor} (ha : a.lsn < 2 ^ 64)
    (hb : b.lsn < 2 ^ 64) :
    srv.compareCursors parseLSN (srv.encodeCursor a) (srv.encodeCursor b) =
      .ok (cursorOrder (compare a.lsn b.lsn)) := by
  have hcompare : (⟨srv.sourceID, a.lsn⟩ : Cursor).compare ⟨srv.sourceID, b.lsn⟩ =
      .ok (compare a.lsn b.lsn) := by
    unfold Cursor.compare
    rw [if_neg (not_not.2 rfl)]
    rcases Nat.lt_trichotomy a.lsn b.lsn with hlt | heq | hgt
    · simp [hlt, Nat.compare_eq_lt.2 hlt]
    · simp [heq]
    · simp [hgt, Nat.lt_asymm hgt, Nat.compare_eq_gt.2 hgt]
  simp only [compareCursors, decodeCursor_encodeCursor hsrv hlsn ha,
    decodeCursor_encodeCursor hsrv hlsn hb, hcompare]

/-- The server takes the text for no cursor of its own, neither to resume from nor to compare. -/
structure Refuses (srv : Server) (parseLSN : String → Option Nat) (text : String) : Prop where
  decode : ∃ err, srv.decodeCursor parseLSN text = .error err
  watch : ∀ projection scope, ∃ err, srv.request parseLSN projection scope text = .error err
  left : ∀ other, ∃ err, srv.compareCursors parseLSN text other = .error err
  right : ∀ other, ∃ err, srv.compareCursors parseLSN other text = .error err

theorem refuses_of_decode {text err : String} (htext : text ≠ "")
    (h : srv.decodeCursor parseLSN text = .error err) : srv.Refuses parseLSN text where
  decode := ⟨err, h⟩
  watch projection scope := ⟨err, by rw [request, if_pos htext, h]; rfl⟩
  left other := ⟨"left: " ++ err, by simp only [compareCursors, h]⟩
  right other := by
    cases hother : srv.decodeCursor parseLSN other with
    | error err' => exact ⟨"left: " ++ err', by simp only [compareCursors, hother]⟩
    | ok cursor => exact ⟨"right: " ++ err, by simp only [compareCursors, hother, h]⟩

/-- **Cursors round-trip and never cross sources.**  A server decodes its own wire cursors to the
cursors they are, the text that it passes on is parsed by the hub to the same cursor, CompareCursors
answers with the order of the positions, and every wire cursor of another source is refused. -/
theorem cursors_round_trip (hsrv : srv.Serves) (hsrv' : srv'.Serves)
    (hprint : PrintsHex srv.lsnString) (hparse : ParsesHex parseLSN) {a b : Nat} (ha : a < 2 ^ 64)
    (hb : b < 2 ^ 64) :
    srv.decodeCursor parseLSN (srv.encodeCursor ⟨srv.sourceID, a⟩) = .ok ⟨srv.sourceID, a⟩ ∧
    (∀ projection scope, ∃ req,
      srv.request parseLSN projection scope (srv.encodeCursor ⟨srv.sourceID, a⟩) = .ok req ∧
      parseCursor parseLSN srv.sourceID req.resumeCursor = .ok ⟨srv.sourceID, a⟩) ∧
    srv.compareCursors parseLSN (srv.encodeCursor ⟨srv.sourceID, a⟩)
      (srv.encodeCursor ⟨srv.sourceID, b⟩) = .ok (cursorOrder (compare a b)) ∧
    (srv'.sourceID ≠ srv.sourceID →
      ∀ lsn, srv.Refuses parseLSN (srv'.encodeCursor ⟨srv'.sourceID, lsn⟩)) := by
  have hlsn := readsBack_of_hex hprint hparse
  refine ⟨decodeCursor_encodeCursor hsrv hlsn ha, fun projection scope => ?_,
    compareCursors_encodeCursor hsrv hlsn ha hb, fun hne lsn => ?_⟩
  · refine ⟨_, request_encodeCursor hsrv hlsn ha projection scope, ?_⟩
    simp [parseCursor, hsrv.1, hlsn a ha]
  · exact refuses_of_decode (encodeCursor_ne_empty _) (decodeCursor_foreign hsrv' hne _)

end Server

namespace Demo

/-- `pglogrepl.LSN.String`. -/
def hexLSN (lsn : Nat) : String := Hex.print (lsn / 2 ^ 32) ++ "/" ++ Hex.print (lsn % 2 ^ 32)

/-- `pglogrepl.ParseLSN`, on upper- or lower-case numbers without blanks. -/
def parseHexLSN (text : String) : Option Nat :=
  match Decimal.split text '/' with
  | [upper, lower] =>
    (Hex.value upper).bind fun h => (Hex.value lower).map fun l => (h * 2 ^ 32 + l) % 2 ^ 64
  | _ => none

theorem parseHexLSN_parses : ParsesHex parseHexLSN := by
  intro upper lower h hh l hl hupper hlower
  have hbound : h * 2 ^ 32 + l < 2 ^ 64 := by omega
  have hslash : Hex.digitValue '/' = none := by decide
  have hsplit : Decimal.split (Decimal.join '/' [upper, lower]) '/' = [upper, lower] := by
    refine Decimal.split_join (by simp) fun field hfield => ?_
    rcases List.mem_cons.1 hfield with rfl | hfield
    · exact Hex.not_mem_of_value hupper hslash
    · rw [List.mem_singleton.1 hfield]
      exact Hex.not_mem_of_value hlower hslash
  have hjoin : upper ++ "/" ++ lower = Decimal.join '/' [upper, lower] := rfl
  simp only [parseHexLSN, hjoin, hsplit, hupper, hlower, Option.bind_some, Option.map_some,
    Nat.mod_eq_of_lt hbound]

/-- A server. -/
def mainServer : Server := ⟨"main", 8, hexLSN, fun _ => 8⟩

/-- A server of another source, with a name like a position. -/
def otherServer : Server := ⟨"0/1F4", 8, hexLSN, fun _ => 8⟩

end Demo

theorem Server.cursors_round_trip_main :
    Demo.mainServer.decodeCursor Demo.parseHexLSN
        (Demo.mainServer.encodeCursor ⟨"main", 2 ^ 36⟩) = .ok ⟨"main", 2 ^ 36⟩ ∧
      Demo.mainServer.compareCursors Demo.parseHexLSN
        (Demo.mainServer.encodeCursor ⟨"main", 2 ^ 36⟩)
        (Demo.mainServer.encodeCursor ⟨"main", 9 * 2 ^ 32⟩) = .ok .after ∧
      Demo.mainServer.Refuses Demo.parseHexLSN (Demo.otherServer.encodeCursor ⟨"0/1F4", 500⟩) := by
  have hprint : PrintsHex Demo.mainServer.lsnString := fun _ _ => rfl
  have hmain : Demo.mainServer.Serves := ⟨by decide, by decide⟩
  have hother : Demo.otherServer.Serves := ⟨by decide, by decide⟩
  obtain ⟨hdecode, -, hcompare, hrefuses⟩ :=
    Server.cursors_round_trip hmain hother hprint Demo.parseHexLSN_parses
      (show 2 ^ 36 < 2 ^ 64 by decide) (show 9 * 2 ^ 32 < 2 ^ 64 by decide)
  exact ⟨hdecode, hcompare, hrefuses (by decide) 500⟩

end Watchd.Wire
