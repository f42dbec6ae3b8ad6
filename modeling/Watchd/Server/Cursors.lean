import Watchd.Server.Wire

/-!
# Cursors on the wire

A cursor is handed out as its source and its position, joined with `@`; a resume
request carries one back, and the server takes it apart before the hub parses
the position again.  The text form of positions is a third party's: `ReadsBack`
is all that is asked of it.

`decodeCursor_encodeCursor` is the round trip.
-/

namespace Watchd.Wire

open Watchd.Cdc Watchd.Watch

/-- `strings.Cut` at the separator `@`. -/
def cut (text : String) : Option (String × String) :=
  match text.toList.dropWhile (· ≠ '@') with
  | [] => none
  | _ :: after => some (.ofList (text.toList.takeWhile (· ≠ '@')), .ofList after)

/-- The text of a position parses to it again. -/
def ReadsBack (lsnString : Nat → String) (parseLSN : String → Option Nat) : Prop :=
  ∀ lsn < 2 ^ 64, parseLSN (lsnString lsn) = some lsn

namespace Server

variable (srv : Server) (parseLSN : String → Option Nat)

/-- What `New` checks about the source. -/
def Serves : Prop := srv.sourceID ≠ "" ∧ '@' ∉ srv.sourceID.toList

/-- A wire cursor of this server's source, or the error's text. -/
def decodeCursor (text : String) : Except String Cursor :=
  match cut text with
  | none => .error ("malformed cursor " ++ quote text)
  | some (sourceID, position) =>
    if sourceID ≠ srv.sourceID then
      .error ("cursor belongs to source " ++ quote sourceID ++ ", not " ++ quote srv.sourceID)
    else
      match parseCursor parseLSN srv.sourceID position with
      | .error _ => .error ("malformed cursor " ++ quote text)
      | .ok cursor => .ok cursor

/-- The request `Watch` makes of the hub, unless it refuses the cursor. -/
def request (projection : String) (scope : Text) (resumeCursor : String) : Except String Request :=
  if resumeCursor ≠ "" then
    (srv.decodeCursor parseLSN resumeCursor).map fun cursor =>
      ⟨projection, scope, srv.lsnString cursor.lsn⟩
  else .ok ⟨projection, scope, ""⟩

/-- A request carries the position of a decoded cursor, or none. -/
theorem request_ok {srv : Server} {parseLSN : String → Option Nat} {projection : String}
    {scope : Text} {resumeCursor : String} {req : Request}
    (h : srv.request parseLSN projection scope resumeCursor = .ok req) :
    req = ⟨projection, scope, ""⟩ ∨ ∃ c, srv.decodeCursor parseLSN resumeCursor = .ok c ∧
      req = ⟨projection, scope, srv.lsnString c.lsn⟩ := by
  unfold request at h
  split at h
  · cases hdecode : srv.decodeCursor parseLSN resumeCursor with
    | error text =>
      rw [hdecode] at h
      cases h
    | ok c =>
      rw [hdecode] at h
      cases h
      exact .inr ⟨c, rfl, rfl⟩
  · cases h
    exact .inl rfl

end Server

theorem cut_append {left right : String} (h : '@' ∉ left.toList) :
    cut (left ++ "@" ++ right) = some (left, right) := by
  have hall : ∀ c ∈ left.toList, (decide (c ≠ '@')) = true :=
    fun c hc => decide_eq_true fun heq => h (heq ▸ hc)
  have hchars : (left ++ "@" ++ right).toList = left.toList ++ '@' :: right.toList := by
    simp [String.toList_append]
  unfold cut
  rw [hchars, List.dropWhile_append_of_pos hall, List.takeWhile_append_of_pos hall]
  simp

namespace Server

variable {srv : Server} {parseLSN : String → Option Nat}

/-- **Cursors round-trip** through the server that handed them out. -/
theorem decodeCursor_encodeCursor (hsrv : srv.Serves) (hlsn : ReadsBack srv.lsnString parseLSN)
    {c : Cursor} (hc : c.lsn < 2 ^ 64) :
    srv.decodeCursor parseLSN (srv.encodeCursor c) = .ok ⟨srv.sourceID, c.lsn⟩ := by
  unfold decodeCursor encodeCursor
  rw [cut_append hsrv.2]
  simp [parseCursor, hsrv.1, hlsn c.lsn hc]

end Server

end Watchd.Wire
