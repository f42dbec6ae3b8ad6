import Watchd.Lib.Pages
import Watchd.Server.Wire

/-!
# How a page of rows is packed

`sendRows` fills one message after another.  Every message but a single oversized
row keeps to the bound, and a message is closed only when the next row does not
fit.

`sendRows_packed` states it with the order of the rows.
-/

namespace Watchd.Wire.Server

open Watchd.Watch Watchd.Lib

variable {srv : Server} {p : Packing} {sent : List (List WireRow)}

/-- The rows of each message sent, and the rows being packed. -/
def Packing.pages (p : Packing) (sent : List (List WireRow)) : List (List WireRow) :=
  if p.message = [] then sent else sent ++ [p.message]

/-- Where `sendRows` stands between two rows, `sent` being the rows of the messages sent. -/
structure Packing.Fills (srv : Server) (p : Packing) (sent : List (List WireRow)) : Prop where
  sent_eq : p.sent = sent.map .snapshotRows
  bytes_eq : p.messageBytes = pageSize srv.size p.message
  -- a message is flushed only to make room for a row
  first : p.message = [] → sent = []
  packed : Packed srv.size srv.maxRowsMessageBytes (p.pages sent)

theorem Packing.Fills.empty : Packing.Fills srv {} [] := ⟨rfl, rfl, fun _ => rfl, .nil⟩

/-- Flushing sends the rows being packed. -/
theorem Packing.Fills.sent_flush (h : p.Fills srv sent) :
    p.flush.sent = (p.pages sent).map .snapshotRows := by
  unfold flush pages
  split
  · exact h.sent_eq
  · simp [h.sent_eq]

theorem packRow_of_fits {row : Row}
    (h : p.messageBytes + srv.size (convertRow row) ≤ srv.maxRowsMessageBytes) :
    srv.packRow p row = { p with
      message := p.message ++ [convertRow row]
      messageBytes := p.messageBytes + srv.size (convertRow row) } := by
  unfold packRow
  simp only [gt_iff_lt, Nat.not_lt.mpr h, if_false]

/-- A row that does not fit is alone in its message. -/
theorem packRow_of_full (hp : p.Fills srv sent) {row : Row}
    (h : srv.maxRowsMessageBytes < p.messageBytes + srv.size (convertRow row)) :
    srv.packRow p row =
      ⟨(p.pages sent).map .snapshotRows, [convertRow row], srv.size (convertRow row)⟩ := by
  have hempty : p.flush.messageBytes = 0 := by
    unfold Packing.flush
    split
    · next hnil => simp [hp.bytes_eq, hnil]
    · rfl
  unfold packRow
  simp only [gt_iff_lt, h, if_true, hp.sent_flush, p.flush_message, hempty, List.nil_append,
    Nat.zero_add]

theorem Packing.Fills.packRow (h : p.Fills srv sent) (row : Row) :
    ∃ sent', (srv.packRow p row).Fills srv sent' := by
  rcases Nat.lt_or_ge srv.maxRowsMessageBytes (p.messageBytes + srv.size (convertRow row)) with
    hfull | hfits
  · rw [packRow_of_full h hfull]
    refine ⟨p.pages sent, rfl, by simp [pageSize], by simp, ?_⟩
    refine h.packed.start fun last hlast => ?_
    unfold pages at hlast
    split at hlast
    · next hnil => simp [h.first hnil] at hlast
    · obtain rfl : p.message = last := by simpa using hlast
      rw [← h.bytes_eq]
      exact hfull
  · rw [packRow_of_fits hfits]
    refine ⟨sent, h.sent_eq, by simp [h.bytes_eq], fun hnil => by simp at hnil, ?_⟩
    have hpages : ∀ bytes, Packing.pages ⟨p.sent, p.message ++ [convertRow row], bytes⟩ sent =
        sent ++ [p.message ++ [convertRow row]] := fun _ => by simp [pages]
    rw [hpages]
    by_cases hnil : p.message = []
    · rw [hnil, h.first hnil]
      exact Packed.nil.start (by simp)
    · refine Packed.join ?_ (h.bytes_eq ▸ hfits)
      simpa [pages, hnil] using h.packed

theorem Packing.Fills.foldl (h : p.Fills srv sent) (rows : List Row) :
    ∃ sent', (rows.foldl srv.packRow p).Fills srv sent' := by
  induction rows generalizing p sent with
  | nil => exact ⟨sent, h⟩
  | cons row rows ih =>
    obtain ⟨sent', h'⟩ := h.packRow row
    exact ih h'

/-- **Rows are packed without loss and within bounds.**  The messages of a page are row messages,
none of them empty; together they carry the rows in order; only a single row may exceed the bound;
and the first row of each message would not have fitted into the one before. -/
theorem sendRows_packed (srv : Server) (rows : List Row) :
    ∃ pages : List (List WireRow), srv.sendRows rows = pages.map .snapshotRows ∧
      pages.flatten = rows.map convertRow ∧ (∀ page ∈ pages, page ≠ []) ∧
      (∀ page ∈ pages, 2 ≤ page.length → pageSize srv.size page ≤ srv.maxRowsMessageBytes) ∧
      pages.IsChain fun page next =>
        ∀ row ∈ next.head?, srv.maxRowsMessageBytes < pageSize srv.size page + srv.size row := by
  have hstart : Packing.Fills srv {} [] := .empty
  obtain ⟨sent, h⟩ := hstart.foldl rows
  have hsent : srv.sendRows rows = ((rows.foldl srv.packRow {}).pages sent).map .snapshotRows :=
    h.sent_flush
  refine ⟨_, hsent, ?_, h.packed.nonempty, h.packed.within, h.packed.full⟩
  have hrows := srv.sendRows_rows rows
  rw [hsent, List.flatMap_map] at hrows
  simpa [List.flatMap_def, Message.rows] using hrows

end Watchd.Wire.Server
