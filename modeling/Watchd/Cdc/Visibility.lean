import Mathlib.Tactic.SplitIfs
import Watchd.Cdc.Types
import Watchd.Lib.Decimal
import Watchd.Lib.Loops

/-!
# Which transactions a snapshot contains

`parseVisibility` reads the text form of a PostgreSQL snapshot; a streamed
transaction names itself by the low half of its ID, which `widen` completes
from the snapshot's own `xmax`.

* `parseVisibility_exact`: what is accepted, and as what;
* `Visibility.decides_iff_signed`: the completion decides exactly as the full ID
  would, for every ID near `xmax` that fits a signed 64-bit integer, and no other.
-/

namespace Watchd.Cdc

open Watchd.Lib Watchd.Lib.Decimal

/-! ## Reading a snapshot -/

/-- One field of the in-progress list. -/
def parseRunning (text : String) (xmin xmax : UInt64) (inProgress : Finset UInt64)
    (field : String) : Except GoError (Finset UInt64) :=
  let invalid := errorf .postgresServer (": invalid pg_snapshot in-progress list " ++ quote text)
  match parseUint field with
  | none => .error invalid
  | some xid => if xid < xmin ∨ xid ≥ xmax then .error invalid else .ok (insert xid inProgress)

/-- Reads the text of a `pg_snapshot`. -/
def parseVisibility (text : String) : Except GoError Visibility :=
  match split text ':' with
  | [first, second, third] =>
    match parseUint first with
    | none => .error (errorf .postgresServer (": invalid pg_snapshot xmin " ++ quote text))
    | some xmin =>
      match parseUint second with
      | none => .error (errorf .postgresServer (": invalid pg_snapshot xmax " ++ quote text))
      | some xmax =>
        if xmax < xmin then
          .error (errorf .postgresServer (": invalid pg_snapshot xmax " ++ quote text))
        else do
          -- an empty list is no field, not one empty field
          let fields := if third ≠ "" then split third ',' else []
          let inProgress ← fields.foldlM (parseRunning text xmin xmax) ∅
          return ⟨xmin, xmax, inProgress⟩
  | _ => .error (errorf .postgresServer (": invalid pg_snapshot " ++ quote text))

/-- The parts of `xmin:xmax:xip,xip,...`. -/
structure SnapshotParts where
  xmin : String
  xmax : String
  xip : List String

namespace SnapshotParts

/-- The text of its parts. -/
def text (p : SnapshotParts) : String :=
  p.xmin ++ ":" ++ p.xmax ++ ":" ++ join ',' p.xip

/-- Numbers of 64 bits, in order, and every running transaction between them. -/
structure WellFormed (p : SnapshotParts) : Prop where
  xmin_digits : IsDigits p.xmin
  xmax_digits : IsDigits p.xmax
  xmin_fits : value p.xmin < 2 ^ 64
  xmax_fits : value p.xmax < 2 ^ 64
  ordered : value p.xmin ≤ value p.xmax
  xip_digits : ∀ f ∈ p.xip, IsDigits f
  xip_within : ∀ f ∈ p.xip, value p.xmin ≤ value f ∧ value f < value p.xmax

/-- `v` is the snapshot `p` writes down. -/
structure Denotes (p : SnapshotParts) (v : Visibility) : Prop where
  xmin_eq : v.xmin.toNat = value p.xmin
  xmax_eq : v.xmax.toNat = value p.xmax
  mem_iff : ∀ xid : UInt64, xid ∈ v.inProgress ↔ ∃ f ∈ p.xip, value f = xid.toNat

theorem Denotes.unique {p : SnapshotParts} {v w : Visibility} (hv : p.Denotes v)
    (hw : p.Denotes w) : v = w := by
  obtain ⟨vmin, vmax, vin⟩ := v
  obtain ⟨wmin, wmax, win⟩ := w
  have hmin : vmin = wmin := UInt64.toNat_inj.mp (hv.xmin_eq.trans hw.xmin_eq.symm)
  have hmax : vmax = wmax := UInt64.toNat_inj.mp (hv.xmax_eq.trans hw.xmax_eq.symm)
  have hin : vin = win := by
    ext xid
    exact (hv.mem_iff xid).trans (hw.mem_iff xid).symm
  rw [hmin, hmax, hin]

end SnapshotParts

theorem parseRunning_eq_ok_iff {text : String} {xmin xmax : UInt64} {s r : Finset UInt64}
    {field : String} :
    parseRunning text xmin xmax s field = .ok r ↔
      IsDigits field ∧ xmin.toNat ≤ value field ∧ value field < xmax.toNat ∧
        r = insert (UInt64.ofNat (value field)) s := by
  unfold parseRunning
  cases hp : parseUint field with
  | none =>
    simp only [reduceCtorEq, false_iff]
    rintro ⟨hdigits, -, hlt, -⟩
    have hfits : value field < 2 ^ 64 := hlt.trans xmax.toNat_lt
    rw [parseUint_of_lt hdigits hfits] at hp
    cases hp
  | some xid =>
    obtain ⟨hdigits, hval⟩ := parseUint_eq_some_iff.mp hp
    simp only [hdigits, hval, true_and, UInt64.lt_iff_toNat_lt, ge_iff_le, UInt64.le_iff_toNat_le,
      UInt64.ofNat_toNat]
    split_ifs with hout
    · simp only [false_iff]
      omega
    · have hin : xmin.toNat ≤ xid.toNat ∧ xid.toNat < xmax.toNat := by omega
      simp [hin, eq_comm]

/-- The loop over the in-progress list accepts exactly the lists of numbers in the window, and has
collected them. -/
theorem foldlM_parseRunning {text : String} {xmin xmax : UInt64} {fields : List String}
    {s r : Finset UInt64} :
    fields.foldlM (parseRunning text xmin xmax) s = .ok r ↔
      (∀ f ∈ fields, IsDigits f ∧ xmin.toNat ≤ value f ∧ value f < xmax.toNat) ∧
        r = s ∪ (fields.map fun f => UInt64.ofNat (value f)).toFinset := by
  induction fields generalizing s with
  | nil => simp [pure, Except.pure, eq_comm]
  | cons f fields ih =>
    rw [List.foldlM_cons, bind_eq_ok]
    simp only [parseRunning_eq_ok_iff, ih, List.forall_mem_cons, List.map_cons,
      List.toFinset_cons, Finset.union_insert]
    constructor
    · rintro ⟨_, ⟨hdigits, hlow, hhigh, rfl⟩, hall, rfl⟩
      exact ⟨⟨⟨hdigits, hlow, hhigh⟩, hall⟩, Finset.insert_union ..⟩
    · rintro ⟨⟨⟨hdigits, hlow, hhigh⟩, hall⟩, rfl⟩
      exact ⟨_, ⟨hdigits, hlow, hhigh, rfl⟩, hall, (Finset.insert_union ..).symm⟩

namespace SnapshotParts

theorem text_eq_join (p : SnapshotParts) :
    p.text = join ':' [p.xmin, p.xmax, join ',' p.xip] := by
  simp [text, join, String.intercalate_cons_cons, String.append_assoc]

theorem split_xip {p : SnapshotParts} (h : ∀ f ∈ p.xip, IsDigits f) :
    (if join ',' p.xip ≠ "" then split (join ',' p.xip) ',' else []) = p.xip := by
  cases hxip : p.xip with
  | nil => simp [join]
  | cons f fs =>
    have hf : IsDigits f := h f (by simp [hxip])
    have hne : join ',' (f :: fs) ≠ "" := by
      intro hempty
      apply hf.1
      cases fs with
      | nil => simpa [join] using hempty
      | cons g gs =>
        rw [join, String.intercalate_cons_cons] at hempty
        simp [String.append_eq_empty_iff] at hempty
    rw [if_pos hne]
    refine split_join (by simp) ?_
    intro g hg
    exact (h g (by rw [hxip]; exact hg)).not_mem (by decide)

theorem split_text {p : SnapshotParts} (h : p.WellFormed) :
    split p.text ':' = [p.xmin, p.xmax, join ',' p.xip] := by
  rw [text_eq_join]
  refine split_join (by simp) ?_
  intro f hf hcolon
  simp only [List.mem_cons, List.not_mem_nil, or_false] at hf
  rcases hf with rfl | rfl | rfl
  · exact h.xmin_digits.not_mem (by decide) hcolon
  · exact h.xmax_digits.not_mem (by decide) hcolon
  · -- the list is digits and commas
    rcases mem_join hcolon with hsep | ⟨f, hf, hmem⟩
    · exact absurd hsep (by decide)
    · exact (h.xip_digits f hf).not_mem (by decide) hmem

/-- What is well formed is read, as the snapshot it writes down. -/
theorem WellFormed.parse {p : SnapshotParts} (h : p.WellFormed) :
    ∃ v, parseVisibility p.text = .ok v ∧ p.Denotes v := by
  have hmin := parseUint_of_lt h.xmin_digits h.xmin_fits
  have hmax := parseUint_of_lt h.xmax_digits h.xmax_fits
  have hminNat := UInt64.toNat_ofNat_of_lt' h.xmin_fits
  have hmaxNat := UInt64.toNat_ofNat_of_lt' h.xmax_fits
  have hord : ¬UInt64.ofNat (value p.xmax) < UInt64.ofNat (value p.xmin) := by
    rw [UInt64.lt_iff_toNat_lt, hminNat, hmaxNat]
    exact Nat.not_lt.mpr h.ordered
  have hloop : p.xip.foldlM (parseRunning p.text (.ofNat (value p.xmin)) (.ofNat (value p.xmax)))
      ∅ = .ok (p.xip.map fun f => UInt64.ofNat (value f)).toFinset := by
    refine foldlM_parseRunning.mpr ⟨fun f hf => ?_, (Finset.empty_union _).symm⟩
    rw [hminNat, hmaxNat]
    exact ⟨h.xip_digits f hf, h.xip_within f hf⟩
  refine ⟨⟨.ofNat (value p.xmin), .ofNat (value p.xmax),
    (p.xip.map fun f => UInt64.ofNat (value f)).toFinset⟩, ?_, hminNat, hmaxNat, ?_⟩
  · simp only [parseVisibility, split_text h, hmin, hmax, if_neg hord, split_xip h.xip_digits,
      hloop]
    rfl
  · intro xid
    simp only [List.mem_toFinset, List.mem_map]
    refine exists_congr fun f => and_congr_right fun hf => ?_
    have hfits : value f < 2 ^ 64 := (h.xip_within f hf).2.trans h.xmax_fits
    rw [← UInt64.toNat_inj, UInt64.toNat_ofNat_of_lt' hfits]

end SnapshotParts

/-- What is read was well formed. -/
theorem parseVisibility_wellFormed {text : String} {v : Visibility}
    (h : parseVisibility text = .ok v) : ∃ p : SnapshotParts, p.text = text ∧ p.WellFormed := by
  unfold parseVisibility at h
  split at h
  · next first second third hsplit =>
    split at h
    · cases h
    · next xmin hmin =>
      split at h
      · cases h
      · next xmax hmax =>
        split at h
        · cases h
        · next hord =>
          obtain ⟨inProgress, hloop, -⟩ := bind_eq_ok.mp h
          obtain ⟨hall, -⟩ := foldlM_parseRunning.mp hloop
          obtain ⟨hdmin, hvmin⟩ := parseUint_eq_some_iff.mp hmin
          obtain ⟨hdmax, hvmax⟩ := parseUint_eq_some_iff.mp hmax
          rw [UInt64.lt_iff_toNat_lt] at hord
          refine ⟨⟨first, second, if third ≠ "" then split third ',' else []⟩, ?_,
            hdmin, hdmax, ?_, ?_, ?_, fun f hf => (hall f hf).1, fun f hf => ?_⟩
          · have hthird : join ',' (if third ≠ "" then split third ',' else []) = third := by
              split_ifs with hne
              · exact join_split third ','
              · simpa [join, eq_comm] using hne
            rw [SnapshotParts.text_eq_join, hthird, ← hsplit, join_split]
          · exact hvmin ▸ xmin.toNat_lt
          · exact hvmax ▸ xmax.toNat_lt
          · show value first ≤ value second
            omega
          · show value first ≤ value f ∧ value f < value second
            rw [hvmin, hvmax]
            exact (hall f hf).2
  · cases h

/-! ## Printing a snapshot -/

/-- `pg_snapshot`'s text form, with the running transactions in the order of `xip`. -/
def Visibility.print (v : Visibility) (xip : List UInt64) : String :=
  v.xmin.toNat.repr ++ ":" ++ v.xmax.toNat.repr ++ ":" ++ join ',' (xip.map (·.toNat.repr))

/-- What a snapshot promises of its own numbers. -/
structure Visibility.Bounded (v : Visibility) : Prop where
  ordered : v.xmin ≤ v.xmax
  within : ∀ xid ∈ v.inProgress, v.xmin ≤ xid ∧ xid < v.xmax

theorem Visibility.Bounded.parse_print {v : Visibility} (h : v.Bounded) {xip : List UInt64}
    (hxip : xip.toFinset = v.inProgress) : parseVisibility (v.print xip) = .ok v := by
  let p : SnapshotParts := ⟨v.xmin.toNat.repr, v.xmax.toNat.repr, xip.map (·.toNat.repr)⟩
  have hmem : ∀ xid, xid ∈ xip ↔ xid ∈ v.inProgress := by
    intro xid
    rw [← hxip, List.mem_toFinset]
  have hwf : p.WellFormed := by
    refine ⟨isDigits_repr _, isDigits_repr _, ?_, ?_, ?_, ?_, ?_⟩
    · simpa [p] using v.xmin.toNat_lt
    · simpa [p] using v.xmax.toNat_lt
    · simpa [p] using UInt64.le_iff_toNat_le.mp h.ordered
    · intro f hf
      obtain ⟨xid, -, rfl⟩ := List.mem_map.mp hf
      exact isDigits_repr _
    · intro f hf
      obtain ⟨xid, hxid, rfl⟩ := List.mem_map.mp hf
      obtain ⟨hlow, hhigh⟩ := h.within xid ((hmem xid).mp hxid)
      simpa [p] using ⟨UInt64.le_iff_toNat_le.mp hlow, UInt64.lt_iff_toNat_lt.mp hhigh⟩
  have hdenotes : p.Denotes v := by
    refine ⟨by simp [p], by simp [p], fun xid => ?_⟩
    simp [p, ← hmem, UInt64.toNat_inj]
  obtain ⟨w, hparse, hw⟩ := hwf.parse
  have htext : v.print xip = p.text := rfl
  rw [htext, hparse, hw.unique hdenotes]

/-- **`parseVisibility` accepts exactly the text form of a snapshot**: two numbers of 64 bits in
order and a list of numbers between them, read as those numbers and that set; what a snapshot
prints is read back as the snapshot. -/
theorem parseVisibility_exact :
    (∀ text, (∃ v, parseVisibility text = .ok v) ↔
      ∃ p : SnapshotParts, p.text = text ∧ p.WellFormed) ∧
    (∀ (p : SnapshotParts) v, p.WellFormed → parseVisibility p.text = .ok v → p.Denotes v) ∧
    (∀ (v : Visibility) xip, v.Bounded → xip.toFinset = v.inProgress →
      parseVisibility (v.print xip) = .ok v) := by
  refine ⟨fun text => ⟨fun ⟨v, h⟩ => parseVisibility_wellFormed h, ?_⟩, ?_, ?_⟩
  · rintro ⟨p, rfl, h⟩
    obtain ⟨v, hparse, -⟩ := h.parse
    exact ⟨v, hparse⟩
  · intro p v h hv
    obtain ⟨w, hparse, hw⟩ := h.parse
    rw [hv] at hparse
    cases hparse
    exact hw
  · intro v xip h hxip
    exact h.parse_print hxip

theorem parseVisibility_exact_sample :
    (∃ v, parseVisibility "010:20:14,10" = .ok v) ∧
      parseVisibility ((⟨10, 20, {10, 14}⟩ : Visibility).print [14, 10]) =
        .ok ⟨10, 20, {10, 14}⟩ :=
  ⟨(parseVisibility_exact.1 _).mpr
      ⟨⟨"010", "20", ["14", "10"]⟩, by decide, by decide, by decide, by decide, by decide,
        by decide, by decide, by decide⟩,
    parseVisibility_exact.2.2 _ _ ⟨by decide, by simp⟩ (by decide)⟩

/-! ## Widening a transaction ID -/

/-- The signed distance from `xmax`, in 32 bits. -/
theorem distance_eq {xmax x : UInt64} (hlow : xmax.toNat ≤ x.toNat + 2 ^ 31)
    (hhigh : x.toNat < xmax.toNat + 2 ^ 31) :
    (x.toUInt32 - xmax.toUInt32).toInt32.toInt = (x.toNat : Int) - xmax.toNat := by
  show (x.toUInt32 - xmax.toUInt32).toBitVec.toInt = _
  rw [BitVec.toInt_eq_toNat_bmod]
  simp only [UInt32.toNat_toBitVec, UInt32.toNat_sub, UInt64.toNat_toUInt32, Int.bmod_def]
  omega

/-- The sum before the clamp: `x` where it fits a signed 64-bit integer, and wrapped below zero
where it does not. -/
theorem widened_eq {xmax x : UInt64} (hmax : xmax.toNat < 2 ^ 63)
    (hlow : xmax.toNat ≤ x.toNat + 2 ^ 31) (hhigh : x.toNat < xmax.toNat + 2 ^ 31) :
    (xmax.toInt64 + (x.toUInt32 - xmax.toUInt32).toInt32.toInt64).toInt =
      if x.toNat < 2 ^ 63 then (x.toNat : Int) else x.toNat - 2 ^ 64 := by
  have hx : xmax.toInt64.toInt = xmax.toNat := by
    show xmax.toBitVec.toInt = _
    rw [BitVec.toInt_eq_toNat_bmod, UInt64.toNat_toBitVec, Int.bmod_def]
    omega
  rw [Int64.toInt_add, Int32.toInt_toInt64, distance_eq hlow hhigh, hx, Int.bmod_def]
  split <;> omega

theorem Visibility.widen_of_lt {v : Visibility} {x : UInt64} (hmax : v.xmax.toNat < 2 ^ 63)
    (hlow : v.xmax.toNat ≤ x.toNat + 2 ^ 31) (hhigh : x.toNat < v.xmax.toNat + 2 ^ 31)
    (hx : x.toNat < 2 ^ 63) : v.widen x.toUInt32 = x := by
  have hsum := widened_eq hmax hlow hhigh
  rw [if_pos hx] at hsum
  have hpos : ¬v.xmax.toInt64 + (x.toUInt32 - v.xmax.toUInt32).toInt32.toInt64 < 0 := by
    rw [Int64.lt_iff_toInt_lt, hsum]
    exact Int.not_lt.mpr (Int.natCast_nonneg _)
  unfold widen
  rw [if_neg hpos, ← UInt64.toNat_inj, Int64.toNat_toUInt64_of_le (Int64.not_lt.mp hpos)]
  show Int.toNat _ = _
  rw [hsum, Int.toNat_natCast]

/-- Past the signed range the sum wraps and the clamp takes over. -/
theorem Visibility.widen_of_le {v : Visibility} {x : UInt64} (hmax : v.xmax.toNat < 2 ^ 63)
    (hhigh : x.toNat < v.xmax.toNat + 2 ^ 31) (hx : 2 ^ 63 ≤ x.toNat) :
    v.widen x.toUInt32 = 0 := by
  have hsum := widened_eq hmax (by omega) hhigh
  rw [if_neg (by omega)] at hsum
  have hneg : v.xmax.toInt64 + (x.toUInt32 - v.xmax.toUInt32).toInt32.toInt64 < 0 := by
    rw [Int64.lt_iff_toInt_lt, hsum]
    have := x.toNat_lt
    show _ < (0 : Int)
    omega
  unfold widen
  rw [if_pos hneg]

/-- **Widening decides visibility exactly** for every streamed transaction whose ID fits a signed
64-bit integer, whatever the epoch, and for no other. -/
theorem Visibility.decides_iff_signed {v : Visibility} (hv : v.Bounded)
    (hmax : v.xmax.toNat < 2 ^ 63) {x : UInt64} (hlow : v.xmax.toNat ≤ x.toNat + 2 ^ 31)
    (hhigh : x.toNat < v.xmax.toNat + 2 ^ 31) :
    (v.widen x.toUInt32 = x ∧
      (v.includes x.toUInt32 = true ↔ x < v.xmax ∧ x ∉ v.inProgress)) ↔ x.toNat < 2 ^ 63 := by
  constructor
  · rintro ⟨hwide, -⟩
    by_contra hx
    rw [widen_of_le hmax hhigh (by omega)] at hwide
    subst hwide
    exact hx (by decide)
  · intro hx
    have hwide := widen_of_lt hmax hlow hhigh hx
    refine ⟨hwide, ?_⟩
    unfold includes
    simp only [hwide]
    split_ifs with hge hlt
    · simp [UInt64.not_lt.mpr hge]
    · -- below `xmin` nothing is still running
      have hnot : x ∉ v.inProgress := fun hmem => UInt64.not_lt.mpr (hv.within x hmem).1 hlt
      simp [UInt64.not_le.mp hge, hnot]
    · simp [UInt64.not_le.mp hge]

theorem Visibility.decides_across_epochs :
    let v : Visibility := ⟨4294967290, 4294967300, {4294967297}⟩
    let x : UInt64 := 4294967299
    v.widen x.toUInt32 = x ∧ (v.includes x.toUInt32 = true ↔ x < v.xmax ∧ x ∉ v.inProgress) :=
  (decides_iff_signed ⟨by decide, by simp⟩ (by decide) (by decide) (by decide)).mpr (by decide)

/-- The transaction right after the largest signed `xmax` is not visible, yet reported so. -/
theorem Visibility.includes_past_signed :
    let v : Visibility := ⟨9223372036854775807, 9223372036854775807, ∅⟩
    let x : UInt64 := 9223372036854775808
    v.Bounded ∧ v.xmax.toNat < 2 ^ 63 ∧ v.xmax.toNat ≤ x.toNat + 2 ^ 31 ∧
      x.toNat < v.xmax.toNat + 2 ^ 31 ∧ ¬x < v.xmax ∧
      v.widen x.toUInt32 ≠ x ∧ v.includes x.toUInt32 = true := by
  refine ⟨⟨by decide, by simp⟩, by decide, by decide, by decide, by decide, by decide, by decide⟩

end Watchd.Cdc
