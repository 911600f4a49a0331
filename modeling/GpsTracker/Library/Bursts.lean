import GpsTracker.Library.Crc
import Mathlib.Logic.Function.Iterate

/-!
# The errors that a check detects

A bit that comes in counts as one in the top place of a register that then shifts
(`feedMsb_eq`). So bits that come in one after the other, and are no more than the
register has, count as that many places from the top down before all of the shifts
(`foldl_feedMsb_eq`).

Where the polynomial has its lowest bit, a shift loses nothing (`shift_injective`).
Then the same bits leave different registers different, different bits leave one
register different (`foldl_feedMsb_burst`), and a register is cleared by its own bits
only (`foldl_feedMsb_eq_zero_iff`). A sum of bits that the shift keeps counts the bits
that came in (`foldl_feedMsb_sum`).
-/

namespace GpsTracker.Crc

variable {w : ℕ} {poly : BitVec w}

/-! ### Shifts -/

variable (poly) in
/-- The register without a bit that comes in. -/
def shift (x : BitVec w) : BitVec w := feedMsb poly x false

theorem linear_shift : Linear (shift poly) := fun x y => feedMsb_xor poly x y false false

/-- The bit in the top place. -/
def top (bit : Bool) : BitVec w := if bit then BitVec.twoPow w (w - 1) else 0

theorem getMsbD_top (bit : Bool) {i : ℕ} (hi : i < w) :
    (top bit : BitVec w).getMsbD i = (decide (i = 0) && bit) := by
  cases bit with
  | false => simp [top]
  | true =>
    rw [top, if_pos rfl, BitVec.getMsbD_eq_getLsbD, BitVec.getLsbD_twoPow]
    grind

theorem feedMsb_eq (hw : 0 < w) (r : BitVec w) (bit : Bool) :
    feedMsb poly r bit = shift poly (r ^^^ top bit) := by
  have hmsb : (r ^^^ top bit).msb = (r.msb ^^ bit) := by
    rw [BitVec.msb_xor, BitVec.msb_eq_getMsbD_zero (top bit), getMsbD_top bit hw]
    simp
  have hshift : (r ^^^ top bit) <<< 1 = r <<< 1 := by
    refine BitVec.eq_of_getMsbD_eq fun i _ => ?_
    rw [BitVec.getMsbD_shiftLeft, BitVec.getMsbD_shiftLeft, BitVec.getMsbD_xor]
    by_cases hi : i + 1 < w
    · rw [getMsbD_top bit hi]
      simp
    · simp [BitVec.getMsbD_of_ge _ _ (Nat.not_lt.mp hi)]
  rw [shift, feedMsb, feedMsb, hmsb, hshift, Bool.xor_false]

/-- **A shift loses nothing.** -/
theorem shift_injective (hpoly : poly.getLsbD 0 = true) : Function.Injective (shift poly) := by
  intro x y h
  have hw : 0 < w := BitVec.lt_of_getLsbD hpoly
  have hzero : shift poly (x ^^^ y) = 0 := by
    rw [linear_shift, h, BitVec.xor_self]
    rfl
  generalize hz : x ^^^ y = z at hzero
  rw [shift, feedMsb, Bool.xor_false] at hzero
  have hlow : (z <<< 1).getLsbD 0 = false := by simp
  split_ifs at hzero with hmsb
  · -- the lowest bit is the polynomial's
    have hbit := congrArg (BitVec.getLsbD · 0) hzero
    simp only [BitVec.getLsbD_xor, hlow, hpoly] at hbit
    simp at hbit
  · have hz0 : z = 0 := by
      refine BitVec.eq_of_getMsbD_eq fun i hi => ?_
      cases i with
      | zero =>
        rw [← BitVec.msb_eq_getMsbD_zero]
        simpa using hmsb
      | succ i =>
        have hbit := congrArg (BitVec.getMsbD · i) hzero
        simpa using hbit
    rwa [hz0, BitVec.ofNat_eq_ofNat, BitVec.xor_eq_zero_iff] at hz

/-! ### Bits in their places -/

/-- Bits from the top place down. -/
def place : List Bool → BitVec w
  | [] => 0
  | bit :: bits => top bit ^^^ (place bits >>> 1)

theorem getMsbD_place (bits : List Bool) :
    ∀ {i : ℕ}, i < w → (place bits : BitVec w).getMsbD i = bits.getD i false := by
  induction bits with
  | nil => simp [place]
  | cons bit bits ih =>
    intro i hi
    rw [place, BitVec.getMsbD_xor, getMsbD_top bit hi, BitVec.getMsbD_ushiftRight]
    cases i with
    | zero => simp [hi]
    | succ i => simp [hi, ih (Nat.lt_of_succ_lt hi)]

/-- Where the lowest place is free, the bits were shifted there. -/
theorem shift_place {bits : List Bool} (h : bits.length < w) : shift poly (place bits >>> 1) = place bits := by
  have hmsb : (place bits >>> 1 : BitVec w).msb = false := by
    rw [BitVec.msb_eq_getMsbD_zero, BitVec.getMsbD_ushiftRight]
    simp
  rw [shift, feedMsb, hmsb, if_neg (by simp)]
  refine BitVec.eq_of_getMsbD_eq fun i hi => ?_
  rw [BitVec.getMsbD_shiftLeft, BitVec.getMsbD_ushiftRight]
  by_cases hlast : i + 1 < w
  · simp [hlast]
  · rw [getMsbD_place bits hi, List.getD_eq_getElem?_getD, List.getElem?_eq_none (by omega)]
    simp [hlast]

/-- **Bits that come in count in their places, before the shifts.** -/
theorem foldl_feedMsb_eq (bits : List Bool) : ∀ r : BitVec w, bits.length ≤ w →
    bits.foldl (feedMsb poly) r = (shift poly)^[bits.length] (r ^^^ place bits) := by
  induction bits with
  | nil => simp [place]
  | cons bit bits ih =>
    intro r h
    rw [List.length_cons] at h
    have hplace : shift poly (place bits >>> 1) = place bits := shift_place (by omega)
    calc (bit :: bits).foldl (feedMsb poly) r
        = (shift poly)^[bits.length] (shift poly (r ^^^ top bit) ^^^ place bits) := by
          rw [List.foldl_cons, ih _ (by omega), feedMsb_eq (by omega)]
      _ = (shift poly)^[bits.length] (shift poly (r ^^^ place (bit :: bits))) := by
          rw [← hplace, ← linear_shift, place, BitVec.xor_assoc]
      _ = (shift poly)^[(bit :: bits).length] (r ^^^ place (bit :: bits)) := rfl

/-! ### Detection -/

section Odd

variable (hpoly : poly.getLsbD 0 = true)

include hpoly

theorem foldl_feedMsb_injective (bits : List Bool) :
    Function.Injective fun r => bits.foldl (feedMsb poly) r := by
  induction bits with
  | nil => exact fun _ _ h => h
  | cons bit bits ih =>
    intro r r' h
    have hfeed : feedMsb poly r bit = feedMsb poly r' bit := ih h
    rw [feedMsb_eq (BitVec.lt_of_getLsbD hpoly), feedMsb_eq (BitVec.lt_of_getLsbD hpoly)] at hfeed
    exact (BitVec.xor_left_inj _).mp (shift_injective hpoly hfeed)

/-- **Messages that differ within as many bits as the register has are told apart.** -/
theorem foldl_feedMsb_burst (r : BitVec w) (before after : List Bool) {burst burst' : List Bool}
    (hlen : burst.length = burst'.length) (hle : burst.length ≤ w) :
    (before ++ burst ++ after).foldl (feedMsb poly) r = (before ++ burst' ++ after).foldl (feedMsb poly) r ↔
      burst = burst' := by
  constructor
  · intro h
    simp only [List.foldl_append] at h
    have hburst := foldl_feedMsb_injective hpoly after h
    rw [foldl_feedMsb_eq burst _ hle, foldl_feedMsb_eq burst' _ (by omega), ← hlen] at hburst
    have hplace := (BitVec.xor_right_inj _).mp ((shift_injective hpoly).iterate _ hburst)
    refine List.ext_getElem hlen fun i hi hi' => ?_
    have hbit := congrArg (BitVec.getMsbD · i) hplace
    simpa [getMsbD_place _ (by omega : i < w), hi, hi'] using hbit
  · rintro rfl
    rfl

/-- **A register is cleared by its own bits.** -/
theorem foldl_feedMsb_eq_zero_iff {bits : List Bool} (hlen : bits.length = w) (r : BitVec w) :
    bits.foldl (feedMsb poly) r = 0 ↔ r = place bits := by
  have hzero : ∀ n, (shift poly)^[n] 0 = 0 := fun n => Function.iterate_fixed linear_shift.map_zero n
  rw [foldl_feedMsb_eq bits r (Nat.le_of_eq hlen), ← hzero bits.length,
    ((shift_injective hpoly).iterate _).eq_iff, BitVec.ofNat_eq_ofNat, BitVec.xor_eq_zero_iff]

end Odd

/-- **A sum that the shift keeps counts the bits that came in.** -/
theorem foldl_feedMsb_sum (hw : 0 < w) {sum : BitVec w → BitVec 1} (hsum : Linear sum)
    (hshift : ∀ x, sum (shift poly x) = sum x) (htop : sum (top true) = 1) (bits : List Bool) : ∀ r : BitVec w,
    sum (bits.foldl (feedMsb poly) r) = sum r ^^^ BitVec.ofNat 1 (bits.count true) := by
  induction bits with
  | nil => simp
  | cons bit bits ih =>
    intro r
    rw [List.foldl_cons, ih, feedMsb_eq hw, hshift, hsum]
    cases bit with
    | false =>
      have hzero : sum (top false) = 0 := hsum.map_zero
      simp [hzero]
    | true =>
      have hsucc : ∀ n, (1 : BitVec 1) ^^^ BitVec.ofNat 1 n = BitVec.ofNat 1 (n + 1) := by
        intro n
        rw [BitVec.ofNat_add]
        generalize BitVec.ofNat 1 n = x
        revert x
        decide
      rw [htop, BitVec.xor_assoc, hsucc, List.count_cons_self]

end GpsTracker.Crc
