import GpsTracker.Library.Bursts
import GpsTracker.Util.Checksums
import Mathlib.Data.List.GetD

/-!
# What `CRC16` detects

The check is there to be sent behind the array, and compared or run over at the other
end. Run over the array and the two bytes behind it, it is zero exactly when these
bytes are the check, the high one first (`CRC16_residue_iff`). Two arrays that differ
within sixteen bits, wherever these begin, have different checks (`CRC16_burst_iff`),
and so have two arrays where the numbers of ones are not both even or both odd
(`CRC16_ne_of_odd`): the polynomial has an even number of terms.
-/

namespace GpsTracker.Util

open GpsTracker.Java GpsTracker.Crc

/-- The bits of an array, the most significant of a byte first. -/
def bits (paramArrayOfByte : List Byte) : List Bool := (paramArrayOfByte.map UInt8.toBitVec).flatMap bitsMsb

/-- The register when the array has gone in. -/
def register (paramArrayOfByte : List Byte) : BitVec 16 := (bits paramArrayOfByte).foldl (feedMsb 0x1021) 0xFFFF

theorem poly_odd : (0x1021 : BitVec 16).getLsbD 0 = true := by decide

theorem CRC16_eq_register (paramArrayOfByte : List Byte) :
    CRC16 paramArrayOfByte = (register paramArrayOfByte).setWidth 32 := by
  have hloop := crc16Loop_eq paramArrayOfByte 0xFFFF
  rwa [← crcMsb_eq_foldl] at hloop

theorem toNat_CRC16 (paramArrayOfByte : List Byte) :
    (CRC16 paramArrayOfByte).toNat = (register paramArrayOfByte).toNat := by
  rw [CRC16_eq_register, BitVec.toNat_setWidth]
  omega

theorem CRC16_eq_iff (a b : List Byte) : CRC16 a = CRC16 b ↔ register a = register b := by
  rw [← BitVec.toNat_inj, toNat_CRC16, toNat_CRC16, BitVec.toNat_inj]

theorem bits_append (a b : List Byte) : bits (a ++ b) = bits a ++ bits b := by
  rw [bits, List.map_append, List.flatMap_append]
  rfl

theorem getD_bitsMsb (b : BitVec 8) (i : ℕ) : (bitsMsb b).getD i false = b.getMsbD i := by
  rw [BitVec.getMsbD_eq_getLsbD, bitsMsb, bitsLsb, List.getD_eq_getElem?_getD]
  by_cases hi : i < 8 <;> simp [hi]

/-- The bits of two bytes in their places. -/
theorem place_pair (hi lo : Byte) : (place (bits [hi, lo]) : BitVec 16) = hi.toBitVec ++ lo.toBitVec := by
  refine BitVec.eq_of_getMsbD_eq fun i h => ?_
  have hbits : bits [hi, lo] = bitsMsb hi.toBitVec ++ bitsMsb lo.toBitVec := by simp [bits]
  rw [getMsbD_place _ h, BitVec.getMsbD_append, hbits]
  split_ifs with hi8
  · rw [List.getD_append_right _ _ _ _ hi8, getD_bitsMsb]
    rfl
  · rw [List.getD_append _ _ _ _ (Nat.not_le.mp hi8), getD_bitsMsb]

/-- **The check of an array with two bytes behind it is zero when they are the check of the array.** -/
theorem CRC16_residue_iff (paramArrayOfByte : List Byte) (hi lo : Byte) :
    CRC16 (paramArrayOfByte ++ [hi, lo]) = 0 ↔ (CRC16 paramArrayOfByte).toNat = 256 * hi.toNat + lo.toNat := by
  have hpair : (hi.toBitVec ++ lo.toBitVec).toNat = 256 * hi.toNat + lo.toNat := by
    rw [BitVec.toNat_append, ← Nat.shiftLeft_add_eq_or_of_lt lo.toBitVec.isLt, Nat.shiftLeft_eq]
    exact congrArg (· + lo.toNat) (Nat.mul_comm _ _)
  have hzero : register (paramArrayOfByte ++ [hi, lo]) = 0 ↔ register paramArrayOfByte = hi.toBitVec ++ lo.toBitVec := by
    rw [register, bits_append, List.foldl_append, ← place_pair]
    exact foldl_feedMsb_eq_zero_iff poly_odd rfl _
  rw [toNat_CRC16, ← hpair, BitVec.toNat_inj, ← hzero, ← BitVec.toNat_inj, toNat_CRC16, ← BitVec.toNat_inj]
  rfl

/-- **Arrays that differ within sixteen bits have different checks.** -/
theorem CRC16_burst_iff {a b : List Byte} {before burst burst' after : List Bool}
    (ha : bits a = before ++ burst ++ after) (hb : bits b = before ++ burst' ++ after)
    (hlen : burst.length = burst'.length) (hle : burst.length ≤ 16) :
    CRC16 a = CRC16 b ↔ burst = burst' := by
  rw [CRC16_eq_iff, register, register, ha, hb]
  exact foldl_feedMsb_burst poly_odd _ before after hlen hle

/-- Eight bits that lie in two bytes. -/
theorem CRC16_burst_two_bytes : CRC16 [0x31, 0x0F, 0xF0, 0x32] ≠ CRC16 [0x31, 0x0A, 0x50, 0x32] := by
  have ha : bits [0x31, 0x0F, 0xF0, 0x32] = bits [0x31] ++ [false, false, false, false] ++
      [true, true, true, true, true, true, true, true] ++ ([false, false, false, false] ++ bits [0x32]) := by decide
  have hb : bits [0x31, 0x0A, 0x50, 0x32] = bits [0x31] ++ [false, false, false, false] ++
      [true, false, true, false, false, true, false, true] ++ ([false, false, false, false] ++ bits [0x32]) := by decide
  rw [Ne, CRC16_burst_iff ha hb rfl (by decide)]
  decide

/-- The sum of the bits of a register. -/
def bitSum (x : BitVec 16) : BitVec 1 :=
  let x := x ^^^ x >>> 8
  let x := x ^^^ x >>> 4
  let x := x ^^^ x >>> 2
  let x := x ^^^ x >>> 1
  x.setWidth 1

theorem linear_bitSum : Linear bitSum := by
  have hfold (n : ℕ) : Linear fun x : BitVec 16 => x ^^^ x >>> n := Linear.id.xor (linear_ushiftRight n)
  exact linear_setWidth.comp ((hfold 1).comp ((hfold 2).comp ((hfold 4).comp (hfold 8))))

/-- **Arrays with an odd and an even number of ones have different checks.** -/
theorem CRC16_ne_of_odd {a b : List Byte} (h : (bits a).count true % 2 ≠ (bits b).count true % 2) :
    CRC16 a ≠ CRC16 b := by
  have hshift : ∀ x, bitSum (shift 0x1021 x) = bitSum x :=
    (linear_bitSum.comp linear_shift).ext linear_bitSum (by decide)
  have hsum (c : List Byte) : bitSum (register c) = BitVec.ofNat 1 ((bits c).count true) := by
    rw [register, foldl_feedMsb_sum (by decide) linear_bitSum hshift (by decide)]
    exact BitVec.zero_xor
  rw [Ne, CRC16_eq_iff]
  intro heq
  have hcount := congrArg BitVec.toNat ((hsum a).symm.trans ((congrArg bitSum heq).trans (hsum b)))
  rw [BitVec.toNat_ofNat, BitVec.toNat_ofNat] at hcount
  exact h hcount

theorem CRC16_ne_of_odd_flipped : CRC16 [0x31, 0x01] ≠ CRC16 [0x31, 0x00] := CRC16_ne_of_odd (by decide)

end GpsTracker.Util
