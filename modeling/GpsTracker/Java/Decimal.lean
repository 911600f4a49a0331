import GpsTracker.Java.Dates
import GpsTracker.Java.Runtime
import Mathlib.Tactic.Ring

/-!
# Decimal texts

`Integer.parseInt` on texts of the digits `0` to `9`, and the text of an `int`. A
number that is not negative is read back from its text (`parseInt_intText`).
-/

namespace GpsTracker.Java

open GpsTracker.Digits

/-- A decimal digit. -/
def isDigit (u : UInt16) : Bool := decide (0x30 ≤ u.toNat ∧ u.toNat ≤ 0x39)

/-- The number that digits make, behind others. -/
def decimal (text : JString) : ℕ := text.foldl (fun n u => 10 * n + (u.toNat - 0x30)) 0

/-- `Integer.parseInt` of digits, or `NumberFormatException`. -/
def parseInt (text : JString) : Option JInt :=
  if text ≠ [] ∧ decimal text < 2 ^ 31 then some (BitVec.ofNat 32 (decimal text)) else none

/-- `i + ""`. -/
def intText (i : JInt) : JString :=
  if i.toInt < 0 then lit "-" ++ zeroPad 1 i.toInt.natAbs else zeroPad 1 i.toInt.natAbs

theorem toNat_decUnit {d : ℕ} (h : d < 10) : (decUnit d).toNat = 0x30 + d := by
  rw [decUnit, UInt16.toNat_ofNat']
  omega

theorem isDigit_zeroPad (w n : ℕ) : ∀ u ∈ zeroPad w n, isDigit u = true := by
  intro u hu
  obtain ⟨d, hd, rfl⟩ := List.mem_map.mp hu
  have hlt := lt_ten_of_mem_digits hd
  rw [isDigit, decide_eq_true_eq, toNat_decUnit hlt]
  omega

theorem foldl_digits (w n : ℕ) : ∀ m : ℕ,
    ((digits w n).map decUnit).foldl (fun n u => 10 * n + (u.toNat - 0x30)) m = m * 10 ^ w + n % 10 ^ w := by
  induction w with
  | zero =>
    intro m
    rw [Nat.pow_zero, Nat.mod_one, Nat.mul_one]
    rfl
  | succ w ih =>
    intro m
    have hlt : n / 10 ^ w % 10 < 10 := Nat.mod_lt _ (by decide)
    rw [digits, List.map_cons, List.foldl_cons, ih, toNat_decUnit hlt, Nat.add_sub_cancel_left,
      Nat.pow_succ, Nat.mod_mul]
    ring

theorem decimal_zeroPad (w n : ℕ) : decimal (zeroPad w n) = n := by
  have hlt : n < 10 ^ max w (Nat.log 10 n + 1) :=
    (Nat.lt_pow_succ_log_self (by decide) n).trans_le (Nat.pow_le_pow_right (by decide) (Nat.le_max_right _ _))
  rw [decimal, zeroPad, foldl_digits, Nat.zero_mul, Nat.zero_add, Nat.mod_eq_of_lt hlt]

theorem zeroPad_ne_nil (w n : ℕ) : zeroPad w n ≠ [] := by
  refine List.ne_nil_of_length_pos ?_
  rw [zeroPad, List.length_map, length_digits]
  omega

theorem toNat_of_parseInt {text : JString} {i : JInt} (h : parseInt text = some i) : i.toNat < 2 ^ 31 := by
  rw [parseInt] at h
  split_ifs at h with hlt
  obtain rfl := Option.some.inj h
  rw [BitVec.toNat_ofNat]
  omega

theorem intText_of_lt {i : JInt} (h : i.toNat < 2 ^ 31) : intText i = zeroPad 1 i.toNat := by
  have hint : i.toInt = i.toNat := BitVec.toInt_eq_toNat_of_lt (by omega)
  rw [intText, hint, if_neg (by omega), Int.natAbs_natCast]

/-- **A number that is not negative is read back.** -/
theorem parseInt_intText {i : JInt} (h : i.toNat < 2 ^ 31) : parseInt (intText i) = some i := by
  rw [intText_of_lt h, parseInt, decimal_zeroPad, if_pos ⟨zeroPad_ne_nil _ _, h⟩, BitVec.ofNat_toNat,
    BitVec.setWidth_eq]

end GpsTracker.Java
