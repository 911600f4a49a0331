import GpsTracker.Java.Runtime
import GpsTracker.Java.Text
import GpsTracker.Library.Crc

/-!
# The checksums of `Helper`

`CRC16` takes a byte at once with shifts and masks, without a table. It is the
CRC-16/CCITT (`CRC16_eq_crcMsb`): its step is linear, and on single bits it does
what the register does.

`CRC8` leaves its loop over the bytes at the first of them, by a `break` that was
to stay inside, and comes to a `for` loop without a condition. So it returns on
the empty array only (`CRC8_returns_iff`).

The two copies of `Helper`, on the device and on the server, are the same.
-/

namespace GpsTracker.Util

open GpsTracker.Java GpsTracker.Crc

/-! ### `CRC16` -/

/-- One turn of the loop of `CRC16`. -/
def crc16Turn (i2 : JInt) (b : Byte) : JInt :=
  let i3 := (0xFFFF &&& (i2 >>> 8 ||| i2 <<< 8)) ^^^ (0xFF &&& promote b)
  let i4 := i3 ^^^ (i3 &&& 0xFF).sshiftRight 4
  let i5 := i4 ^^^ (0xFFFF &&& i4 <<< 12)
  i5 ^^^ (0xFFFF &&& (i5 &&& 0xFF) <<< 5)

/-- The loop, with the bytes that are left. -/
def crc16Loop (i2 : JInt) : List Byte → JInt
  | [] => i2 &&& 0xFFFF
  | b :: rest => crc16Loop (crc16Turn i2 b) rest

/-- `CRC16`. -/
def CRC16 (paramArrayOfByte : List Byte) : JInt := crc16Loop 65535 paramArrayOfByte

/-- The last three lines of a turn. -/
def crc16Mix (i3 : JInt) : JInt :=
  let i4 := i3 ^^^ (i3 &&& 0xFF).sshiftRight 4
  let i5 := i4 ^^^ (0xFFFF &&& i4 <<< 12)
  i5 ^^^ (0xFFFF &&& (i5 &&& 0xFF) <<< 5)

theorem linear_crc16Mix : Linear crc16Mix := by
  have hlow : Linear fun x : JInt => x &&& 0xFF := by
    intro x y
    simp only [BitVec.and_comm _ 0xFF]
    exact linear_and 0xFF x y
  have h4 : Linear fun x : JInt => x ^^^ (x &&& 0xFF).sshiftRight 4 := Linear.id.xor ((linear_sshiftRight 4).comp hlow)
  have h5 : Linear fun x : JInt => x ^^^ ((0xFFFF : JInt) &&& x <<< 12) :=
    Linear.id.xor ((linear_and 0xFFFF).comp (linear_shiftLeft 12))
  have h2 : Linear fun x : JInt => x ^^^ ((0xFFFF : JInt) &&& (x &&& 0xFF) <<< 5) :=
    Linear.id.xor ((linear_and 0xFFFF).comp ((linear_shiftLeft 5).comp hlow))
  exact h2.comp (h5.comp h4)

/-- What goes into the mixing, by the register and the byte. -/
def crc16Input (r : BitVec 16) (b : BitVec 8) : JInt :=
  ((0xFFFF : JInt) &&& (r.setWidth 32 >>> 8 ^^^ r.setWidth 32 <<< 8)) ^^^ b.setWidth 32

/-- On a register of 16 bits the bytes are swapped without overlap. -/
theorem crc16Turn_setWidth (r : BitVec 16) (b : Byte) : crc16Turn (r.setWidth 32) b =
    crc16Mix (crc16Input r b.toBitVec) := by
  have hswap : (r.setWidth 32 >>> 8 ||| r.setWidth 32 <<< 8) = r.setWidth 32 >>> 8 ^^^ r.setWidth 32 <<< 8 := by
    ext i hi
    simp only [BitVec.getElem_or, BitVec.getElem_xor, BitVec.getElem_ushiftRight, BitVec.getElem_shiftLeft,
      BitVec.getLsbD_setWidth, BitVec.getElem_setWidth]
    by_cases h8 : i < 8
    · simp [h8]
    · simp [BitVec.getLsbD_of_ge r (8 + i) (by omega)]
  have hbyte : 0xFF &&& promote b = b.toBitVec.setWidth 32 := by
    have key : ∀ b : BitVec 8, 0xFF#32 &&& b.signExtend 32 = b.setWidth 32 := by decide
    exact key b.toBitVec
  rw [crc16Turn, hswap, hbyte]
  rfl

theorem jointlyLinear_crc16 : JointlyLinear fun r b => crc16Mix (crc16Input r b) := by
  have hleft : Linear fun r : BitVec 16 => (0xFFFF : JInt) &&& (r.setWidth 32 >>> 8 ^^^ r.setWidth 32 <<< 8) :=
    (linear_and 0xFFFF).comp (((linear_ushiftRight 8).xor (linear_shiftLeft 8)).comp linear_setWidth)
  intro r r' b b'
  have hsum : crc16Input (r ^^^ r') (b ^^^ b') = crc16Input r b ^^^ crc16Input r' b' := by
    have hr := hleft r r'
    have hb : (b ^^^ b').setWidth 32 = b.setWidth 32 ^^^ b'.setWidth 32 := linear_setWidth b b'
    simp only [crc16Input] at hr ⊢
    rw [hr, hb]
    ac_rfl
  simp only [hsum]
  exact linear_crc16Mix _ _

/-- A turn takes a byte as the register of the check does. -/
theorem crc16Turn_eq (r : BitVec 16) (b : Byte) :
    crc16Turn (r.setWidth 32) b = (feedByte 0x1021 r b.toBitVec).setWidth 32 := by
  have hfeed : JointlyLinear fun (r : BitVec 16) b => (feedByte 0x1021 r b).setWidth 32 := by
    intro r r' b b'
    simp only [feedByte_xor]
    exact linear_setWidth _ _
  rw [crc16Turn_setWidth]
  exact jointlyLinear_crc16.ext hfeed (by decide) (by decide) r b.toBitVec

theorem crc16Loop_eq (bytes : List Byte) : ∀ r : BitVec 16,
    crc16Loop (r.setWidth 32) bytes = ((bytes.map UInt8.toBitVec).foldl (feedByte 0x1021) r).setWidth 32 := by
  induction bytes with
  | nil =>
    intro r
    have hmask : Linear fun r : BitVec 16 => r.setWidth 32 &&& 0xFFFF := by
      intro x y
      simp only [BitVec.and_comm _ 0xFFFF]
      exact (linear_and 0xFFFF).comp linear_setWidth x y
    exact hmask.ext linear_setWidth (by decide) r
  | cons b bytes ih =>
    intro r
    rw [crc16Loop, crc16Turn_eq, ih]
    rfl

/-- **`CRC16` is the CRC-16/CCITT**, and a number of 16 bits. -/
theorem CRC16_eq_crcMsb (paramArrayOfByte : List Byte) :
    CRC16 paramArrayOfByte = (crcMsb 0x1021#16 0xFFFF#16 (paramArrayOfByte.map UInt8.toBitVec)).setWidth 32 ∧
      0 ≤ (CRC16 paramArrayOfByte).toInt ∧ (CRC16 paramArrayOfByte).toInt ≤ 65535 := by
  have heq : CRC16 paramArrayOfByte =
      (crcMsb 0x1021#16 0xFFFF#16 (paramArrayOfByte.map UInt8.toBitVec)).setWidth 32 := by
    rw [crcMsb_eq_foldl]
    exact crc16Loop_eq paramArrayOfByte 0xFFFF#16
  have hvalue : (CRC16 paramArrayOfByte).toNat < 65536 := by
    rw [heq, BitVec.toNat_setWidth]
    omega
  have hint : (CRC16 paramArrayOfByte).toInt = (CRC16 paramArrayOfByte).toNat :=
    BitVec.toInt_eq_toNat_of_lt (by omega)
  exact ⟨heq, by omega, by omega⟩

example : CRC16 [0x31, 0x32, 0x33, 0x34, 0x35, 0x36, 0x37, 0x38, 0x39] = 0x29B1 := by decide

/-! ### `CRC8` -/

/-- The `for` loop at the end, which has no condition. -/
def crc8For : ℕ → JInt → JInt → Option JInt
  | 0, _, _ => none
  | fuel + 1, i2, i3 =>
    let i3 := i3 + 1
    crc8For fuel (0xFF &&& i2.sshiftRight 1) i3

/-- The `while` loop from the byte at `i1` on. -/
def crc8While : ℕ → List Byte → JInt → Option JInt
  | 0, _, _ => none
  | _ + 1, [], i2 => some i2
  | fuel + 1, b :: rest, i2 =>
    let i2 := i2 ^^^ (0xFF &&& promote b)
    let i3 : JInt := 0
    if i3.slt 8 then
      -- the `break` leaves the `while` loop, and the `if` after it does nothing
      crc8For fuel (0x8C ^^^ (0xFF &&& i2.sshiftRight 1)) i3
    else crc8While fuel rest i2

/-- `CRC8`, when it returns within so many turns of its loops. -/
def CRC8 (fuel : ℕ) (paramArrayOfByte : List Byte) : Option JInt := crc8While fuel paramArrayOfByte 0

/-- `CRC8` returns the reflected CRC-8 of the array. -/
def ReturnsCrc8 (paramArrayOfByte : List Byte) : Prop :=
  ∃ fuel, CRC8 fuel paramArrayOfByte =
    some ((crcLsb 0x8C#8 0#8 (paramArrayOfByte.map UInt8.toBitVec)).setWidth 32)

theorem crc8For_eq_none (fuel : ℕ) : ∀ i2 i3, crc8For fuel i2 i3 = none := by
  induction fuel with
  | zero => exact fun _ _ => rfl
  | succ fuel ih => exact fun i2 i3 => ih _ _

/-- The first byte is the end of it. -/
theorem CRC8_cons (fuel : ℕ) (b : Byte) (rest : List Byte) : CRC8 fuel (b :: rest) = none := by
  cases fuel with
  | zero => rfl
  | succ fuel => exact crc8For_eq_none fuel _ _

/-- **`CRC8` returns on the empty array only.** -/
theorem CRC8_returns_iff (paramArrayOfByte : List Byte) :
    ReturnsCrc8 paramArrayOfByte ↔ paramArrayOfByte = [] := by
  constructor
  · rintro ⟨fuel, h⟩
    cases paramArrayOfByte with
    | nil => rfl
    | cons b rest =>
      rw [CRC8_cons] at h
      cases h
  · rintro rfl
    exact ⟨1, rfl⟩

/-- On one zero byte it does not return. -/
theorem not_CRC8_returns_zero : ¬ ∀ paramArrayOfByte, ReturnsCrc8 paramArrayOfByte := by
  intro h
  obtain ⟨fuel, hreturn⟩ := h [0x00]
  rw [CRC8_cons] at hreturn
  cases hreturn

end GpsTracker.Util
