import GpsTracker.Library.Ring
import Mathlib.Data.BitVec

/-!
# The cipher of the app

The app has a cipher of the same name as the device's, and another one: words of 32
bits, a shift to the right that fills with zeros, a key of sixteen bytes, and the
number of bytes in a word of its own behind the data. `encrypt` and `decrypt` work on
arrays of bytes; the strings and the Base64 of the other methods are Foundation's.

The mixing loops are translated with the variables they carry, and are the turns of a
ring (`uintEncrypt_eq`, `uintDecrypt_eq`). Sizes are `size_t` of 64 bits, and the
block functions keep the index of the last word in 32 bits (`lastIndex`); where that
index is zero because of the wrap, `n + 1` is the divisor zero and nothing is said.
-/

namespace GpsTracker.Ios.XXTEA

/-- `uint32_t`. -/
abbrev Word := BitVec 32

/-- `DELTA`. -/
def delta : Word := 0x9e3779b9#32

/-! ### Bytes and words -/

/-- The word at four bytes of memory. -/
def word (b0 b1 b2 b3 : UInt8) : Word := b3.toBitVec ++ b2.toBitVec ++ b1.toBitVec ++ b0.toBitVec

/-- The array of words that `calloc` makes and `memcpy` fills with the bytes. -/
def words : List UInt8 → List Word
  | [] => []
  | [b0] => [word b0 0 0 0]
  | [b0, b1] => [word b0 b1 0 0]
  | [b0, b1, b2] => [word b0 b1 b2 0]
  | b0 :: b1 :: b2 :: b3 :: bytes => word b0 b1 b2 b3 :: words bytes

theorem length_words (data : List UInt8) : (words data).length = (data.length + 3) / 4 := by
  fun_induction words data with
  | case1 => rfl
  | case2 => simp
  | case3 => simp
  | case4 => simp
  | case5 b0 b1 b2 b3 data ih =>
    rw [List.length_cons, ih, List.length_cons, List.length_cons, List.length_cons, List.length_cons]
    omega

/-- The byte of a word at an offset. -/
def byte (w : Word) (i : ℕ) : UInt8 := UInt8.ofBitVec ((w >>> (8 * i)).setWidth 8)

/-- The bytes of an array of words. -/
def bytes (data : List Word) : List UInt8 := data.flatMap fun w => [byte w 0, byte w 1, byte w 2, byte w 3]

/-- `xxtea_to_uint_array`. -/
def toUIntArray (data : List UInt8) (incLen : Bool) : List Word :=
  if incLen then words data ++ [BitVec.ofNat 32 data.length] else words data

/-- The loop of `xxtea_to_uint_array` where the words are not in the order of the bytes, from `i` on. -/
def orBytes : List UInt8 → ℕ → List Word → List Word
  | [], _, out => out
  | b :: data, i, out =>
    orBytes data (i + 1) (out.set (i >>> 2) (out.getD (i >>> 2) 0 ||| (b.toBitVec.setWidth 32 <<< ((i &&& 3) <<< 3))))

/-- The length of the array: the bytes in words, the last one begun. -/
def wordCount (len : ℕ) : ℕ := if len &&& 3 = 0 then len >>> 2 else (len >>> 2) + 1

/-- `xxtea_to_uint_array` there. -/
def toUIntArrayPortable (data : List UInt8) (incLen : Bool) : List Word :=
  let n := wordCount data.length
  if incLen then orBytes data 0 (List.replicate n 0 ++ [BitVec.ofNat 32 data.length])
  else orBytes data 0 (List.replicate n 0)

/-- The difference of two `size_t`. -/
def sizeSub (a b : ℕ) : ℕ := (a + (2 ^ 64 - b)) % 2 ^ 64

/-- The size that `xxtea_to_ubyte_array` returns, unless it is `NULL`. -/
def byteCount (data : List Word) (incLen : Bool) : Option ℕ :=
  let n := data.length <<< 2
  if incLen then
    let m := (data.getD (data.length - 1) 0).toNat
    let n := sizeSub n 4
    if m < sizeSub n 3 ∨ n < m then none else some m
  else some n

/-- `xxtea_to_ubyte_array`. -/
def toUByteArray (data : List Word) (incLen : Bool) : Option (List UInt8) :=
  (byteCount data incLen).map fun n => (bytes data).take n

/-- `xxtea_to_ubyte_array` where the words are not in the order of the bytes. -/
def toUByteArrayPortable (data : List Word) (incLen : Bool) : Option (List UInt8) :=
  (byteCount data incLen).map fun n =>
    (List.range n).map fun i => UInt8.ofBitVec ((data.getD (i >>> 2) 0 >>> ((i &&& 3) <<< 3)).setWidth 8)

/-! ### The block functions -/

/-- The four words of the key. -/
abbrev KeyArray := Vector Word 4

/-- `(p & 3) ^ e`, with `e = sum >> 2 & 3`. -/
def keyIndex (p : ℕ) (sum : Word) : Fin 4 where
  val := ((BitVec.ofNat 32 p &&& 3#32) ^^^ ((sum >>> 2) &&& 3#32)).toNat
  isLt := by
    rw [BitVec.toNat_xor, BitVec.toNat_and, BitVec.toNat_and]
    have h3 : (3#32 : Word).toNat < 2 ^ 2 := by decide
    exact Nat.xor_lt_two_pow (Nat.and_lt_two_pow _ h3) (Nat.and_lt_two_pow _ h3)

/-- `MX`. -/
def mx (key : KeyArray) (sum : Word) (p : ℕ) (z y : Word) : Word :=
  (((z >>> 5) ^^^ (y <<< 2)) + ((y >>> 3) ^^^ (z <<< 4))) ^^^ ((sum ^^^ y) + (key[keyIndex p sum] ^^^ z))

/-- `n`, the index of the last word. -/
def lastIndex (len : ℕ) : ℕ := (BitVec.ofNat 32 len - 1#32).toNat

/-- The `for` loop of `xxtea_uint_encrypt` from `p` on, with `m` words to go. -/
def encryptFor (key : KeyArray) (sum : Word) : ℕ → ℕ → List Word → Word → List Word × Word
  | 0, _, data, z => (data, z)
  | m + 1, p, data, z =>
    let y := data.getD (p + 1) 0
    let z := data.getD p 0 + mx key sum p z y
    encryptFor key sum m (p + 1) (data.set p z) z

/-- The loop `while (0 < q--)`. -/
def encryptWhile (key : KeyArray) (n : ℕ) : ℕ → Word → List Word → Word → List Word
  | 0, _, data, _ => data
  | q + 1, sum, data, z =>
    let sum := sum + delta
    let (data, z) := encryptFor key sum n 0 data z
    let y := data.getD 0 0
    let z := data.getD n 0 + mx key sum n z y
    encryptWhile key n q sum (data.set n z) z

/-- `q`, the number of rounds. -/
def roundCount (n : ℕ) : ℕ := 6 + 52 / (n + 1)

/-- `xxtea_uint_encrypt`. -/
def uintEncrypt (data : List Word) (key : KeyArray) : List Word :=
  let n := lastIndex data.length
  if n < 1 then data else encryptWhile key n (roundCount n) 0 data (data.getD n 0)

/-- The `for` loop of `xxtea_uint_decrypt` from `p` down to `1`. -/
def decryptFor (key : KeyArray) (sum : Word) : ℕ → List Word → Word → List Word × Word
  | 0, data, y => (data, y)
  | p + 1, data, y =>
    let z := data.getD p 0
    let y := data.getD (p + 1) 0 - mx key sum (p + 1) z y
    decryptFor key sum p (data.set (p + 1) y) y

/-- The inverse of `delta` modulo `2 ^ 32`. -/
def deltaInv : Word := 0x144cbc89#32

theorem delta_mul_deltaInv : delta * deltaInv = 1 := by decide

/-- How many rounds are left at `sum`. -/
def roundsLeft (sum : Word) : ℕ := (sum * deltaInv).toNat

theorem roundsLeft_sub_delta {sum : Word} (h : sum ≠ 0) : roundsLeft (sum - delta) + 1 = roundsLeft sum := by
  have hne : sum * deltaInv ≠ 0 := by
    intro h0
    apply h
    calc sum = sum * (delta * deltaInv) := by rw [delta_mul_deltaInv, mul_one]
      _ = sum * deltaInv * delta := by rw [mul_comm delta, mul_assoc]
      _ = 0 := by rw [h0, zero_mul]
  have hsub : (sum - delta) * deltaInv = sum * deltaInv - 1 := by rw [sub_mul, delta_mul_deltaInv]
  have hpos : (sum * deltaInv).toNat ≠ 0 := fun h0 => hne (BitVec.eq_of_toNat_eq h0)
  rw [roundsLeft, roundsLeft, hsub]
  generalize sum * deltaInv = x at hpos ⊢
  rw [BitVec.toNat_sub]
  have := x.isLt
  have h1 : (1 : Word).toNat = 1 := rfl
  omega

/-- The loop `while (sum != 0)`. It ends from every `sum`, since `delta` is odd. -/
def decryptWhile (key : KeyArray) (n : ℕ) (sum : Word) (data : List Word) (y : Word) : List Word :=
  if sum = 0 then data
  else
    let (data, y) := decryptFor key sum n data y
    let z := data.getD n 0
    let y := data.getD 0 0 - mx key sum 0 z y
    decryptWhile key n (sum - delta) (data.set 0 y) y
termination_by roundsLeft sum
decreasing_by have := roundsLeft_sub_delta ‹_›; omega

/-- `xxtea_uint_decrypt`. -/
def uintDecrypt (data : List Word) (key : KeyArray) : List Word :=
  let n := lastIndex data.length
  if n < 1 then data else decryptWhile key n (BitVec.ofNat 32 (roundCount n) * delta) data (data.getD 0 0)

/-! ### Data and keys -/

/-- `FIXED_KEY`: sixteen bytes. -/
def fixedKey (key : List UInt8) : List UInt8 :=
  if key.length < 16 then key ++ List.replicate (16 - key.length) 0 else key.take 16

theorem length_fixedKey (key : List UInt8) : (fixedKey key).length = 16 := by
  rw [fixedKey]
  split_ifs with h
  · rw [List.length_append, List.length_replicate]
    omega
  · rw [List.length_take]
    omega

/-- `key_array`. -/
def keyArray (key : List UInt8) : KeyArray where
  toArray := (toUIntArray (fixedKey key) false).toArray
  size_toArray := by
    rw [List.size_toArray, toUIntArray, if_neg Bool.false_ne_true, length_words, length_fixedKey]

/-- `xxtea_ubyte_encrypt`. -/
def ubyteEncrypt (data : List UInt8) (key : KeyArray) : Option (List UInt8) :=
  if data.length = 0 then none else toUByteArray (uintEncrypt (toUIntArray data true) key) false

/-- `xxtea_ubyte_decrypt`. -/
def ubyteDecrypt (data : List UInt8) (key : KeyArray) : Option (List UInt8) :=
  if data.length = 0 then none else toUByteArray (uintDecrypt (toUIntArray data false) key) true

/-- `encrypt:key:`; `none` is an `NSData` without bytes, of a length that was never set. -/
def encrypt (data key : List UInt8) : Option (List UInt8) := ubyteEncrypt data (keyArray key)

/-- `decrypt:key:`; `none` is `nil`. -/
def decrypt (data key : List UInt8) : Option (List UInt8) := ubyteDecrypt data (keyArray key)

/-! ### The block functions are turns of a ring -/

theorem encryptFor_eq (key : KeyArray) (sum : Word) (m : ℕ) : ∀ (p : ℕ) (data : List Word) (z : Word),
    encryptFor key sum m p data z = Ring.up (mx key sum) m p data z := by
  induction m with
  | zero => exact fun _ _ _ => rfl
  | succ m ih => exact fun p data z => ih (p + 1) _ _

theorem decryptFor_eq (key : KeyArray) (sum : Word) (p : ℕ) : ∀ (data : List Word) (y : Word),
    decryptFor key sum p data y = Ring.down (mx key sum) p data y := by
  induction p with
  | zero => exact fun _ _ => rfl
  | succ p ih => exact fun data y => ih _ _

/-- The amounts of the first `q` rounds. -/
def schedule (key : KeyArray) (q : ℕ) : List (Ring.Amounts Word) :=
  (List.range q).map fun j => mx key (BitVec.ofNat 32 (j + 1) * delta)

theorem ofNat_succ_mul_delta (q : ℕ) : BitVec.ofNat 32 (q + 1) * delta = BitVec.ofNat 32 q * delta + delta := by
  rw [BitVec.ofNat_add, add_mul, show BitVec.ofNat 32 1 = 1 from rfl, one_mul]

/-- The loop makes a turn for each round. -/
theorem encryptWhile_eq (key : KeyArray) (n q : ℕ) : ∀ (j : ℕ) (data : List Word) (z : Word),
    data.length = n + 1 → encryptWhile key n q (BitVec.ofNat 32 j * delta) data z =
      Ring.turns ((List.range' j q).map fun j => mx key (BitVec.ofNat 32 (j + 1) * delta)) data z := by
  induction q with
  | zero => exact fun _ _ _ _ => rfl
  | succ q ih =>
    intro j data z hlen
    rw [encryptWhile, List.range'_succ, List.map_cons, Ring.turns, Ring.turn, hlen,
      Nat.add_sub_cancel, ← encryptFor_eq]
    simp only [← ofNat_succ_mul_delta]
    refine ih (j + 1) _ _ ?_
    rw [encryptFor_eq, List.length_set, Ring.length_up, hlen]

theorem ofNat_mul_delta_ne_zero {q : ℕ} (hpos : 0 < q) (hq : q < 2 ^ 32) : BitVec.ofNat 32 q * delta ≠ 0 := by
  intro h
  have h1 : BitVec.ofNat 32 q = 0 := by
    calc BitVec.ofNat 32 q = BitVec.ofNat 32 q * (delta * deltaInv) := by rw [delta_mul_deltaInv, mul_one]
      _ = BitVec.ofNat 32 q * delta * deltaInv := by rw [mul_assoc]
      _ = 0 := by rw [h, zero_mul]
  have h2 := congrArg BitVec.toNat h1
  rw [BitVec.toNat_ofNat, Nat.mod_eq_of_lt hq] at h2
  exact absurd h2 hpos.ne'

/-- The loop makes a turn back for each round, the last one first. -/
theorem decryptWhile_eq (key : KeyArray) {n : ℕ} (q : ℕ) (hq : q < 2 ^ 32) : ∀ (data : List Word) (y : Word),
    data.length = n + 1 → decryptWhile key n (BitVec.ofNat 32 q * delta) data y =
      Ring.turnsBack (schedule key q).reverse data y := by
  induction q with
  | zero =>
    intro data y _
    rw [decryptWhile, if_pos (by rfl)]
    rfl
  | succ q ih =>
    intro data y hlen
    have hsum : BitVec.ofNat 32 (q + 1) * delta - delta = BitVec.ofNat 32 q * delta := by
      rw [ofNat_succ_mul_delta, add_sub_cancel_right]
    rw [decryptWhile, if_neg (ofNat_mul_delta_ne_zero (by omega) hq), schedule, List.range_succ,
      List.map_append, List.reverse_append, List.map_singleton, List.reverse_singleton,
      List.singleton_append, Ring.turnsBack, Ring.turnBack, hlen, Nat.add_sub_cancel, ← decryptFor_eq]
    simp only [hsum]
    refine ih (by omega) _ _ ?_
    rw [decryptFor_eq, List.length_set, Ring.length_down, hlen]

theorem lastIndex_eq {len : ℕ} (hpos : 0 < len) (hlt : len < 2 ^ 32) : lastIndex len = len - 1 := by
  have h1 : (1#32 : Word).toNat = 1 := rfl
  rw [lastIndex, BitVec.toNat_sub, h1, BitVec.toNat_ofNat, Nat.mod_eq_of_lt hlt]
  omega

theorem roundCount_lt (n : ℕ) : roundCount n < 2 ^ 32 := by
  have := Nat.div_le_self 52 (n + 1)
  rw [roundCount]
  omega

section Block

variable (key : KeyArray) {data : List Word} (hn : 2 ≤ data.length) (hlt : data.length < 2 ^ 32)

include hn hlt

/-- **`xxtea_uint_encrypt` makes the turns of its rounds.** -/
theorem uintEncrypt_eq : uintEncrypt data key =
    Ring.turns (schedule key (roundCount (data.length - 1))) data (data.getD (data.length - 1) 0) := by
  have hwhile := encryptWhile_eq key (data.length - 1) (roundCount (data.length - 1)) 0 data
    (data.getD (data.length - 1) 0) (by omega)
  rw [uintEncrypt, lastIndex_eq (by omega) hlt, if_neg (by omega), schedule, List.range_eq_range', ← hwhile]
  exact congrArg (encryptWhile key _ _ · data _) (zero_mul delta).symm

/-- **`xxtea_uint_decrypt` ends, and makes the same turns back.** -/
theorem uintDecrypt_eq : uintDecrypt data key =
    Ring.turnsBack (schedule key (roundCount (data.length - 1))).reverse data (data.getD 0 0) := by
  rw [uintDecrypt, lastIndex_eq (by omega) hlt, if_neg (by omega)]
  exact decryptWhile_eq key _ (roundCount_lt _) data _ (by omega)

theorem length_uintEncrypt : (uintEncrypt data key).length = data.length := by
  rw [uintEncrypt_eq key hn hlt, Ring.length_turns _ hn]

theorem length_uintDecrypt : (uintDecrypt data key).length = data.length := by
  rw [uintDecrypt_eq key hn hlt, Ring.length_turnsBack _ hn]

theorem uintDecrypt_uintEncrypt : uintDecrypt (uintEncrypt data key) key = data := by
  have hlen := length_uintEncrypt key hn hlt
  rw [uintDecrypt_eq key (by omega) (by omega), hlen]
  exact Ring.turnsBack_turns _ hn (uintEncrypt_eq key hn hlt).symm

theorem uintEncrypt_uintDecrypt : uintEncrypt (uintDecrypt data key) key = data := by
  have hlen := length_uintDecrypt key hn hlt
  rw [uintEncrypt_eq key (by omega) (by omega)]
  have hturns := Ring.turns_turnsBack (schedule key (roundCount (data.length - 1))) hn (uintDecrypt_eq key hn hlt).symm
  rwa [← hlen] at hturns

end Block

end GpsTracker.Ios.XXTEA
