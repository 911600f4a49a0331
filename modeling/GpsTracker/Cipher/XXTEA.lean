import GpsTracker.Java.Hex
import Mathlib.Data.BitVec

/-!
# The `XXTEA` class

The text cipher of the device: a text is padded to 32 characters, its UTF-8
bytes are packed into little-endian 64-bit words, the words are mixed by the
rounds of `TEAEncrypt`, and the result is printed as 16 hexadecimal digits a
word. `Decrypt` runs the same way back.

The two mixing loops are translated with the variables the source carries
through them: `z` and `y` are the neighbours of the cell being changed, read
from the array only where the source reads them. Java's `>>` is `sshiftRight`,
its arithmetic wraps, and `+` binds tighter than `^`.
-/

namespace GpsTracker.XXTEA

open GpsTracker.Java

/-- A `long`. -/
abbrev Word := BitVec 64

/-- `DELTA`. -/
def delta : Word := 2654435769#64

/-- `MIN_LENGTH`. -/
def minLength : ℕ := 32

/-- `SPECIAL_CHAR`, as a code unit. -/
def specialChar : UInt16 := 0

/-! ### Bytes and words -/

/-- `bytes2long`: eight bytes from `index` on, the first one lowest. -/
def bytes2long (b : List Byte) (index : ℕ) : Word :=
  BitVec.ofNat 64 (Nat.ofDigits 256 (((b.drop index).take 8).map UInt8.toNat))

/-- `long2bytes`. -/
def long2bytes (num : Word) : List Byte :=
  (List.range 8).map fun i => UInt8.ofNat (num.toNat / 256 ^ i)

/-- The number of words `ToLongArray` makes of so many bytes. -/
def wordCount (length : ℕ) : ℕ := (if length % 8 = 0 then 0 else 1) + length / 8

/-- The `buffer` of `ToLongArray`: what is left for the last word, filled up with zeros. -/
def lastBuffer (data : List Byte) : List Byte :=
  let rest := data.drop ((wordCount data.length - 1) * 8)
  rest ++ List.replicate (8 - rest.length) 0

/-- `ToLongArray(byte[])`, which must be given a byte at least. -/
def toLongArray (data : List Byte) (_ : data ≠ []) : List Word :=
  (List.range (wordCount data.length - 1)).map (fun i => bytes2long data (i * 8)) ++ [bytes2long (lastBuffer data) 0]

/-- The loop of `ToByteArray` that removes trailing zeros, on the reversed list. On the
empty list `result.get(result.size() - 1)` throws. -/
def dropTrailing : List Byte → Except Exn (List Byte)
  | [] => .error .indexOutOfBounds
  | b :: bs => if b = 0 then dropTrailing bs else .ok (b :: bs)

/-- `ToByteArray`. -/
def toByteArray (data : List Word) : Except Exn (List Byte) :=
  (dropTrailing (data.flatMap long2bytes).reverse).map List.reverse

/-! ### Padding -/

/-- `PadRight`. -/
def padRight (source : JString) (length : ℕ) : JString :=
  if source.length < length then padRight (source ++ [specialChar]) length else source
termination_by length - source.length
decreasing_by simp; omega

theorem padRight_eq (source : JString) (length : ℕ) :
    padRight source length = source ++ List.replicate (length - source.length) specialChar := by
  induction h : length - source.length generalizing source with
  | zero => rw [padRight, if_neg (by omega)]; simp
  | succ n ih =>
    rw [padRight, if_pos (by omega), ih _ (by simp; omega), List.append_assoc, List.replicate_succ]
    rfl

/-- `PadLeft`. -/
def padLeft (source : JString) (length : ℕ) : JString :=
  if source.length < length then padLeft (0x30 :: source) length else source
termination_by length - source.length
decreasing_by simp; omega

theorem padLeft_eq (source : JString) (length : ℕ) :
    padLeft source length = List.replicate (length - source.length) 0x30 ++ source := by
  induction h : length - source.length generalizing source with
  | zero => rw [padLeft, if_neg (by omega)]; simp
  | succ n ih =>
    rw [padLeft, if_pos (by omega), ih _ (by simp; omega), List.replicate_succ']
    simp

/-! ### Hexadecimal texts -/

/-- `ToHexString`. -/
def toHexString (data : List Word) : JString := data.flatMap fun w => padLeft (natToHex w.toNat) 16

/-- `ToLongArray(String)`: digits beyond the last whole word are left out. -/
def toLongArrayHex (data : JString) : Except Exn (List Word) :=
  (List.range (data.length / 16)).mapM fun i => parseLong ((data.drop (i * 16)).take 16)

/-! ### The block transformation -/

/-- A key array: at least four words, so that every index the rounds use is in it. -/
structure KeyArray where
  /-- The words. -/
  words : List Word
  /-- There are four. -/
  four_le : 4 ≤ words.length

/-- `p & 3 ^ e`. -/
def keyIndex (p : ℕ) (e : Word) : ℕ := ((BitVec.ofNat 64 p &&& 3#64) ^^^ e).toNat

/-- `e = (sum >> 2) & 3`. -/
def roundE (sum : Word) : Word := sum.sshiftRight 2 &&& 3#64

/-- `(z >> 5 ^ y << 2) + (y >> 3 ^ z << 4) ^ (sum ^ y) + (k ^ z)`. -/
def mx (z y sum k : Word) : Word :=
  ((z.sshiftRight 5 ^^^ y <<< 2) + (y.sshiftRight 3 ^^^ z <<< 4)) ^^^ ((sum ^^^ y) + (k ^^^ z))

/-- The word of the key that cell `p` is mixed with. -/
def KeyArray.word (key : KeyArray) (p : ℕ) (sum : Word) : Word := key.words.getD (keyIndex p (roundE sum)) 0

/-- The `for` loop of `TEAEncrypt` from `p` on, with `m` cells to go. -/
def encryptFor (key : KeyArray) (sum : Word) : ℕ → ℕ → List Word → Word → List Word × Word
  | 0, _, data, z => (data, z)
  | m + 1, p, data, z =>
    let y := data.getD (p + 1) 0
    let z := data.getD p 0 + mx z y sum (key.word p sum)
    encryptFor key sum m (p + 1) (data.set p z) z

/-- One round of `TEAEncrypt`: the loop, then the last cell. -/
def encryptRound (key : KeyArray) (sum : Word) (data : List Word) (z : Word) : List Word × Word :=
  let n := data.length
  let (data, z) := encryptFor key sum (n - 1) 0 data z
  let y := data.getD 0 0
  let z := data.getD (n - 1) 0 + mx z y sum (key.word (n - 1) sum)
  (data.set (n - 1) z, z)

/-- The loop `while (q-- > 0)`. -/
def encryptRounds (key : KeyArray) : ℕ → Word → List Word → Word → List Word
  | 0, _, data, _ => data
  | q + 1, sum, data, z =>
    let sum := sum + delta
    let (data, z) := encryptRound key sum data z
    encryptRounds key q sum data z

/-- `TEAEncrypt`. -/
def teaEncrypt (data : List Word) (key : KeyArray) : List Word :=
  if data.length < 1 then data
  else encryptRounds key (6 + 52 / data.length) 0 data (data.getD (data.length - 1) 0)

/-- The `for` loop of `TEADecrypt` from `p` down to `1`. -/
def decryptFor (key : KeyArray) (sum : Word) : ℕ → List Word → Word → List Word × Word
  | 0, data, y => (data, y)
  | p + 1, data, y =>
    let z := data.getD p 0
    let y := data.getD (p + 1) 0 - mx z y sum (key.word (p + 1) sum)
    decryptFor key sum p (data.set (p + 1) y) y

/-- One round of `TEADecrypt`: the loop, then the first cell. -/
def decryptRound (key : KeyArray) (sum : Word) (data : List Word) (y : Word) : List Word × Word :=
  let n := data.length
  let (data, y) := decryptFor key sum (n - 1) data y
  let z := data.getD (n - 1) 0
  let y := data.getD 0 0 - mx z y sum (key.word 0 sum)
  (data.set 0 y, y)

/-- The inverse of `delta` modulo `2 ^ 64`. -/
def deltaInv : Word := 0xe85ee980144cbc89#64

theorem delta_mul_deltaInv : delta * deltaInv = 1 := by decide

/-- How many rounds are left when the loop of `TEADecrypt` stands at `sum`. -/
def roundsLeft (sum : Word) : ℕ := (sum * deltaInv).toNat

theorem roundsLeft_sub_delta {sum : Word} (h : sum ≠ 0) : roundsLeft (sum - delta) + 1 = roundsLeft sum := by
  have hne : sum * deltaInv ≠ 0 := by
    intro h0
    apply h
    calc sum = sum * (delta * deltaInv) := by rw [delta_mul_deltaInv, mul_one]
      _ = (sum * deltaInv) * delta := by ring
      _ = 0 := by rw [h0, zero_mul]
  have hsub : (sum - delta) * deltaInv = sum * deltaInv - 1 := by rw [sub_mul, delta_mul_deltaInv]
  have hpos : (sum * deltaInv).toNat ≠ 0 := fun h0 => hne (BitVec.eq_of_toNat_eq h0)
  rw [roundsLeft, roundsLeft, hsub]
  generalize sum * deltaInv = x at hpos ⊢
  rw [BitVec.toNat_sub]
  have := x.isLt
  have h1 : (1 : Word).toNat = 1 := rfl
  omega

/-- The loop `while (sum != 0)`. It ends from every `sum`, since `delta` is odd. -/
def decryptLoop (key : KeyArray) (sum : Word) (data : List Word) (y : Word) : List Word :=
  if sum = 0 then data
  else
    let (data, y) := decryptRound key sum data y
    decryptLoop key (sum - delta) data y
termination_by roundsLeft sum
decreasing_by have := roundsLeft_sub_delta ‹_›; omega

/-- `TEADecrypt`. -/
def teaDecrypt (data : List Word) (key : KeyArray) : List Word :=
  if data.length < 1 then data
  else decryptLoop key (BitVec.ofNat 64 (6 + 52 / data.length) * delta) data (data.getD 0 0)

/-! ### `Encrypt` and `Decrypt` -/

/-- The bytes both directions work on, of a text or of a key. -/
def paddedBytes (s : JString) : List Byte := getBytes (padRight s minLength)

theorem length_paddedBytes (s : JString) : 32 ≤ (paddedBytes s).length := by
  refine le_trans ?_ (length_le_length_getBytes _)
  rw [padRight_eq, List.length_append, List.length_replicate, minLength]
  omega

theorem paddedBytes_ne_nil (s : JString) : paddedBytes s ≠ [] := by
  intro h
  have := length_paddedBytes s
  rw [h] at this
  exact absurd this (by decide)

theorem length_toLongArray (data : List Byte) (h : data ≠ []) :
    (toLongArray data h).length = wordCount data.length := by
  have hpos := List.length_pos_iff.mpr h
  rw [toLongArray, List.length_append, List.length_map, List.length_range, List.length_singleton, wordCount]
  split_ifs <;> omega

theorem four_le_wordCount {length : ℕ} (h : 32 ≤ length) : 4 ≤ wordCount length := by
  rw [wordCount]
  omega

/-- The key array of a key text, which is padded to four words like any text. -/
def keyArray (key : JString) : KeyArray where
  words := toLongArray (paddedBytes key) (paddedBytes_ne_nil key)
  four_le := by
    rw [length_toLongArray]
    exact four_le_wordCount (length_paddedBytes key)

/-- `Encrypt`. -/
def encrypt (data key : JString) : JString :=
  toHexString (teaEncrypt (toLongArray (paddedBytes data) (paddedBytes_ne_nil data)) (keyArray key))

/-- `Decrypt`. -/
def decrypt (data key : JString) : Except Exn JString :=
  if data.length < minLength then .ok data
  else do
    let words ← toLongArrayHex data
    let code ← toByteArray (teaDecrypt words (keyArray key))
    return newString code

end GpsTracker.XXTEA
