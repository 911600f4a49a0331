import GpsTracker.Library.Blocks
import Mathlib.Algebra.Order.Ring.Nat

/-!
# The MD5 digest

RFC 1321: the message is padded to a multiple of 64 bytes that ends in its
length in bits modulo `2^64`, and a buffer of four words takes its blocks one
after another, each in 64 steps. Step `i` (from 0 on) adds to the first word a
function of the other three, a word of the block and an element of the sine
table, rotates the sum, and the words move on by one place.
-/

namespace GpsTracker.Md5

open Blocks

/-- A 32-bit word. -/
abbrev Word := BitVec 32

/-- The buffer `(A, B, C, D)`. -/
@[ext] structure Registers where
  /-- The word `A`. -/
  a : Word
  /-- The word `B`. -/
  b : Word
  /-- The word `C`. -/
  c : Word
  /-- The word `D`. -/
  d : Word
  deriving DecidableEq, Repr

/-! ### One block -/

/-- The functions `F`, `G`, `H` and `I`, one for each round. -/
def mix : ℕ → Word → Word → Word → Word
  | 0, x, y, z => (x &&& y) ||| (~~~x &&& z)
  | 1, x, y, z => (x &&& z) ||| (y &&& ~~~z)
  | 2, x, y, z => x ^^^ y ^^^ z
  | _, x, y, z => y ^^^ (x ||| ~~~z)

/-- The word of the block that a step adds. -/
def wordIndex (i : ℕ) : ℕ :=
  match i / 16 with
  | 0 => i % 16
  | 1 => (5 * i + 1) % 16
  | 2 => (3 * i + 5) % 16
  | _ => 7 * i % 16

/-- How far a step rotates. -/
def rotation (i : ℕ) : ℕ :=
  match i / 16, i % 4 with
  | 0, 0 => 7 | 0, 1 => 12 | 0, 2 => 17 | 0, _ => 22
  | 1, 0 => 5 | 1, 1 => 9 | 1, 2 => 14 | 1, _ => 20
  | 2, 0 => 4 | 2, 1 => 11 | 2, 2 => 16 | 2, _ => 23
  | _, 0 => 6 | _, 1 => 10 | _, 2 => 15 | _, _ => 21

/-- The table of the integer parts of `2^32 * |sin (i + 1)|`. -/
def sineTable : List Word := [
  0xd76aa478, 0xe8c7b756, 0x242070db, 0xc1bdceee, 0xf57c0faf, 0x4787c62a, 0xa8304613, 0xfd469501,
  0x698098d8, 0x8b44f7af, 0xffff5bb1, 0x895cd7be, 0x6b901122, 0xfd987193, 0xa679438e, 0x49b40821,
  0xf61e2562, 0xc040b340, 0x265e5a51, 0xe9b6c7aa, 0xd62f105d, 0x02441453, 0xd8a1e681, 0xe7d3fbc8,
  0x21e1cde6, 0xc33707d6, 0xf4d50d87, 0x455a14ed, 0xa9e3e905, 0xfcefa3f8, 0x676f02d9, 0x8d2a4c8a,
  0xfffa3942, 0x8771f681, 0x6d9d6122, 0xfde5380c, 0xa4beea44, 0x4bdecfa9, 0xf6bb4b60, 0xbebfbc70,
  0x289b7ec6, 0xeaa127fa, 0xd4ef3085, 0x04881d05, 0xd9d4d039, 0xe6db99e5, 0x1fa27cf8, 0xc4ac5665,
  0xf4292244, 0x432aff97, 0xab9423a7, 0xfc93a039, 0x655b59c3, 0x8f0ccc92, 0xffeff47d, 0x85845dd1,
  0x6fa87e4f, 0xfe2ce6e0, 0xa3014314, 0x4e0811a1, 0xf7537e82, 0xbd3af235, 0x2ad7d2bb, 0xeb86d391]

/-- The word whose bytes stand at `4 * k`, the lowest first. -/
def wordAt (block : Vector UInt8 64) (k : ℕ) : Word :=
  let byte (j : ℕ) : BitVec 8 := (block.toList.getD (4 * k + j) 0).toBitVec
  byte 3 ++ byte 2 ++ byte 1 ++ byte 0

/-- One step. -/
def stepWith (x : ℕ → Word) (r : Registers) (i : ℕ) : Registers :=
  let sum := r.a + mix (i / 16) r.b r.c r.d + x (wordIndex i) + sineTable.getD i 0
  ⟨r.d, r.b + sum.rotateLeft (rotation i), r.b, r.c⟩

/-- The words of the sum. -/
def Registers.add (r s : Registers) : Registers := ⟨r.a + s.a, r.b + s.b, r.c + s.c, r.d + s.d⟩

/-- One block: the 64 steps, and the buffer of before is added. -/
def compress (r : Registers) (block : Vector UInt8 64) : Registers :=
  r.add ((List.range 64).foldl (stepWith (wordAt block)) r)

/-! ### The message -/

/-- The buffer at first. -/
def initial : Registers := ⟨0x67452301, 0xefcdab89, 0x98badcfe, 0x10325476⟩

/-- So many bytes of a number, the lowest first. -/
def littleEndian (k n : ℕ) : List UInt8 := (List.range k).map fun j => UInt8.ofNat (n / 256 ^ j)

@[simp] theorem length_littleEndian (k n : ℕ) : (littleEndian k n).length = k := by simp [littleEndian]

/-- What follows a message of so many bytes: a bit that is set, zeros up to 56 bytes modulo
64, and the length in bits. -/
def padding (len : ℕ) : List UInt8 :=
  0x80 :: List.replicate ((119 - len % 64) % 64) 0 ++ littleEndian 8 (8 * len)

theorem length_append_padding (m : List UInt8) : (m ++ padding m.length).length % 64 = 0 := by
  simp [padding]
  omega

/-- The buffer after a text of whole blocks. -/
def compressAll (m : List UInt8) : Registers :=
  (List.range (m.length / 64)).foldl (fun r j => compress r (window m (64 * j))) initial

/-- The bytes of the buffer. -/
def Registers.bytes (r : Registers) : List UInt8 :=
  littleEndian 4 r.a.toNat ++ littleEndian 4 r.b.toNat ++ littleEndian 4 r.c.toNat ++ littleEndian 4 r.d.toNat

theorem Registers.length_bytes (r : Registers) : r.bytes.length = 16 := by simp [Registers.bytes]

/-- **The digest.** -/
def digest (m : List UInt8) : Vector UInt8 16 :=
  toBlock (compressAll (m ++ padding m.length)).bytes (Registers.length_bytes _)

/-- The digest of nothing. -/
example : (digest []).toList = [0xd4, 0x1d, 0x8c, 0xd9, 0x8f, 0x00, 0xb2, 0x04, 0xe9, 0x80, 0x09, 0x98, 0xec, 0xf8,
    0x42, 0x7e] := by decide +kernel

/-- The blocks of a padded message, taken as a stream. -/
theorem absorb_padded (m : List UInt8) :
    absorb compress ⟨initial, [], by decide⟩ (m ++ padding m.length) =
      ⟨compressAll (m ++ padding m.length), [], by decide⟩ := by
  have hlen := length_append_padding m
  generalize m ++ padding m.length = p at hlen ⊢
  have hwindows := absorb_windows compress (by decide) initial p 0 (p.length / 64) (by omega)
  rw [List.drop_zero, List.take_of_length_le (by omega)] at hwindows
  simpa [compressAll] using hwindows

end GpsTracker.Md5
