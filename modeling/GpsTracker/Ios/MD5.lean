import GpsTracker.Library.Md5

/-!
# The MD5 class

`update` takes its input in three parts: what fills the buffer, whole blocks,
and what is left for the buffer. The blocks are taken in a loop over offsets of
32 bits, whose test `i + blocksize <= length` wraps: for an input that ends
within a block of `2^32` bytes the last test succeeds where it should fail, and
the loop reads past the input and never ends (`staysInside_iff`).

The result of a function is `none` where it reads or writes outside its arrays,
and where the fuel of the loop runs out.
-/

namespace GpsTracker.Ios

open Md5 (Word Registers)
open Blocks (window)

/-- The class `MD5`. -/
structure MD5 where
  /-- Whether `finalize` has run. -/
  finalized : Bool
  /-- The bytes that did not fit in the last chunk of 64 bytes. -/
  buffer : Vector UInt8 64
  /-- `count[0]`, the low word of the number of bits. -/
  count0 : Word
  /-- `count[1]`. -/
  count1 : Word
  /-- `state`, the digest so far. -/
  state : Registers
  /-- The result. -/
  digest : Vector UInt8 16

namespace MD5

/-! ### One block -/

-- how far the steps of the four rounds rotate
def S11 : ℕ := 7
def S12 : ℕ := 12
def S13 : ℕ := 17
def S14 : ℕ := 22
def S21 : ℕ := 5
def S22 : ℕ := 9
def S23 : ℕ := 14
def S24 : ℕ := 20
def S31 : ℕ := 4
def S32 : ℕ := 11
def S33 : ℕ := 16
def S34 : ℕ := 23
def S41 : ℕ := 6
def S42 : ℕ := 10
def S43 : ℕ := 15
def S44 : ℕ := 21

/-- `F`. -/
def F (x y z : Word) : Word := (x &&& y) ||| (~~~x &&& z)

/-- `G`. -/
def G (x y z : Word) : Word := (x &&& z) ||| (y &&& ~~~z)

/-- `H`. -/
def H (x y z : Word) : Word := x ^^^ y ^^^ z

/-- `I`. -/
def I (x y z : Word) : Word := y ^^^ (x ||| ~~~z)

/-- `rotate_left`. -/
def rotateLeft (x : Word) (n : ℕ) : Word := (x <<< n) ||| (x >>> (32 - n))

/-- What `FF`, `GG`, `HH` and `II` do with their function: the new value of `a`. -/
def mixInto (f : Word → Word → Word → Word) (a b c d x : Word) (s : ℕ) (ac : Word) : Word :=
  rotateLeft (a + f b c d + x + ac) s + b

/-- `FF`. -/
def FF (a b c d x : Word) (s : ℕ) (ac : Word) : Word := mixInto F a b c d x s ac

/-- `GG`. -/
def GG (a b c d x : Word) (s : ℕ) (ac : Word) : Word := mixInto G a b c d x s ac

/-- `HH`. -/
def HH (a b c d x : Word) (s : ℕ) (ac : Word) : Word := mixInto H a b c d x s ac

/-- `II`. -/
def II (a b c d x : Word) (s : ℕ) (ac : Word) : Word := mixInto I a b c d x s ac

/-- `decode` on a block. -/
def decode (input : Vector UInt8 64) : Vector Word 16 :=
  Vector.ofFn fun i =>
    let byte (j : Fin 4) : Word := (input.get ⟨4 * i + j, by omega⟩).toBitVec.setWidth 32
    byte 0 ||| (byte 1 <<< 8) ||| (byte 2 <<< 16) ||| (byte 3 <<< 24)

/-- A word stored in a byte. -/
def lowByte (w : Word) : UInt8 := UInt8.ofBitVec (w.setWidth 8)

/-- `encode`. -/
def encode (input : List Word) : List UInt8 :=
  input.flatMap fun w => [lowByte (w &&& 0xff), lowByte ((w >>> 8) &&& 0xff), lowByte ((w >>> 16) &&& 0xff),
    lowByte ((w >>> 24) &&& 0xff)]

/-- The first round of `transform`. -/
def round1 (r : Registers) (x : Vector Word 16) : Registers :=
  let ⟨a, b, c, d⟩ := r
  let a := FF a b c d x[0] S11 0xd76aa478
  let d := FF d a b c x[1] S12 0xe8c7b756
  let c := FF c d a b x[2] S13 0x242070db
  let b := FF b c d a x[3] S14 0xc1bdceee
  let a := FF a b c d x[4] S11 0xf57c0faf
  let d := FF d a b c x[5] S12 0x4787c62a
  let c := FF c d a b x[6] S13 0xa8304613
  let b := FF b c d a x[7] S14 0xfd469501
  let a := FF a b c d x[8] S11 0x698098d8
  let d := FF d a b c x[9] S12 0x8b44f7af
  let c := FF c d a b x[10] S13 0xffff5bb1
  let b := FF b c d a x[11] S14 0x895cd7be
  let a := FF a b c d x[12] S11 0x6b901122
  let d := FF d a b c x[13] S12 0xfd987193
  let c := FF c d a b x[14] S13 0xa679438e
  let b := FF b c d a x[15] S14 0x49b40821
  ⟨a, b, c, d⟩

/-- The second round of `transform`. -/
def round2 (r : Registers) (x : Vector Word 16) : Registers :=
  let ⟨a, b, c, d⟩ := r
  let a := GG a b c d x[1] S21 0xf61e2562
  let d := GG d a b c x[6] S22 0xc040b340
  let c := GG c d a b x[11] S23 0x265e5a51
  let b := GG b c d a x[0] S24 0xe9b6c7aa
  let a := GG a b c d x[5] S21 0xd62f105d
  let d := GG d a b c x[10] S22 0x2441453
  let c := GG c d a b x[15] S23 0xd8a1e681
  let b := GG b c d a x[4] S24 0xe7d3fbc8
  let a := GG a b c d x[9] S21 0x21e1cde6
  let d := GG d a b c x[14] S22 0xc33707d6
  let c := GG c d a b x[3] S23 0xf4d50d87
  let b := GG b c d a x[8] S24 0x455a14ed
  let a := GG a b c d x[13] S21 0xa9e3e905
  let d := GG d a b c x[2] S22 0xfcefa3f8
  let c := GG c d a b x[7] S23 0x676f02d9
  let b := GG b c d a x[12] S24 0x8d2a4c8a
  ⟨a, b, c, d⟩

/-- The third round of `transform`. -/
def round3 (r : Registers) (x : Vector Word 16) : Registers :=
  let ⟨a, b, c, d⟩ := r
  let a := HH a b c d x[5] S31 0xfffa3942
  let d := HH d a b c x[8] S32 0x8771f681
  let c := HH c d a b x[11] S33 0x6d9d6122
  let b := HH b c d a x[14] S34 0xfde5380c
  let a := HH a b c d x[1] S31 0xa4beea44
  let d := HH d a b c x[4] S32 0x4bdecfa9
  let c := HH c d a b x[7] S33 0xf6bb4b60
  let b := HH b c d a x[10] S34 0xbebfbc70
  let a := HH a b c d x[13] S31 0x289b7ec6
  let d := HH d a b c x[0] S32 0xeaa127fa
  let c := HH c d a b x[3] S33 0xd4ef3085
  let b := HH b c d a x[6] S34 0x4881d05
  let a := HH a b c d x[9] S31 0xd9d4d039
  let d := HH d a b c x[12] S32 0xe6db99e5
  let c := HH c d a b x[15] S33 0x1fa27cf8
  let b := HH b c d a x[2] S34 0xc4ac5665
  ⟨a, b, c, d⟩

/-- The fourth round of `transform`. -/
def round4 (r : Registers) (x : Vector Word 16) : Registers :=
  let ⟨a, b, c, d⟩ := r
  let a := II a b c d x[0] S41 0xf4292244
  let d := II d a b c x[7] S42 0x432aff97
  let c := II c d a b x[14] S43 0xab9423a7
  let b := II b c d a x[5] S44 0xfc93a039
  let a := II a b c d x[12] S41 0x655b59c3
  let d := II d a b c x[3] S42 0x8f0ccc92
  let c := II c d a b x[10] S43 0xffeff47d
  let b := II b c d a x[1] S44 0x85845dd1
  let a := II a b c d x[8] S41 0x6fa87e4f
  let d := II d a b c x[15] S42 0xfe2ce6e0
  let c := II c d a b x[6] S43 0xa3014314
  let b := II b c d a x[13] S44 0x4e0811a1
  let a := II a b c d x[4] S41 0xf7537e82
  let d := II d a b c x[11] S42 0xbd3af235
  let c := II c d a b x[2] S43 0x2ad7d2bb
  let b := II b c d a x[9] S44 0xeb86d391
  ⟨a, b, c, d⟩

/-- `transform`. -/
def transform (state : Registers) (block : Vector UInt8 64) : Registers :=
  let x := decode block
  let r := round4 (round3 (round2 (round1 state x) x) x) x
  ⟨state.a + r.a, state.b + r.b, state.c + r.c, state.d + r.d⟩

/-! ### The block of the standard -/

theorem rotateLeft_eq (x : Word) {s : ℕ} (hs : s < 32) : rotateLeft x s = x.rotateLeft s := by
  rw [rotateLeft, BitVec.rotateLeft, BitVec.rotateLeftAux, Nat.mod_eq_of_lt hs]

/-- A step of the standard, on four words. -/
def stepValue (round : ℕ) (a b c d x : Word) (s : ℕ) (ac : Word) : Word :=
  b + (a + Md5.mix round b c d + x + ac).rotateLeft s

theorem stepWith_eq (y : ℕ → Word) (a b c d : Word) (i : ℕ) : Md5.stepWith y ⟨a, b, c, d⟩ i =
    ⟨d, stepValue (i / 16) a b c d (y (Md5.wordIndex i)) (Md5.rotation i) (Md5.sineTable.getD i 0), b, c⟩ := rfl

section Steps

variable (a b c d x : Word) {s : ℕ} (hs : s < 32) (ac : Word)

include hs

theorem mixInto_eq (round : ℕ) : mixInto (Md5.mix round) a b c d x s ac = stepValue round a b c d x s ac := by
  rw [mixInto, rotateLeft_eq _ hs, BitVec.add_comm, stepValue]

theorem FF_eq : FF a b c d x s ac = stepValue 0 a b c d x s ac := mixInto_eq a b c d x hs ac 0

theorem GG_eq : GG a b c d x s ac = stepValue 1 a b c d x s ac := mixInto_eq a b c d x hs ac 1

theorem HH_eq : HH a b c d x s ac = stepValue 2 a b c d x s ac := mixInto_eq a b c d x hs ac 2

theorem II_eq : II a b c d x s ac = stepValue 3 a b c d x s ac := mixInto_eq a b c d x hs ac 3

end Steps

section Rounds

variable {x : Vector Word 16} {y : ℕ → Word} (hx : ∀ k (h : k < 16), x[k] = y k)

include hx

theorem round1_eq (r : Registers) : round1 r x = (List.range' 0 16).foldl (Md5.stepWith y) r := by
  obtain ⟨a, b, c, d⟩ := r
  simp only [round1, FF_eq, hx, List.range', List.foldl_cons, List.foldl_nil, stepWith_eq,
    Nat.reduceAdd, Nat.reduceDiv, Nat.reduceLT, Nat.reduceMod, Md5.wordIndex, Md5.rotation,
    Md5.sineTable, List.getD_cons_succ, List.getD_cons_zero, S11, S12, S13, S14]

theorem round2_eq (r : Registers) : round2 r x = (List.range' 16 16).foldl (Md5.stepWith y) r := by
  obtain ⟨a, b, c, d⟩ := r
  simp only [round2, GG_eq, hx, List.range', List.foldl_cons, List.foldl_nil, stepWith_eq,
    Nat.reduceAdd, Nat.reduceDiv, Nat.reduceLT, Nat.reduceMod, Nat.reduceMul, Md5.wordIndex,
    Md5.rotation, Md5.sineTable, List.getD_cons_succ, List.getD_cons_zero, S21, S22, S23, S24]

theorem round3_eq (r : Registers) : round3 r x = (List.range' 32 16).foldl (Md5.stepWith y) r := by
  obtain ⟨a, b, c, d⟩ := r
  simp only [round3, HH_eq, hx, List.range', List.foldl_cons, List.foldl_nil, stepWith_eq,
    Nat.reduceAdd, Nat.reduceDiv, Nat.reduceLT, Nat.reduceMod, Nat.reduceMul, Md5.wordIndex,
    Md5.rotation, Md5.sineTable, List.getD_cons_succ, List.getD_cons_zero, S31, S32, S33, S34]

theorem round4_eq (r : Registers) : round4 r x = (List.range' 48 16).foldl (Md5.stepWith y) r := by
  obtain ⟨a, b, c, d⟩ := r
  simp only [round4, II_eq, hx, List.range', List.foldl_cons, List.foldl_nil, stepWith_eq,
    Nat.reduceAdd, Nat.reduceDiv, Nat.reduceLT, Nat.reduceMod, Nat.reduceMul, Md5.wordIndex,
    Md5.rotation, Md5.sineTable, List.getD_cons_succ, List.getD_cons_zero, S41, S42, S43, S44]

end Rounds

/-- Four bytes in their places. -/
theorem or_shifts_eq_append (b0 b1 b2 b3 : BitVec 8) :
    b0.setWidth 32 ||| (b1.setWidth 32 <<< 8) ||| (b2.setWidth 32 <<< 16) ||| (b3.setWidth 32 <<< 24) =
      (b3 ++ b2 ++ b1 ++ b0 : Word) := by
  refine BitVec.eq_of_getLsbD_eq fun i hi => ?_
  simp only [BitVec.getLsbD_or, BitVec.getLsbD_append, BitVec.getLsbD_setWidth, BitVec.getLsbD_shiftLeft]
  grind

theorem decode_getElem (block : Vector UInt8 64) (k : ℕ) (h : k < 16) :
    (decode block)[k] = Md5.wordAt block k := by
  have hbyte : ∀ j (hj : 4 * k + j < 64), block.get ⟨4 * k + j, hj⟩ = block.toList.getD (4 * k + j) 0 := by
    intro j hj
    rw [List.getD_eq_getElem?_getD, List.getElem?_eq_getElem (by simpa using hj)]
    rfl
  have hread : (decode block)[k] = _ := Vector.getElem_ofFn h
  rw [hread, Md5.wordAt]
  simp only [hbyte]
  exact or_shifts_eq_append _ _ _ _

/-- **`transform` is the step of the standard on a block.** -/
theorem transform_eq (state : Registers) (block : Vector UInt8 64) :
    transform state block = Md5.compress state block := by
  have hx := decode_getElem block
  rw [transform, Md5.compress, Md5.Registers.add, round1_eq hx, round2_eq hx, round3_eq hx, round4_eq hx,
    ← List.foldl_append, ← List.foldl_append, ← List.foldl_append, List.range_eq_range']
  rfl

/-! ### The object -/

/-- `init`: the buffer and the digest keep what was in their memory. -/
def init (m : MD5) : MD5 :=
  { m with
    finalized := false
    count0 := 0
    count1 := 0
    state := ⟨0x67452301, 0xefcdab89, 0x98badcfe, 0x10325476⟩ }

/-- The bytes at `&input[start]`. -/
def bytesFrom (input : List UInt8) (start len : ℕ) : Option (List UInt8) :=
  if start + len ≤ input.length then some ((input.drop start).take len) else none

/-- The block at `&input[i]`. -/
def blockFrom (input : List UInt8) (i : Word) : Option (Vector UInt8 64) :=
  if i.toNat + 64 ≤ input.length then some (window input i.toNat) else none

/-- `memcpy(&buffer[index], src, ...)`. -/
def copyInto (buffer : Vector UInt8 64) (index : ℕ) (src : List UInt8) : Option (Vector UInt8 64) :=
  if h : index + src.length ≤ 64 then
    some (Blocks.toBlock (buffer.toList.take index ++ src ++ buffer.toList.drop (index + src.length)) (by simp; omega))
  else none

universe u

variable {σ : Type u}

/-- The loop `for (i = ...; i + blocksize <= length; i += blocksize)` with a body, from `i` on, and the
value of `i` after it. -/
def blockLoop (body : σ → Word → Option σ) (length : Word) : ℕ → Word → σ → Option (Word × σ)
  | 0, _, _ => none
  | fuel + 1, i, st => if i + 64 ≤ length then body st i >>= blockLoop body length fuel (i + 64) else some (i, st)

/-- The byte index in the buffer. -/
def indexOf (count0 : Word) : Word := count0 / 8 % 64

/-- `update`. -/
def update (fuel : ℕ) (m : MD5) (input : List UInt8) (length : Word) : Option MD5 := do
  let index := indexOf m.count0
  let count0 := m.count0 + (length <<< 3)
  let count1 := if count0 < length <<< 3 then m.count1 + 1 else m.count1
  let count1 := count1 + (length >>> 29)
  let firstpart := 64 - index
  let (index, i, state, buffer) ← (if firstpart ≤ length then do
      let first ← bytesFrom input 0 firstpart.toNat
      let buffer ← copyInto m.buffer index.toNat first
      let state := transform m.state buffer
      let (i, state) ← blockLoop (fun st i => (blockFrom input i).map (transform st)) length fuel firstpart state
      some ((0 : Word), i, state, buffer)
    else some (index, (0 : Word), m.state, m.buffer))
  let rest ← bytesFrom input i.toNat (length - i).toNat
  let buffer ← copyInto buffer index.toNat rest
  return { m with buffer, count0, count1, state }

/-- `padding`. -/
def padding : List UInt8 := 0x80 :: List.replicate 63 0

/-- `finalize`. -/
def finalize (fuel : ℕ) (m : MD5) : Option MD5 :=
  if m.finalized then some m
  else do
    let bits := encode [m.count0, m.count1]
    let index := indexOf m.count0
    let padLen := if index < 56 then 56 - index else 120 - index
    let m ← update fuel m padding padLen
    let m ← update fuel m bits 8
    let digest := Blocks.toBlock (encode [m.state.a, m.state.b, m.state.c, m.state.d]) rfl
    return { m with digest, buffer := Vector.replicate 64 0, count0 := 0, count1 := 0, finalized := true }

/-- The lower-case digit of a value below 16. -/
def hexChar (d : ℕ) : UInt8 := if d < 10 then UInt8.ofNat (0x30 + d) else UInt8.ofNat (0x61 + (d - 10))

/-- `"%02x"`. -/
def printHex (b : UInt8) : List UInt8 := [hexChar (b.toNat / 16), hexChar (b.toNat % 16)]

/-- `hexdigest`. -/
def hexdigest (m : MD5) : List UInt8 := if m.finalized then m.digest.toList.flatMap printHex else []

/-- The constructor from a text, on the memory of the object. -/
def ofText (fuel : ℕ) (memory : MD5) (text : List UInt8) : Option MD5 := do
  let m ← update fuel (init memory) text (BitVec.ofNat 32 text.length)
  finalize fuel m

/-- `md5`. -/
def md5 (fuel : ℕ) (memory : MD5) (str : List UInt8) : Option (List UInt8) :=
  (ofText fuel memory str).map hexdigest

/-! ### The block loop -/

/-- A body that only notes where it is. -/
def note (visited : List Word) (i : Word) : Option (List Word) := some (visited ++ [i])

/-- The update stays inside its input and stops, at this counter and this length. -/
structure StaysInside (count0 length : Word) : Prop where
  /-- Where the buffer is filled, the loop ends, its blocks are inside the input, and less than a block is
  left for the buffer, whose index is then 0. -/
  blocks : 64 - indexOf count0 ≤ length → ∃ fuel i visited, blockLoop note length fuel (64 - indexOf count0) [] =
    some (i, visited) ∧ (∀ o ∈ visited, o.toNat + 64 ≤ length.toNat) ∧ i ≤ length ∧ (length - i).toNat < 64
  /-- Where it is not, the input fits behind what it holds. -/
  rest : ¬ 64 - indexOf count0 ≤ length → (indexOf count0).toNat + length.toNat < 64
  /-- The update gives a result, whatever the bytes are. -/
  returns : ∀ m input, m.count0 = count0 → input.length = length.toNat → ∃ fuel m', update fuel m input length = some m'

/-- No offset that the loop tests wraps. -/
def Fits (count0 length : Word) : Prop :=
  length.toNat + (if indexOf count0 = 0 then 64 else (indexOf count0).toNat) < 2 ^ 32

instance (count0 length : Word) : Decidable (Fits count0 length) := inferInstanceAs (Decidable (_ < _))

theorem indexOf_lt (count0 : Word) : (indexOf count0).toNat < 64 := by
  rw [indexOf, BitVec.toNat_umod]
  exact Nat.mod_lt _ (by decide)

theorem toNat_zero : (0 : Word).toNat = 0 := rfl

theorem toNat_ofNat_of_lt {n : ℕ} (h : n < 2 ^ 32) : (BitVec.ofNat 32 n).toNat = n := by
  rw [BitVec.toNat_ofNat, Nat.mod_eq_of_lt h]

/-- `64 - index`. -/
theorem toNat_firstpart (count0 : Word) : (64 - indexOf count0).toNat = 64 - (indexOf count0).toNat := by
  have := indexOf_lt count0
  bv_omega

theorem firstpart_eq {count0 : Word} {first : ℕ} (hfirst : first = 64 - (indexOf count0).toNat) :
    64 - indexOf count0 = BitVec.ofNat 32 first := by
  have := toNat_firstpart count0
  bv_omega

/-- The last offset that is tested. -/
theorem Fits.no_wrap {count0 length : Word} {first k r : ℕ} (h : Fits count0 length)
    (hfirst : first = 64 - (indexOf count0).toNat) (hlength : length.toNat = first + 64 * k + r) :
    first + 64 * k + 64 < 2 ^ 32 := by
  have hlt := indexOf_lt count0
  rw [Fits] at h
  split_ifs at h with hzero
  · omega
  · have : (indexOf count0).toNat ≠ 0 := fun h0 => hzero (BitVec.eq_of_toNat_eq h0)
    omega

/-- An input that fills the buffer, in its parts. -/
theorem exists_parts {count0 length : Word} (hpart : 64 - indexOf count0 ≤ length) :
    ∃ first k r, first = 64 - (indexOf count0).toNat ∧ length.toNat = first + 64 * k + r ∧ r < 64 := by
  have hfirst := toNat_firstpart count0
  have hle : (64 - indexOf count0).toNat ≤ length.toNat := hpart
  exact ⟨_, (length.toNat - (64 - (indexOf count0).toNat)) / 64,
    (length.toNat - (64 - (indexOf count0).toNat)) % 64, rfl, by omega, Nat.mod_lt _ (by decide)⟩

/-- The offsets of so many blocks from `i` on. -/
def offsets (i k : ℕ) : List Word := (List.range k).map fun j => BitVec.ofNat 32 (i + 64 * j)

theorem offsets_succ (i k : ℕ) : offsets i (k + 1) = BitVec.ofNat 32 i :: offsets (i + 64) k := by
  rw [offsets, List.range_succ_eq_map, List.map_cons, List.map_map, Nat.mul_zero, Nat.add_zero, offsets]
  congr 1
  refine List.map_congr_left fun j _ => ?_
  simp only [Function.comp, Nat.mul_succ]
  congr 1
  omega

/-- The loop over so many blocks, where no offset wraps. -/
theorem blockLoop_eq (body : σ → Word → Option σ) {length : Word} {r : ℕ} (hr : r < 64) (k : ℕ) :
    ∀ (fuel i : ℕ) (st : σ), i + 64 * k + r = length.toNat → i + 64 * k + 64 < 2 ^ 32 → k < fuel →
      blockLoop body length fuel (BitVec.ofNat 32 i) st =
        ((offsets i k).foldlM body st).map fun st => (BitVec.ofNat 32 (i + 64 * k), st) := by
  induction k with
  | zero =>
    intro fuel i st hlen hfits hfuel
    obtain ⟨fuel, rfl⟩ := Nat.exists_eq_add_one_of_ne_zero (Nat.ne_of_gt hfuel)
    have hend : ¬ BitVec.ofNat 32 i + 64 ≤ length := by bv_omega
    rw [blockLoop, if_neg hend]
    rfl
  | succ k ih =>
    intro fuel i st hlen hfits hfuel
    obtain ⟨fuel, rfl⟩ := Nat.exists_eq_add_one_of_ne_zero (Nat.ne_of_gt (Nat.zero_lt_of_lt hfuel))
    have hmore : BitVec.ofNat 32 i + 64 ≤ length := by bv_omega
    have hnext : BitVec.ofNat 32 i + 64 = BitVec.ofNat 32 (i + 64) := by bv_omega
    rw [blockLoop, if_pos hmore, hnext, offsets_succ, List.foldlM_cons]
    cases body st (BitVec.ofNat 32 i) with
    | none => rfl
    | some st' =>
      rw [Option.bind_eq_bind, Option.bind_some, ih fuel (i + 64) st' (by omega) (by omega) (by omega),
        show i + 64 + 64 * k = i + 64 * (k + 1) by omega]
      rfl

/-- The loop never ends where every test succeeds. -/
theorem blockLoop_none (body : σ → Word → Option σ) {length : Word} {p : ℕ}
    (hmore : ∀ i : Word, (i.toNat + p) % 64 = 0 → i + 64 ≤ length) :
    ∀ (fuel : ℕ) (i : Word) (st : σ), (i.toNat + p) % 64 = 0 → blockLoop body length fuel i st = none := by
  intro fuel
  induction fuel with
  | zero => exact fun _ _ _ => rfl
  | succ fuel ih =>
    intro i st hi
    have hnext : ((i + 64).toNat + p) % 64 = 0 := by bv_omega
    rw [blockLoop, if_pos (hmore i hi)]
    cases body st i with
    | none => rfl
    | some st' => exact ih (i + 64) st' hnext

/-- So it is where an offset wraps. -/
theorem more_of_not_fits {count0 length : Word} (h : ¬ Fits count0 length) (i : Word)
    (hi : (i.toNat + (indexOf count0).toNat) % 64 = 0) : i + 64 ≤ length := by
  have hlt := indexOf_lt count0
  rw [Fits] at h
  split_ifs at h with hzero
  · rw [hzero] at hi
    bv_omega
  · have : (indexOf count0).toNat ≠ 0 := fun h0 => hzero (BitVec.eq_of_toNat_eq h0)
    bv_omega

theorem not_staysInside_of_not_fits {count0 length : Word} (h : ¬ Fits count0 length) :
    ¬ StaysInside count0 length := by
  intro hinside
  have hmore := more_of_not_fits h
  have hfirst : ((64 - indexOf count0).toNat + (indexOf count0).toNat) % 64 = 0 := by
    have := indexOf_lt count0
    rw [toNat_firstpart]
    omega
  have hpart : 64 - indexOf count0 ≤ length := by
    have hlast := hmore (-(indexOf count0)) (by bv_omega)
    rwa [show -(indexOf count0) + 64 = 64 - indexOf count0 by bv_omega] at hlast
  obtain ⟨fuel, i, visited, hloop, -⟩ := hinside.blocks hpart
  rw [blockLoop_none note hmore fuel _ [] hfirst] at hloop
  cases hloop

/-! ### The update -/

theorem bytesFrom_eq {input : List UInt8} {start len : ℕ} (h : start + len ≤ input.length) :
    bytesFrom input start len = some ((input.drop start).take len) := if_pos h

theorem copyInto_eq (buffer : Vector UInt8 64) (index : ℕ) (src : List UInt8) (h : index + src.length ≤ 64) :
    ∃ filled, copyInto buffer index src = some filled ∧
      filled.toList = buffer.toList.take index ++ src ++ buffer.toList.drop (index + src.length) :=
  ⟨_, dif_pos h, rfl⟩

theorem foldlM_note (l : List Word) : ∀ visited, l.foldlM note visited = some (visited ++ l) := by
  induction l with
  | nil => simp
  | cons i l ih =>
    intro visited
    rw [List.foldlM_cons, note, Option.bind_eq_bind, Option.bind_some, ih, List.append_assoc]
    rfl

/-- The blocks that the loop transforms. -/
theorem foldlM_transform (input : List UInt8) (state : Registers) (first k : ℕ)
    (h : first + 64 * k ≤ input.length) (hfits : first + 64 * k < 2 ^ 32) :
    (offsets first k).foldlM (fun st i => (blockFrom input i).map (transform st)) state =
      some ((List.range k).foldl (fun st j => transform st (window input (first + 64 * j))) state) := by
  induction k with
  | zero => rfl
  | succ k ih =>
    have hoffset : (BitVec.ofNat 32 (first + 64 * k)).toNat = first + 64 * k := toNat_ofNat_of_lt (by omega)
    rw [offsets, List.range_succ, List.map_append, ← offsets, List.foldlM_append, ih (by omega) (by omega),
      List.map_singleton, List.foldl_append, Option.bind_eq_bind, Option.bind_some, List.foldlM_cons, blockFrom,
      hoffset, if_pos (by omega)]
    rfl

/-- The object after the bits of so many bytes are counted. -/
def counted (m : MD5) (length : Word) : MD5 :=
  { m with
    count0 := m.count0 + (length <<< 3)
    count1 := (if m.count0 + (length <<< 3) < length <<< 3 then m.count1 + 1 else m.count1) + (length >>> 29) }

/-- An input that does not fill the buffer. -/
theorem update_of_rest (fuel : ℕ) (m : MD5) {input : List UInt8} {length : Word}
    (hpart : ¬ 64 - indexOf m.count0 ≤ length) (hinput : length.toNat ≤ input.length) :
    ∃ buffer, update fuel m input length = some { counted m length with buffer } ∧
      buffer.toList.take ((indexOf m.count0).toNat + length.toNat) =
        m.buffer.toList.take (indexOf m.count0).toNat ++ input.take length.toNat := by
  have hlt := indexOf_lt m.count0
  have hroom : (indexOf m.count0).toNat + length.toNat < 64 := by
    have := toNat_firstpart m.count0
    bv_omega
  have hrest : bytesFrom input 0 length.toNat = some (input.take length.toNat) := bytesFrom_eq (by omega)
  have hlen : (input.take length.toNat).length = length.toNat := List.length_take_of_le hinput
  obtain ⟨buffer, hcopy, hbuffer⟩ := copyInto_eq m.buffer (indexOf m.count0).toNat (input.take length.toNat) (by omega)
  refine ⟨buffer, ?_, ?_⟩
  · have hall : length - 0 = length := BitVec.sub_zero length
    simp only [update, if_neg hpart, Option.bind_eq_bind, Option.bind_some, hall, toNat_zero, hrest, hcopy]
    rfl
  · have hfront : (m.buffer.toList.take (indexOf m.count0).toNat ++ input.take length.toNat).length =
        (indexOf m.count0).toNat + length.toNat := by
      rw [List.length_append, hlen, List.length_take_of_le (by rw [Vector.length_toList]; omega)]
    rw [hbuffer, ← hfront, List.take_left]

/-- An input that fills it. -/
theorem update_of_blocks {fuel : ℕ} (m : MD5) {input : List UInt8} {length : Word} {first k r : ℕ}
    (hfirst : first = 64 - (indexOf m.count0).toNat) (hlength : length.toNat = first + 64 * k + r) (hr : r < 64)
    (hfits : Fits m.count0 length) (hinput : length.toNat ≤ input.length) (hfuel : k < fuel) :
    ∃ (filled buffer : Vector UInt8 64),
      filled.toList = m.buffer.toList.take (indexOf m.count0).toNat ++ input.take first ∧
      buffer.toList.take r = (input.drop (first + 64 * k)).take r ∧
      update fuel m input length = some
        { counted m length with
          buffer
          state := (List.range k).foldl (fun st j => transform st (window input (first + 64 * j)))
            (transform m.state filled) } := by
  have hlt := indexOf_lt m.count0
  have hword := firstpart_eq hfirst
  have hwrap := hfits.no_wrap hfirst hlength
  have hpart : BitVec.ofNat 32 first ≤ length := by bv_omega
  have hfirstNat : (BitVec.ofNat 32 first).toNat = first := toNat_ofNat_of_lt (by omega)
  have hread : bytesFrom input 0 first = some (input.take first) := bytesFrom_eq (by omega)
  have hreadLen : (input.take first).length = first := List.length_take_of_le (by omega)
  obtain ⟨filled, hcopy, hfilled⟩ := copyInto_eq m.buffer (indexOf m.count0).toNat (input.take first) (by omega)
  have hloop := blockLoop_eq (fun st i => (blockFrom input i).map (transform st)) hr k fuel first
    (transform m.state filled) hlength.symm hwrap hfuel
  rw [foldlM_transform input _ first k (by omega) (by omega)] at hloop
  have hend : (BitVec.ofNat 32 (first + 64 * k)).toNat = first + 64 * k := toNat_ofNat_of_lt (by omega)
  have hleft : (length - BitVec.ofNat 32 (first + 64 * k)).toNat = r := by bv_omega
  have hrest : bytesFrom input (first + 64 * k) r = some ((input.drop (first + 64 * k)).take r) :=
    bytesFrom_eq (by omega)
  have hrestLen : ((input.drop (first + 64 * k)).take r).length = r := by
    rw [List.length_take, List.length_drop]
    omega
  obtain ⟨buffer, hcopyRest, hbuffer⟩ := copyInto_eq filled 0 ((input.drop (first + 64 * k)).take r) (by omega)
  refine ⟨filled, buffer, ?_, ?_, ?_⟩
  · rw [hfilled, List.drop_eq_nil_of_le (by simp; omega), List.append_nil]
  · rw [hbuffer, List.take_zero, List.nil_append, List.take_append_of_le_length (by omega),
      List.take_of_length_le (by omega)]
  · simp only [update, hword, if_pos hpart, hfirstNat, hread, hcopy, hloop, Option.map_some, hend, hleft, hrest,
      hcopyRest, Option.bind_eq_bind, Option.bind_some, toNat_zero]
    rfl

theorem staysInside_of_fits {count0 length : Word} (hfits : Fits count0 length) :
    StaysInside count0 length where
  blocks := by
    intro hpart
    obtain ⟨first, k, r, hfirst, hlength, hr⟩ := exists_parts hpart
    have hwrap := hfits.no_wrap hfirst hlength
    have hloop := blockLoop_eq note hr k (k + 1) _ [] hlength.symm hwrap (Nat.lt_succ_self k)
    rw [foldlM_note, Option.map_some, List.nil_append, ← firstpart_eq hfirst] at hloop
    refine ⟨k + 1, _, _, hloop, ?_, ?_, ?_⟩
    · intro o ho
      obtain ⟨j, hj, rfl⟩ := List.mem_map.mp ho
      have := List.mem_range.mp hj
      rw [toNat_ofNat_of_lt (by omega)]
      omega
    · bv_omega
    · bv_omega
  rest := by
    intro hpart
    have := toNat_firstpart count0
    bv_omega
  returns := by
    intro m input hcount hinput
    subst hcount
    by_cases hpart : 64 - indexOf m.count0 ≤ length
    · obtain ⟨_, k, r, hfirst, hlength, hr⟩ := exists_parts hpart
      obtain ⟨_, _, -, -, hupdate⟩ :=
        update_of_blocks m hfirst hlength hr hfits (Nat.le_of_eq hinput.symm) (Nat.lt_succ_self k)
      exact ⟨_, _, hupdate⟩
    · obtain ⟨_, hupdate, -⟩ := update_of_rest 0 m hpart (Nat.le_of_eq hinput.symm)
      exact ⟨_, _, hupdate⟩

/-- **When the update stays inside its input and stops.** -/
theorem staysInside_iff (count0 length : Word) : StaysInside count0 length ↔ Fits count0 length :=
  ⟨fun h => by_contra fun hfits => not_staysInside_of_not_fits hfits h, staysInside_of_fits⟩

/-- The longest input, on an empty buffer. -/
theorem not_staysInside_longest : ¬ StaysInside 0 0xFFFFFFFF :=
  not_staysInside_of_not_fits (by decide)

end MD5

end GpsTracker.Ios
