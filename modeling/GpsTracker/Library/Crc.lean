import Mathlib.Data.List.Basic

/-!
# Cyclic redundancy checks

A register takes the bits of a message one at a time: it shifts by one, and the
polynomial is added where the bit that leaves it differs from the bit that comes.
`crcMsb` begins with the most significant bit of each byte and shifts to the
left; `crcLsb` is the reflected check, which begins with the least significant
bit and shifts to the right.

All of it is linear for exclusive or, and linear functions are equal when they
are on single bits (`Linear.ext`). So a step that takes a byte at once computes
the check if it is linear and does so for one bit in the register or in the
byte (`JointlyLinear.ext`).
-/

namespace GpsTracker.Crc

/-! ### Linear functions -/

section Linear

variable {m n k : ℕ}

/-- The function takes exclusive or to exclusive or. -/
def Linear (f : BitVec n → BitVec m) : Prop := ∀ x y, f (x ^^^ y) = f x ^^^ f y

theorem Linear.id : Linear fun x : BitVec n => x := fun _ _ => rfl

theorem Linear.comp {f : BitVec m → BitVec k} {g : BitVec n → BitVec m} (hf : Linear f) (hg : Linear g) :
    Linear fun x => f (g x) := fun x y => (congrArg f (hg x y)).trans (hf _ _)

theorem Linear.xor {f g : BitVec n → BitVec m} (hf : Linear f) (hg : Linear g) :
    Linear fun x => f x ^^^ g x := by
  intro x y
  simp only [hf x y, hg x y]
  ac_rfl

theorem linear_and (c : BitVec n) : Linear fun x => c &&& x := by
  intro x y
  ext i hi
  simp [Bool.and_xor_distrib_left]

theorem linear_shiftLeft (i : ℕ) : Linear fun x : BitVec n => x <<< i :=
  fun x y => BitVec.shiftLeft_xor_distrib x y i

theorem linear_ushiftRight (i : ℕ) : Linear fun x : BitVec n => x >>> i :=
  fun x y => BitVec.ushiftRight_xor_distrib x y i

theorem linear_sshiftRight (i : ℕ) : Linear fun x : BitVec n => x.sshiftRight i :=
  fun x y => BitVec.sshiftRight_xor_distrib x y i

theorem linear_setWidth : Linear fun x : BitVec n => x.setWidth m := fun _ _ => BitVec.setWidth_xor

theorem Linear.map_zero {f : BitVec n → BitVec m} (hf : Linear f) : f 0 = 0 := by
  have h := hf 0 0
  rwa [BitVec.xor_self, BitVec.xor_self] at h

/-- **Linear functions that agree on single bits are equal.** -/
theorem Linear.ext {f g : BitVec n → BitVec m} (hf : Linear f) (hg : Linear g)
    (h : ∀ i < n, f (BitVec.twoPow n i) = g (BitVec.twoPow n i)) (x : BitVec n) : f x = g x := by
  -- the bits from `k` on are zero; the induction takes away bit `k`
  have key : ∀ k, ∀ x : BitVec n, (∀ i, k ≤ i → x.getLsbD i = false) → f x = g x := by
    intro k
    induction k with
    | zero =>
      intro x hx
      have hzero : x = 0 := BitVec.eq_of_getLsbD_eq fun i _ => by simp [hx i (Nat.zero_le i)]
      rw [hzero, hf.map_zero, hg.map_zero]
    | succ k ih =>
      intro x hx
      by_cases hbit : x.getLsbD k = true
      · have hk : k < n := BitVec.lt_of_getLsbD hbit
        have hrest : ∀ i, k ≤ i → (x ^^^ BitVec.twoPow n k).getLsbD i = false := by
          intro i hi
          rw [BitVec.getLsbD_xor, BitVec.getLsbD_twoPow]
          by_cases hik : k = i
          · simp [← hik, hbit, hk]
          · simp [hik, hx i (by omega)]
        have hsplit : x = (x ^^^ BitVec.twoPow n k) ^^^ BitVec.twoPow n k := by
          rw [BitVec.xor_assoc, BitVec.xor_self, BitVec.xor_zero]
        rw [hsplit, hf, hg, ih _ hrest, h k hk]
      · refine ih x fun i hi => ?_
        by_cases hik : k = i
        · rw [← hik]
          simpa using hbit
        · exact hx i (by omega)
  exact key n x fun i hi => BitVec.getLsbD_of_ge x i hi

end Linear

/-! ### The check -/

variable {w : ℕ}

/-- A bit goes into a register that shifts to the left. -/
def feedMsb (poly reg : BitVec w) (bit : Bool) : BitVec w :=
  if reg.msb ^^ bit then reg <<< 1 ^^^ poly else reg <<< 1

/-- A bit goes into a register that shifts to the right. -/
def feedLsb (poly reg : BitVec w) (bit : Bool) : BitVec w :=
  if reg.getLsbD 0 ^^ bit then reg >>> 1 ^^^ poly else reg >>> 1

/-- The bits of a byte, the least significant first. -/
def bitsLsb (b : BitVec 8) : List Bool := (List.range 8).map b.getLsbD

/-- The bits of a byte, the most significant first. -/
def bitsMsb (b : BitVec 8) : List Bool := (bitsLsb b).reverse

/-- The check of a message, most significant bit first. -/
def crcMsb (poly init : BitVec w) (message : List (BitVec 8)) : BitVec w :=
  (message.flatMap bitsMsb).foldl (feedMsb poly) init

/-- The reflected check of a message, least significant bit first. -/
def crcLsb (poly init : BitVec w) (message : List (BitVec 8)) : BitVec w :=
  (message.flatMap bitsLsb).foldl (feedLsb poly) init

/-- A byte goes into the register. -/
def feedByte (poly reg : BitVec w) (b : BitVec 8) : BitVec w := (bitsMsb b).foldl (feedMsb poly) reg

theorem crcMsb_eq_foldl (poly init : BitVec w) (message : List (BitVec 8)) :
    crcMsb poly init message = message.foldl (feedByte poly) init := List.foldl_flatMap

/-! ### A byte at once -/

theorem feedMsb_xor (poly r r' : BitVec w) (b b' : Bool) :
    feedMsb poly (r ^^^ r') (b ^^ b') = feedMsb poly r b ^^^ feedMsb poly r' b' := by
  have hbit : ((r ^^^ r').msb ^^ (b ^^ b')) = ((r.msb ^^ b) ^^ (r'.msb ^^ b')) := by
    rw [BitVec.msb_xor]
    cases r.msb <;> cases r'.msb <;> cases b <;> cases b' <;> rfl
  rw [feedMsb, feedMsb, feedMsb, hbit, BitVec.shiftLeft_xor_distrib]
  cases r.msb ^^ b <;> cases r'.msb ^^ b'
  · simp
  · simp [BitVec.xor_assoc]
  · simp [BitVec.xor_assoc, BitVec.xor_comm poly]
  · -- the polynomial is added twice
    have htwice : (r <<< 1 ^^^ poly) ^^^ (r' <<< 1 ^^^ poly) = (r <<< 1 ^^^ r' <<< 1) ^^^ (poly ^^^ poly) := by
      ac_rfl
    simp [htwice]

theorem foldl_feedMsb_xor (poly : BitVec w) (bits : List Bool) : ∀ (bits' : List Bool) (r r' : BitVec w),
    bits.length = bits'.length → (List.zipWith xor bits bits').foldl (feedMsb poly) (r ^^^ r') =
      bits.foldl (feedMsb poly) r ^^^ bits'.foldl (feedMsb poly) r' := by
  induction bits with
  | nil =>
    intro bits' r r' h
    obtain rfl := List.length_eq_zero_iff.mp h.symm
    rfl
  | cons b bits ih =>
    intro bits' r r' h
    cases bits' with
    | nil => cases h
    | cons b' bits' =>
      rw [List.zipWith_cons_cons, List.foldl_cons, List.foldl_cons, List.foldl_cons, feedMsb_xor]
      exact ih bits' _ _ (Nat.succ.inj h)

/-- The register is linear in what it holds and what it takes. -/
theorem feedByte_xor (poly r r' : BitVec w) (b b' : BitVec 8) :
    feedByte poly (r ^^^ r') (b ^^^ b') = feedByte poly r b ^^^ feedByte poly r' b' := by
  have hbits : bitsMsb (b ^^^ b') = List.zipWith xor (bitsMsb b) (bitsMsb b') := by
    simp [bitsMsb, bitsLsb, List.range_succ]
  rw [feedByte, hbits, foldl_feedMsb_xor poly _ _ _ _ (by simp [bitsMsb, bitsLsb])]
  rfl

/-- A step that is linear in the register and the byte together. -/
def JointlyLinear {v : ℕ} (step : BitVec w → BitVec 8 → BitVec v) : Prop :=
  ∀ r r' b b', step (r ^^^ r') (b ^^^ b') = step r b ^^^ step r' b'

namespace JointlyLinear

variable {v : ℕ} {step step' : BitVec w → BitVec 8 → BitVec v}

theorem left (h : JointlyLinear step) : Linear fun r => step r 0 := fun r r' => h r r' 0 0

theorem right (h : JointlyLinear step) : Linear fun b => step 0 b := by
  intro b b'
  have hsum := h 0 0 b b'
  rwa [BitVec.xor_self] at hsum

theorem split (h : JointlyLinear step) (r : BitVec w) (b : BitVec 8) : step r b = step r 0 ^^^ step 0 b := by
  have hsum := h r 0 0 b
  rwa [BitVec.ofNat_eq_ofNat, BitVec.ofNat_eq_ofNat, BitVec.xor_zero, BitVec.zero_xor] at hsum

/-- **Such steps are equal when they agree on single bits.** -/
theorem ext (h : JointlyLinear step) (h' : JointlyLinear step')
    (hreg : ∀ i < w, step (BitVec.twoPow w i) 0 = step' (BitVec.twoPow w i) 0)
    (hbyte : ∀ i < 8, step 0 (BitVec.twoPow 8 i) = step' 0 (BitVec.twoPow 8 i)) (r : BitVec w) (b : BitVec 8) :
    step r b = step' r b := by
  rw [h.split, h'.split, h.left.ext h'.left hreg, h.right.ext h'.right hbyte]

end JointlyLinear

end GpsTracker.Crc
