import GpsTracker.Cipher.XXTEA
import GpsTracker.Library.Mixing

/-!
# The rounds of XXTEA

On a block of at least two words each update of `TEAEncrypt` adds to one cell an
amount computed from its two neighbours, the block being read as a ring. The
variables `z` and `y` that the source carries through its loops always hold
those neighbours, so a round is a list of mixing steps, `TEAEncrypt` takes
`6 + 52 / n` rounds of them (`teaEncrypt_eq`), and `TEADecrypt` undoes the same
steps last first (`teaDecrypt_eq`). That the two are inverse to each other is
then a law of mixing ciphers (`tea_bijective`). The loop of `TEADecrypt`, which
counts down to `sum == 0`, makes as many turns as `TEAEncrypt` makes rounds
(`makesRounds`), for a block of one word as well.
-/

namespace GpsTracker.XXTEA

open GpsTracker.Mixing

/-- The cell before `p` in a ring of `n`. -/
def prev (n p : ℕ) : ℕ := if p = 0 then n - 1 else p - 1

/-- The cell after `p`. -/
def next (n p : ℕ) : ℕ := if p + 1 < n then p + 1 else 0

@[simp] theorem prev_succ (n p : ℕ) : prev n (p + 1) = p := rfl

@[simp] theorem prev_zero (n : ℕ) : prev n 0 = n - 1 := rfl

theorem next_of_lt {n p : ℕ} (h : p + 1 < n) : next n p = p + 1 := if_pos h

theorem next_last {n : ℕ} : next n (n - 1) = 0 := if_neg (by omega)

section Cells

variable (key : KeyArray) {n : ℕ} (hn : 2 ≤ n)

/-- The update of cell `p` in the round of `sum`: it looks at the neighbours, which in a
ring of two or more are not the cell itself. -/
def cell (sum : Word) (p : ℕ) : Step Word where
  pos := p
  amount l := mx (l.getD (prev n p) 0) (l.getD (next n p) 0) sum (key.word p sum)
  amount_set l x := by
    have hp : p ≠ prev n p := by rw [prev]; split_ifs <;> omega
    have hq : p ≠ next n p := by rw [next]; split_ifs <;> omega
    rw [getD_set_ne l hp, getD_set_ne l hq]

theorem cell_act (sum : Word) (p : ℕ) (d : List Word) : (cell key hn sum p).act d =
    d.set p (d.getD p 0 + mx (d.getD (prev n p) 0) (d.getD (next n p) 0) sum (key.word p sum)) := rfl

theorem cell_undo (sum : Word) (p : ℕ) (d : List Word) : (cell key hn sum p).undo d =
    d.set p (d.getD p 0 - mx (d.getD (prev n p) 0) (d.getD (next n p) 0) sum (key.word p sum)) := rfl

/-- The updates of one round, in the order of the cells. -/
def roundSteps (sum : Word) : List (Step Word) := (List.range n).map (cell key hn sum)

/-- The updates of the first `q` rounds. -/
def rounds : ℕ → List (Step Word)
  | 0 => []
  | q + 1 => rounds q ++ roundSteps key hn (BitVec.ofNat 64 (q + 1) * delta)

/-! ### Encryption -/

/-- The `for` loop takes its cells in order, and `z` is the cell before the next one. -/
theorem encryptFor_eq (sum : Word) (m : ℕ) : ∀ (p : ℕ) (data : List Word) (z : Word),
    data.length = n → p + m + 1 = n → z = data.getD (prev n p) 0 →
      encryptFor key sum m p data z =
        (applyAll ((List.range' p m).map (cell key hn sum)) data,
          (applyAll ((List.range' p m).map (cell key hn sum)) data).getD (prev n (p + m)) 0) := by
  induction m with
  | zero => rintro p data z - - rfl; rfl
  | succ m ih =>
    rintro p data z hlen hp rfl
    have hact : data.set p (data.getD p 0 + mx (data.getD (prev n p) 0) (data.getD (p + 1) 0) sum (key.word p sum))
        = (cell key hn sum p).act data := by
      rw [cell_act, next_of_lt (by omega)]
    rw [encryptFor, hact, List.range'_succ, List.map_cons, applyAll]
    rw [ih (p + 1) _ _ (by rw [Step.length_act, hlen]) (by omega)]
    · rw [show p + 1 + m = p + (m + 1) by omega]
    · rw [prev_succ, ← hact, getD_set_self (by omega)]

/-- A round takes its `n` cells in order, and leaves `z` at the last one. -/
theorem encryptRound_eq (sum : Word) {data : List Word} (hlen : data.length = n) :
    encryptRound key sum data (data.getD (n - 1) 0) =
      (applyAll (roundSteps key hn sum) data, (applyAll (roundSteps key hn sum) data).getD (n - 1) 0) := by
  obtain ⟨m, rfl⟩ : ∃ m, n = m + 1 := ⟨n - 1, by omega⟩
  have hsteps : roundSteps key hn sum = (List.range' 0 m).map (cell key hn sum) ++ [cell key hn sum m] := by
    rw [roundSteps, List.range_eq_range', List.range'_concat, List.map_append]
    simp
  rw [encryptRound, hlen, Nat.add_sub_cancel,
    encryptFor_eq key hn sum m 0 data _ hlen (by omega) (by rw [prev_zero, Nat.add_sub_cancel])]
  rw [hsteps, applyAll_append, applyAll, applyAll, Nat.zero_add]
  generalize hd : applyAll ((List.range' 0 m).map (cell key hn sum)) data = d
  have hdlen : d.length = m + 1 := by rw [← hd, length_applyAll, hlen]
  have hact : d.set m (d.getD m 0 + mx (d.getD (prev (m + 1) m) 0) (d.getD 0 0) sum (key.word m sum))
      = (cell key hn sum m).act d := by
    rw [cell_act, next, if_neg (by omega)]
  simp only [hact]
  rw [← hact, getD_set_self (by omega)]

theorem ofNat_succ_mul_delta (q : ℕ) : BitVec.ofNat 64 (q + 1) * delta = BitVec.ofNat 64 q * delta + delta := by
  rw [BitVec.ofNat_add, add_mul, show BitVec.ofNat 64 1 = 1 from rfl, one_mul]

theorem encryptRounds_eq (q : ℕ) : ∀ (j : ℕ) (data : List Word), data.length = n →
    encryptRounds key q (BitVec.ofNat 64 j * delta) (applyAll (rounds key hn j) data)
        ((applyAll (rounds key hn j) data).getD (n - 1) 0) = applyAll (rounds key hn (j + q)) data := by
  induction q with
  | zero => intro j data _; rfl
  | succ q ih =>
    intro j data hlen
    rw [encryptRounds, ← ofNat_succ_mul_delta, encryptRound_eq key hn _ (by rw [length_applyAll, hlen]),
      ← applyAll_append]
    rw [show j + (q + 1) = j + 1 + q by omega]
    exact ih (j + 1) data hlen

/-- **`TEAEncrypt` takes `6 + 52 / n` rounds of mixing steps.** -/
theorem teaEncrypt_eq {data : List Word} (hlen : data.length = n) :
    teaEncrypt data key = applyAll (rounds key hn (6 + 52 / n)) data := by
  rw [teaEncrypt, if_neg (by omega), hlen]
  have h := encryptRounds_eq key hn (6 + 52 / n) 0 data hlen
  rw [Nat.zero_add] at h
  rw [← h, show BitVec.ofNat 64 0 * delta = 0 from zero_mul _]
  rfl

/-! ### Decryption -/

/-- The `for` loop undoes cells `p` down to `1`, and `y` is the cell after the next one. -/
theorem decryptFor_eq (sum : Word) (p : ℕ) : ∀ (data : List Word) (y : Word),
    data.length = n → p < n → y = data.getD (next n p) 0 →
      decryptFor key sum p data y =
        (undoAll ((List.range' 1 p).map (cell key hn sum)) data,
          (undoAll ((List.range' 1 p).map (cell key hn sum)) data).getD (next n 0) 0) := by
  induction p with
  | zero => rintro data y - - rfl; rfl
  | succ p ih =>
    rintro data y hlen hp rfl
    have hundo : data.set (p + 1) (data.getD (p + 1) 0
        - mx (data.getD p 0) (data.getD (next n (p + 1)) 0) sum (key.word (p + 1) sum))
        = (cell key hn sum (p + 1)).undo data := by rw [cell_undo, prev_succ]
    rw [decryptFor, hundo, List.range'_concat, List.map_append, undoAll_append]
    rw [ih _ _ (by rw [Step.length_undo, hlen]) (by omega)]
    · rw [show 1 + 1 * p = p + 1 by omega]
      rfl
    · rw [next_of_lt hp, ← hundo, getD_set_self (by omega)]

/-- A round undoes its `n` cells, last one first, and leaves `y` at the first one. -/
theorem decryptRound_eq (sum : Word) {data : List Word} (hlen : data.length = n) :
    decryptRound key sum data (data.getD 0 0) =
      (undoAll (roundSteps key hn sum) data, (undoAll (roundSteps key hn sum) data).getD 0 0) := by
  have hsteps : roundSteps key hn sum = cell key hn sum 0 :: (List.range' 1 (n - 1)).map (cell key hn sum) := by
    obtain ⟨m, rfl⟩ : ∃ m, n = m + 1 := ⟨n - 1, by omega⟩
    rw [roundSteps, List.range_eq_range', List.range'_succ, List.map_cons]
    simp
  rw [decryptRound, hlen, decryptFor_eq key hn sum (n - 1) data _ hlen (by omega) (by rw [next_last]), hsteps,
    undoAll]
  generalize hd : undoAll ((List.range' 1 (n - 1)).map (cell key hn sum)) data = d
  have hdlen : d.length = n := by rw [← hd, length_undoAll, hlen]
  have hundo : d.set 0 (d.getD 0 0 - mx (d.getD (n - 1) 0) (d.getD (next n 0) 0) sum (key.word 0 sum))
      = (cell key hn sum 0).undo d := by rw [cell_undo, prev_zero]
  simp only [hundo]
  rw [← hundo, getD_set_self (by omega)]

/-- The sum of a round that is left is not zero. -/
theorem ofNat_mul_delta_ne_zero {q : ℕ} (hpos : 0 < q) (hq : q < 2 ^ 64) : BitVec.ofNat 64 q * delta ≠ 0 := by
  intro h
  have h1 : BitVec.ofNat 64 q = 0 := by
    calc BitVec.ofNat 64 q = BitVec.ofNat 64 q * (delta * deltaInv) := by rw [delta_mul_deltaInv, mul_one]
      _ = BitVec.ofNat 64 q * delta * deltaInv := by rw [mul_assoc]
      _ = 0 := by rw [h, zero_mul]
  have h2 := congrArg BitVec.toNat h1
  rw [BitVec.toNat_ofNat, Nat.mod_eq_of_lt hq] at h2
  exact absurd h2 hpos.ne'

/-- From `q * DELTA` the loop makes exactly `q` rounds. -/
theorem decryptLoop_eq (q : ℕ) (hq : q < 2 ^ 64) : ∀ data : List Word, data.length = n →
    decryptLoop key (BitVec.ofNat 64 q * delta) data (data.getD 0 0) = undoAll (rounds key hn q) data := by
  induction q with
  | zero => intro data _; rw [decryptLoop, if_pos (by rfl)]; rfl
  | succ q ih =>
    intro data hlen
    have hsum : BitVec.ofNat 64 (q + 1) * delta - delta = BitVec.ofNat 64 q * delta := by
      rw [ofNat_succ_mul_delta, add_sub_cancel_right]
    rw [decryptLoop, if_neg (ofNat_mul_delta_ne_zero (by omega) hq), decryptRound_eq key hn _ hlen]
    simp only [hsum]
    rw [ih (by omega) _ (by rw [length_undoAll, hlen]), rounds, undoAll_append]

/-- **`TEADecrypt` ends after the `6 + 52 / n` rounds of `TEAEncrypt`, undone.** -/
theorem teaDecrypt_eq {data : List Word} (hlen : data.length = n) :
    teaDecrypt data key = undoAll (rounds key hn (6 + 52 / n)) data := by
  have hdiv : 52 / n ≤ 52 := Nat.div_le_self _ _
  rw [teaDecrypt, if_neg (by omega), hlen, decryptLoop_eq key hn _ (by omega) _ hlen]

end Cells

@[simp] theorem length_teaEncrypt (key : KeyArray) {data : List Word} (hn : 2 ≤ data.length) :
    (teaEncrypt data key).length = data.length := by
  rw [teaEncrypt_eq key hn rfl, length_applyAll]

@[simp] theorem length_teaDecrypt (key : KeyArray) {data : List Word} (hn : 2 ≤ data.length) :
    (teaDecrypt data key).length = data.length := by
  rw [teaDecrypt_eq key hn rfl, length_undoAll]

/-- Decrypting a block just encrypted. -/
theorem teaDecrypt_teaEncrypt (key : KeyArray) {data : List Word} (hn : 2 ≤ data.length) :
    teaDecrypt (teaEncrypt data key) key = data := by
  rw [teaDecrypt_eq key hn (length_teaEncrypt key hn), teaEncrypt_eq key hn rfl, undoAll_applyAll]

/-- Encrypting a block just decrypted. -/
theorem teaEncrypt_teaDecrypt (key : KeyArray) {data : List Word} (hn : 2 ≤ data.length) :
    teaEncrypt (teaDecrypt data key) key = data := by
  rw [teaEncrypt_eq key hn (length_teaDecrypt key hn), teaDecrypt_eq key hn rfl, applyAll_undoAll]

/-! ### The loop that waits for zero -/

/-- What the loop `while (sum != 0)` carries from one turn to the next. -/
structure DecryptState where
  /-- `sum`. -/
  sum : Word
  /-- `data`. -/
  data : List Word
  /-- `y`. -/
  y : Word

/-- The body of the loop. -/
def decryptBody (key : KeyArray) (s : DecryptState) : DecryptState where
  sum := s.sum - delta
  data := (decryptRound key s.sum s.data s.y).1
  y := (decryptRound key s.sum s.data s.y).2

/-- Where the loop starts. -/
def decryptStart (data : List Word) : DecryptState :=
  ⟨BitVec.ofNat 64 (6 + 52 / data.length) * delta, data, data.getD 0 0⟩

/-- The loop makes exactly `q` turns: its test holds before each of them and fails after the
last, where `TEADecrypt` returns the block as it then is. -/
def MakesRounds (key : KeyArray) (data : List Word) (q : ℕ) : Prop :=
  (∀ j < q, ((decryptBody key)^[j] (decryptStart data)).sum ≠ 0) ∧
    ((decryptBody key)^[q] (decryptStart data)).sum = 0 ∧
    teaDecrypt data key = ((decryptBody key)^[q] (decryptStart data)).data

theorem sum_iterate_decryptBody (key : KeyArray) (j : ℕ) : ∀ {q : ℕ} {s : DecryptState}, j ≤ q →
    s.sum = BitVec.ofNat 64 q * delta → ((decryptBody key)^[j] s).sum = BitVec.ofNat 64 (q - j) * delta := by
  induction j with
  | zero => intro q s _ hs; exact hs
  | succ j ih =>
    intro q s hj hs
    obtain ⟨q, rfl⟩ : ∃ m, q = m + 1 := ⟨q - 1, by omega⟩
    rw [Function.iterate_succ_apply, Nat.add_sub_add_right]
    exact ih (by omega) (by rw [decryptBody, hs, ofNat_succ_mul_delta, add_sub_cancel_right])

theorem decryptLoop_eq_iterate (key : KeyArray) (q : ℕ) (hq : q < 2 ^ 64) : ∀ s : DecryptState,
    s.sum = BitVec.ofNat 64 q * delta → decryptLoop key s.sum s.data s.y = ((decryptBody key)^[q] s).data := by
  induction q with
  | zero => intro s hs; rw [decryptLoop, if_pos (by rw [hs]; exact zero_mul _)]; rfl
  | succ q ih =>
    intro s hs
    have hnext : (decryptBody key s).sum = BitVec.ofNat 64 q * delta := by
      rw [decryptBody, hs, ofNat_succ_mul_delta, add_sub_cancel_right]
    rw [decryptLoop, if_neg (by rw [hs]; exact ofNat_mul_delta_ne_zero (by omega) hq),
      Function.iterate_succ_apply, ← ih (by omega) _ hnext]
    rfl

/-- The loop ends for a block of any length, after the rounds of `TEAEncrypt`. -/
theorem makesRounds (key : KeyArray) {data : List Word} (hne : data ≠ []) :
    MakesRounds key data (6 + 52 / data.length) := by
  have hpos := List.length_pos_iff.mpr hne
  have hdiv : 52 / data.length ≤ 52 := Nat.div_le_self _ _
  refine ⟨fun j hj => ?_, ?_, ?_⟩
  · rw [sum_iterate_decryptBody key j hj.le rfl]
    exact ofNat_mul_delta_ne_zero (by omega) (by omega)
  · rw [sum_iterate_decryptBody key _ le_rfl rfl, Nat.sub_self]
    exact zero_mul _
  · rw [teaDecrypt, if_neg (by omega)]
    exact decryptLoop_eq_iterate key _ (by omega) (decryptStart data) rfl

/-- **The block transformation is a bijection**: on blocks of two words or more the two
directions undo each other, and for every length `TEADecrypt` makes the rounds of
`TEAEncrypt`, no more and no fewer. -/
theorem tea_bijective (key : KeyArray) :
    (∀ data : List Word, 2 ≤ data.length →
      teaDecrypt (teaEncrypt data key) key = data ∧ teaEncrypt (teaDecrypt data key) key = data) ∧
    ∀ data : List Word, data ≠ [] → MakesRounds key data (6 + 52 / data.length) :=
  ⟨fun _ hn => ⟨teaDecrypt_teaEncrypt key hn, teaEncrypt_teaDecrypt key hn⟩, fun _ hne => makesRounds key hne⟩

theorem tea_bijective_pair :
    (teaDecrypt (teaEncrypt [7, 9] (keyArray [])) (keyArray []) = [7, 9] ∧
      teaEncrypt (teaDecrypt [7, 9] (keyArray [])) (keyArray []) = [7, 9]) ∧ MakesRounds (keyArray []) [5] 58 :=
  ⟨(tea_bijective (keyArray [])).1 [7, 9] (by decide), (tea_bijective (keyArray [])).2 [5] (by decide)⟩

end GpsTracker.XXTEA
