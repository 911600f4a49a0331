import GpsTracker.Ios.XXTEA

/-!
# The round trip of the app's cipher

`encrypt` puts the number of bytes behind the words of the data, in 32 bits, and
`decrypt` takes so many bytes of what it gets back, if that number is one that the
words could have come from: at most three bytes fewer than there are. What the bytes
that are left out contain is not looked at (`decrypt_eq_some_iff`). So the round trip
gives all data back whose length fits the word (`decrypt_of_encrypt`).

Where the words are not stored in the order of the bytes, loops take the place of
`memcpy`; they make the same arrays (`portable_eq`).
-/

namespace GpsTracker.Ios.XXTEA

/-! ### Bytes and words -/

/-- Bit `j` of the byte at `i`. -/
theorem getLsbD_byte (w : Word) (i j : ℕ) :
    (byte w i).toBitVec.getLsbD j = (decide (j < 8) && w.getLsbD (8 * i + j)) := by
  rw [byte, BitVec.getLsbD_setWidth, BitVec.getLsbD_ushiftRight]

theorem word_byte (w : Word) : word (byte w 0) (byte w 1) (byte w 2) (byte w 3) = w := by
  refine BitVec.eq_of_getLsbD_eq fun i hi => ?_
  simp only [word, BitVec.getLsbD_append, getLsbD_byte]
  grind

theorem byte_word (b0 b1 b2 b3 : UInt8) {i : ℕ} (hi : i < 4) :
    byte (word b0 b1 b2 b3) i = [b0, b1, b2, b3].getD i 0 := by
  rw [← UInt8.toBitVec_inj]
  refine BitVec.eq_of_getLsbD_eq fun j hj => ?_
  rw [getLsbD_byte, word, BitVec.getLsbD_append, BitVec.getLsbD_append, BitVec.getLsbD_append]
  match i with
  | 0 => grind
  | 1 => grind
  | 2 => grind
  | 3 => grind

theorem bytes_cons (w : Word) (ws : List Word) :
    bytes (w :: ws) = byte w 0 :: byte w 1 :: byte w 2 :: byte w 3 :: bytes ws := rfl

theorem bytes_append (ws ws' : List Word) : bytes (ws ++ ws') = bytes ws ++ bytes ws' := List.flatMap_append

@[simp] theorem length_bytes (ws : List Word) : (bytes ws).length = 4 * ws.length := by
  induction ws with
  | nil => rfl
  | cons w ws ih =>
    simp only [bytes_cons, List.length_cons, ih]
    omega

/-- The words of the bytes of words. -/
@[simp] theorem words_bytes (ws : List Word) : words (bytes ws) = ws := by
  induction ws with
  | nil => rfl
  | cons w ws ih => rw [bytes_cons, words, word_byte, ih]

theorem bytes_word_cons (b0 b1 b2 b3 : UInt8) (ws : List Word) :
    bytes (word b0 b1 b2 b3 :: ws) = b0 :: b1 :: b2 :: b3 :: bytes ws := by
  rw [bytes_cons, byte_word _ _ _ _ (by decide), byte_word _ _ _ _ (by decide), byte_word _ _ _ _ (by decide),
    byte_word _ _ _ _ (by decide)]
  rfl

/-- **The words are the bytes, filled up with zeros.** -/
theorem bytes_words (data : List UInt8) :
    bytes (words data) = data ++ List.replicate (4 * (words data).length - data.length) 0 := by
  fun_induction words data with
  | case1 => rfl
  | case2 b0 => rw [bytes_word_cons]; rfl
  | case3 b0 b1 => rw [bytes_word_cons]; rfl
  | case4 b0 b1 b2 => rw [bytes_word_cons]; rfl
  | case5 b0 b1 b2 b3 data ih =>
    rw [bytes_word_cons, ih, List.length_cons]
    simp only [List.length_cons, List.cons_append]
    rw [show 4 * ((words data).length + 1) - (data.length + 1 + 1 + 1 + 1) = 4 * (words data).length - data.length by omega]

theorem take_bytes_words (data : List UInt8) : (bytes (words data)).take data.length = data := by
  rw [bytes_words, List.take_left]

/-- Whole words stay. -/
theorem bytes_words_of_dvd {data : List UInt8} (h : data.length % 4 = 0) : bytes (words data) = data := by
  rw [bytes_words, length_words, show 4 * ((data.length + 3) / 4) - data.length = 0 by omega,
    List.replicate_zero, List.append_nil]

/-! ### The number of bytes -/

theorem sizeSub_of_le {a b : ℕ} (h : b ≤ a) (ha : a < 2 ^ 64) : sizeSub a b = a - b := by
  rw [sizeSub]
  omega

/-- The number behind the words is taken when the words could have come from so many bytes. -/
theorem toUByteArray_concat (ws : List Word) (m : Word) (hlt : ws.length < 2 ^ 32) (out : List UInt8) :
    toUByteArray (ws ++ [m]) true = some out ↔
      ws ≠ [] ∧ m.toNat ≤ 4 * ws.length ∧ 4 * ws.length < m.toNat + 4 ∧ (bytes ws).take m.toNat = out := by
  have hlen : (ws ++ [m]).length <<< 2 = 4 * ws.length + 4 := by
    rw [List.length_append, List.length_singleton, Nat.shiftLeft_eq]
    omega
  have hlast : (ws ++ [m]).getD ((ws ++ [m]).length - 1) 0 = m := by simp
  have htake (h : m.toNat ≤ 4 * ws.length) : (bytes (ws ++ [m])).take m.toNat = (bytes ws).take m.toNat := by
    rw [bytes_append, List.take_append_of_le_length (by rwa [length_bytes])]
  have hm := m.isLt
  simp only [toUByteArray, byteCount, if_true, hlen, hlast]
  rw [sizeSub_of_le (by omega : 4 ≤ 4 * ws.length + 4) (by omega), Nat.add_sub_cancel]
  rcases List.eq_nil_or_concat ws with rfl | ⟨init, last, rfl⟩
  · -- the difference of three wraps
    rw [if_pos (Or.inl (by rw [sizeSub]; simp only [List.length_nil]; omega))]
    simp
  · rw [sizeSub_of_le (by simp; omega) (by omega)]
    have hne : init.concat last ≠ [] := by simp
    generalize init.concat last = ws at *
    have hpos := List.length_pos_iff.mpr hne
    split_ifs with hreject
    · simp only [Option.map_none, reduceCtorEq, false_iff, not_and]
      omega
    · rw [Option.map_some, Option.some_inj, htake (by omega)]
      exact ⟨fun h => ⟨hne, by omega, by omega, h⟩, fun h => h.2.2.2⟩

/-! ### Encrypting and decrypting -/

/-- The block that is encrypted for some bytes, with what fills the last word. -/
def sealed (out pad : List UInt8) : List Word := words (out ++ pad) ++ [BitVec.ofNat 32 out.length]

theorem length_sealed (out pad : List UInt8) :
    (sealed out pad).length = (out.length + pad.length + 3) / 4 + 1 := by
  rw [sealed, List.length_append, length_words, List.length_append, List.length_singleton]

/-- What `encrypt` returns. -/
theorem encrypt_eq {data : List UInt8} (hne : data ≠ []) (key : List UInt8) :
    encrypt data key = some ((bytes (uintEncrypt (sealed data []) (keyArray key))).take
      ((uintEncrypt (sealed data []) (keyArray key)).length <<< 2)) := by
  rw [encrypt, ubyteEncrypt, if_neg (List.length_pos_iff.mpr hne).ne', sealed, List.append_nil]
  rfl

theorem encrypt_eq_bytes {data : List UInt8} (hne : data ≠ []) (key : List UInt8) :
    encrypt data key = some (bytes (uintEncrypt (sealed data []) (keyArray key))) := by
  rw [encrypt_eq hne, List.take_of_length_le]
  rw [length_bytes, Nat.shiftLeft_eq]
  omega

theorem decrypt_eq {data : List UInt8} (hne : data ≠ []) (key : List UInt8) :
    decrypt data key = toUByteArray (uintDecrypt (words data) (keyArray key)) true := by
  rw [decrypt, ubyteDecrypt, if_neg (List.length_pos_iff.mpr hne).ne']
  rfl

/-- A block of one word is left as it is. -/
theorem uintDecrypt_singleton (w : Word) (key : KeyArray) : uintDecrypt [w] key = [w] := by
  rw [uintDecrypt, List.length_singleton, lastIndex_eq (by decide) (by decide)]
  rfl

/-- **What `decrypt` accepts**: the encryptions of the bytes it returns, whatever bytes fill the
last word. -/
theorem decrypt_eq_some_iff {data : List UInt8} (hlt : data.length ≤ 4 * (2 ^ 32 - 1)) (key out : List UInt8) :
    decrypt data key = some out ↔ out ≠ [] ∧ out.length < 2 ^ 32 ∧ ∃ pad : List UInt8, pad.length < 4 ∧
      (out.length + pad.length) % 4 = 0 ∧ words data = uintEncrypt (sealed out pad) (keyArray key) := by
  rcases List.eq_nil_or_concat data with rfl | hdata
  · -- nothing is decrypted, and nothing encrypts to nothing
    refine iff_of_false nofun ?_
    rintro ⟨hne, hout, pad, hpad, -, hwords⟩
    have hlen := length_sealed out pad
    have hpos := List.length_pos_iff.mpr hne
    have := length_uintEncrypt (keyArray key) (by omega : 2 ≤ (sealed out pad).length) (by omega)
    rw [← hwords, hlen] at this
    exact absurd this (Nat.zero_ne_add_one _)
  · have hne : data ≠ [] := by
      obtain ⟨init, last, rfl⟩ := hdata
      simp
    have hwords : (words data).length < 2 ^ 32 ∧ 0 < (words data).length := by
      have := List.length_pos_iff.mpr hne
      rw [length_words]
      omega
    rw [decrypt_eq hne]
    constructor
    · intro h
      have hsome : 2 ≤ (words data).length := by
        by_contra hone
        obtain ⟨w, hw⟩ := List.length_eq_one_iff.mp (by omega : (words data).length = 1)
        rw [hw, uintDecrypt_singleton] at h
        exact ((toUByteArray_concat [] w (by decide) out).mp h).1 rfl
      have hlen := length_uintDecrypt (keyArray key) hsome hwords.1
      have hback := uintEncrypt_uintDecrypt (keyArray key) hsome hwords.1
      generalize uintDecrypt (words data) (keyArray key) = block at h hlen hback
      obtain ⟨ws, m, rfl⟩ : ∃ ws m, block = ws ++ [m] := by
        rcases List.eq_nil_or_concat block with rfl | ⟨ws, m, rfl⟩
        · rw [List.length_nil] at hlen
          omega
        · exact ⟨ws, m, List.concat_eq_append⟩
      rw [List.length_append, List.length_singleton] at hlen
      obtain ⟨hws, hle, hlate, htake⟩ := (toUByteArray_concat ws m (by omega) out).mp h
      have hout : out.length = m.toNat := by
        rw [← htake, List.length_take, length_bytes]
        omega
      have hpad : ((bytes ws).drop m.toNat).length = 4 * ws.length - m.toNat := by rw [List.length_drop, length_bytes]
      have hsealed : sealed out ((bytes ws).drop m.toNat) = ws ++ [m] := by
        rw [sealed, ← htake, List.take_append_drop, words_bytes, htake, hout, BitVec.ofNat_toNat,
          BitVec.setWidth_eq]
      have hpos := List.length_pos_iff.mpr hws
      refine ⟨List.ne_nil_of_length_pos (by omega), by rw [hout]; exact m.isLt,
        (bytes ws).drop m.toNat, by omega, by omega, ?_⟩
      rw [hsealed, hback]
    · rintro ⟨hout, hmax, pad, hpad, hmod, h⟩
      have hpos := List.length_pos_iff.mpr hout
      have hlen := length_sealed out pad
      have hm : (BitVec.ofNat 32 out.length).toNat = out.length := by
        rw [BitVec.toNat_ofNat, Nat.mod_eq_of_lt hmax]
      have hcount : (words (out ++ pad)).length = (out.length + pad.length + 3) / 4 := by
        rw [length_words, List.length_append]
      rw [h, uintDecrypt_uintEncrypt _ (by omega) (by omega), sealed, toUByteArray_concat _ _ (by omega), hm]
      refine ⟨List.ne_nil_of_length_pos (by omega), by omega, by omega, ?_⟩
      rw [bytes_words_of_dvd (by rw [List.length_append]; exact hmod), List.take_left]

theorem decrypt_eq_some_iff_five :
    decrypt [83, 114, 143, 215, 20, 24, 160, 185, 39, 209, 154, 134] [7, 8, 9] = some [1, 2, 3, 4, 5] :=
  (decrypt_eq_some_iff (by decide) [7, 8, 9] [1, 2, 3, 4, 5]).mpr
    ⟨by decide, by decide, [0, 0, 0], by decide, by decide, by decide⟩

/-- **The round trip**: whole words and one more, and `decrypt` gives the data back if their number
fits 32 bits; else it gives nothing. -/
theorem decrypt_of_encrypt {data : List UInt8} (hne : data ≠ [])
    (hlt : data.length ≤ 4 * (2 ^ 32 - 2)) (key : List UInt8) :
    ∃ code, encrypt data key = some code ∧ code.length = 4 * ((data.length + 3) / 4 + 1) ∧
      decrypt code key = if data.length < 2 ^ 32 then some data else none := by
  have hpos := List.length_pos_iff.mpr hne
  have hlen : (sealed data []).length = (data.length + 3) / 4 + 1 := length_sealed data []
  have henc := length_uintEncrypt (keyArray key) (by omega : 2 ≤ (sealed data []).length) (by omega)
  have hcode : (bytes (uintEncrypt (sealed data []) (keyArray key))).length = 4 * ((data.length + 3) / 4 + 1) := by
    rw [length_bytes, henc, hlen]
  refine ⟨_, encrypt_eq_bytes hne key, hcode, ?_⟩
  have hcount : (words data).length = (data.length + 3) / 4 := length_words data
  have hm : (BitVec.ofNat 32 data.length).toNat = data.length % 2 ^ 32 := BitVec.toNat_ofNat ..
  rw [decrypt_eq (List.ne_nil_of_length_pos (by omega)), words_bytes,
    uintDecrypt_uintEncrypt _ (by omega) (by omega), sealed, List.append_nil]
  split_ifs with hfits
  · refine (toUByteArray_concat _ _ (by omega) _).mpr ⟨List.ne_nil_of_length_pos (by omega), ?_, ?_, ?_⟩
    · rw [hm]
      omega
    · rw [hm]
      omega
    · rw [hm, Nat.mod_eq_of_lt hfits, take_bytes_words]
  · rw [Option.eq_none_iff_forall_not_mem]
    intro out hout
    obtain ⟨-, -, hlate, -⟩ := (toUByteArray_concat _ _ (by omega) _).mp hout
    rw [hm] at hlate
    omega

theorem decrypt_of_encrypt_five : ∃ code, encrypt [1, 2, 3, 4, 5] [7, 8, 9] = some code ∧ code.length = 12 ∧
    decrypt code [7, 8, 9] = some [1, 2, 3, 4, 5] :=
  decrypt_of_encrypt (by decide) (by decide) [7, 8, 9]

/-! ### The other order of bytes -/

/-- The loop that starts a word later leaves the words before. -/
theorem orBytes_cons (w : Word) (data : List UInt8) : ∀ (i : ℕ) (out : List Word),
    orBytes data (i + 4) (w :: out) = w :: orBytes data i out := by
  induction data with
  | nil => exact fun _ _ => rfl
  | cons b data ih =>
    intro i out
    have hshift : (i + 4) >>> 2 = i >>> 2 + 1 := by
      rw [Nat.shiftRight_eq_div_pow, Nat.shiftRight_eq_div_pow]
      omega
    have hmask : (i + 4) &&& 3 = i &&& 3 := by
      rw [Nat.and_two_pow_sub_one_eq_mod (i + 4) 2, Nat.and_two_pow_sub_one_eq_mod i 2]
      omega
    rw [orBytes, hshift, hmask, List.getD_cons_succ, List.set_cons_succ, Nat.add_right_comm, ih]
    rfl

theorem or_bytes (b0 b1 b2 b3 : UInt8) :
    b0.toBitVec.setWidth 32 ||| b1.toBitVec.setWidth 32 <<< 8 ||| b2.toBitVec.setWidth 32 <<< 16 |||
      b3.toBitVec.setWidth 32 <<< 24 = word b0 b1 b2 b3 := by
  refine BitVec.eq_of_getLsbD_eq fun i hi => ?_
  simp only [word, BitVec.getLsbD_or, BitVec.getLsbD_append, BitVec.getLsbD_setWidth, BitVec.getLsbD_shiftLeft]
  grind

/-- The loop makes the words, and leaves what stands behind them. -/
theorem orBytes_eq (data : List UInt8) (rest : List Word) :
    orBytes data 0 (List.replicate (words data).length 0 ++ rest) = words data ++ rest := by
  fun_induction words data with
  | case1 => rfl
  | case2 b0 =>
    have hword := or_bytes b0 0 0 0
    simp [orBytes, ← hword]
  | case3 b0 b1 =>
    have hword := or_bytes b0 b1 0 0
    simp [orBytes, ← hword]
  | case4 b0 b1 b2 =>
    have hword := or_bytes b0 b1 b2 0
    simp [orBytes, ← hword]
  | case5 b0 b1 b2 b3 data ih =>
    have hword := or_bytes b0 b1 b2 b3
    rw [List.length_cons, List.replicate_succ, List.cons_append, List.cons_append, ← ih, ← orBytes_cons]
    simp [orBytes, ← hword]

theorem wordCount_eq (data : List UInt8) : wordCount data.length = (words data).length := by
  have hand : data.length &&& 3 = data.length % 4 := Nat.and_two_pow_sub_one_eq_mod _ 2
  rw [wordCount, length_words, hand, Nat.shiftRight_eq_div_pow]
  split_ifs <;> omega

/-- A byte of the words. -/
theorem getD_bytes (ws : List Word) : ∀ i, (bytes ws).getD i 0 = byte (ws.getD (i / 4) 0) (i % 4) := by
  induction ws with
  | nil =>
    intro i
    simp [byte]
  | cons w ws ih =>
    intro i
    match i with
    | 0 => rfl
    | 1 => rfl
    | 2 => rfl
    | 3 => rfl
    | i + 4 =>
      rw [Nat.add_div_right _ (by decide), Nat.add_mod_right, List.getD_cons_succ, ← ih i]
      rfl

theorem byteCount_le {data : List Word} (hlt : data.length < 2 ^ 32) {incLen : Bool} {n : ℕ}
    (h : byteCount data incLen = some n) : n ≤ 4 * data.length := by
  have hlen : data.length <<< 2 = 4 * data.length := by
    rw [Nat.shiftLeft_eq]
    omega
  cases incLen with
  | false =>
    rw [byteCount, if_neg Bool.false_ne_true, hlen] at h
    exact (Option.some.inj h).ge
  | true =>
    rw [byteCount, if_pos rfl, hlen] at h
    simp only at h
    split_ifs at h with hreject
    obtain rfl := Option.some.inj h
    cases data with
    | nil => exact le_rfl
    | cons w ws =>
      have hsub : sizeSub (4 * (w :: ws).length) 4 = 4 * (w :: ws).length - 4 :=
        sizeSub_of_le (by rw [List.length_cons]; omega) (by omega)
      omega

/-- The loop of `xxtea_to_ubyte_array` copies the bytes. -/
theorem take_bytes {ws : List Word} {n : ℕ} (hn : n ≤ 4 * ws.length) : (bytes ws).take n =
    (List.range n).map fun i => UInt8.ofBitVec ((ws.getD (i >>> 2) 0 >>> ((i &&& 3) <<< 3)).setWidth 8) := by
  refine List.ext_getElem (by simp [hn]) fun i hi hi' => ?_
  have hlt : i < (bytes ws).length := by
    rw [List.length_take] at hi
    omega
  have hand : i &&& 3 = i % 4 := Nat.and_two_pow_sub_one_eq_mod i 2
  rw [List.getElem_take, ← List.getD_eq_getElem _ 0 hlt, getD_bytes, List.getElem_map, List.getElem_range, hand,
    Nat.shiftRight_eq_div_pow, Nat.shiftLeft_eq, Nat.mul_comm (i % 4), byte]

/-- **The loops make the arrays that `memcpy` makes.** -/
theorem portable_eq (incLen : Bool) : (∀ data, toUIntArrayPortable data incLen = toUIntArray data incLen) ∧
    ∀ data : List Word, data.length < 2 ^ 32 → toUByteArrayPortable data incLen = toUByteArray data incLen := by
  constructor
  · intro data
    rw [toUIntArrayPortable, toUIntArray, wordCount_eq]
    split_ifs
    · exact orBytes_eq data _
    · have hloop := orBytes_eq data []
      rwa [List.append_nil, List.append_nil] at hloop
  · intro data hlt
    rw [toUByteArrayPortable, toUByteArray]
    refine Option.map_congr fun n hn => ?_
    exact (take_bytes (byteCount_le hlt hn)).symm

theorem portable_eq_pair : toUIntArrayPortable [1, 2, 3, 4, 5] true = toUIntArray [1, 2, 3, 4, 5] true ∧
    toUByteArrayPortable [0x04030201, 0x00000605, 6] true = toUByteArray [0x04030201, 0x00000605, 6] true :=
  ⟨(portable_eq true).1 _, (portable_eq true).2 _ (by decide)⟩

end GpsTracker.Ios.XXTEA
