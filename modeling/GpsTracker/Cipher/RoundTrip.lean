import GpsTracker.Cipher.Rounds

/-!
# The text round trip of XXTEA

`Decrypt` undoes `Encrypt` stage by stage: the hexadecimal text reads back as
the words it was printed from (`toLongArrayHex_toHexString`), the rounds undo
each other (`teaDecrypt_teaEncrypt`), the words unpack to the bytes they were
packed from, filled up with zeros (`flatMap_long2bytes_toLongArray`), and
dropping the trailing zeros leaves the bytes of the text exactly when the text
does not itself end in `U+0000` (`toByteArray_toLongArray`).
-/

namespace GpsTracker.XXTEA

open GpsTracker.Java

/-! ### Packing -/

/-- The base-256 digits of packed bytes are the bytes. -/
theorem map_ofDigits (bs : List Byte) :
    (List.range bs.length).map (fun i => UInt8.ofNat (Nat.ofDigits 256 (bs.map UInt8.toNat) / 256 ^ i)) = bs := by
  induction bs with
  | nil => rfl
  | cons b bs ih =>
    have hb := b.toNat_lt
    rw [List.length_cons, List.range_succ_eq_map, List.map_cons, List.map_map, List.map_cons, Nat.ofDigits_cons]
    congr 1
    · rw [← UInt8.toNat_inj, UInt8.toNat_ofNat', pow_zero, Nat.div_one]
      omega
    · conv_rhs => rw [← ih]
      refine List.map_congr_left fun i _ => ?_
      have hdiv : (b.toNat + 256 * Nat.ofDigits 256 (bs.map UInt8.toNat)) / 256
          = Nat.ofDigits 256 (bs.map UInt8.toNat) := by omega
      rw [Function.comp, Nat.succ_eq_add_one, pow_succ', ← Nat.div_div_eq_div_mul, hdiv]

/-- A word is unpacked to the eight bytes it was packed from. -/
theorem long2bytes_bytes2long {bs : List Byte} (h : bs.length = 8) : long2bytes (bytes2long bs 0) = bs := by
  have hlt : Nat.ofDigits 256 (bs.map UInt8.toNat) < 2 ^ 64 := by
    have := Nat.ofDigits_lt_base_pow_length (b := 256) (l := bs.map UInt8.toNat) (by omega) (by
      intro x hx
      obtain ⟨b, -, rfl⟩ := List.mem_map.mp hx
      exact b.toNat_lt)
    rwa [List.length_map, h, show 256 ^ 8 = 2 ^ 64 by norm_num] at this
  rw [long2bytes, bytes2long, List.drop_zero, List.take_of_length_le h.le, BitVec.toNat_ofNat,
    Nat.mod_eq_of_lt hlt, ← h, map_ofDigits]

theorem bytes2long_eq (b : List Byte) (i : ℕ) : bytes2long b i = bytes2long ((b.drop i).take 8) 0 := by
  rw [bytes2long, bytes2long, List.drop_zero, List.take_take, Nat.min_self]

/-- The bytes filled up with zeros to whole words. -/
def filled (data : List Byte) : List Byte := data ++ List.replicate (wordCount data.length * 8 - data.length) 0

theorem length_filled (data : List Byte) : (filled data).length = wordCount data.length * 8 := by
  rw [filled, List.length_append, List.length_replicate, wordCount]
  split_ifs <;> omega

/-- Every word is packed from its eight bytes of the filled array: only the last one
reaches into the filling. -/
theorem toLongArray_eq (data : List Byte) (h : data ≠ []) : toLongArray data h =
    (List.range (wordCount data.length)).map fun i => bytes2long (((filled data).drop (i * 8)).take 8) 0 := by
  have hpos : 1 ≤ wordCount data.length ∧ (wordCount data.length - 1) * 8 ≤ data.length ∧
      data.length ≤ wordCount data.length * 8 := by
    have := List.length_pos_iff.mpr h
    rw [wordCount]
    split_ifs <;> omega
  obtain ⟨n, hn⟩ : ∃ n, wordCount data.length = n + 1 := ⟨wordCount data.length - 1, by omega⟩
  rw [hn] at hpos
  rw [toLongArray, lastBuffer, hn, List.range_succ, List.map_append, List.map_singleton]
  simp only [Nat.add_sub_cancel] at hpos ⊢
  congr 1
  · refine List.map_congr_left fun i hi => ?_
    have hi' := List.mem_range.mp hi
    rw [bytes2long_eq, filled, List.drop_append_of_le_length (by omega),
      List.take_append_of_le_length (by simp; omega)]
  · rw [filled, hn, List.drop_append_of_le_length (by omega), List.take_of_length_le (by simp; omega),
      List.length_drop]
    rw [show 8 - (data.length - n * 8) = (n + 1) * 8 - data.length by omega]

theorem flatMap_take_drop {α : Type*} (l : List α) (k n : ℕ) :
    ((List.range n).flatMap fun i => (l.drop (i * k)).take k) = l.take (n * k) := by
  induction n with
  | zero => simp
  | succ n ih =>
    rw [List.range_succ, List.flatMap_append, ih, List.flatMap_singleton, Nat.succ_mul, List.take_add]

/-- **Unpacking the words gives the bytes back, filled up with zeros.** -/
theorem flatMap_long2bytes_toLongArray (data : List Byte) (h : data ≠ []) :
    (toLongArray data h).flatMap long2bytes = filled data := by
  rw [toLongArray_eq, List.flatMap_map]
  have hword : ∀ i ∈ List.range (wordCount data.length),
      long2bytes (bytes2long (((filled data).drop (i * 8)).take 8) 0) = ((filled data).drop (i * 8)).take 8 := by
    intro i hi
    have hi' := List.mem_range.mp hi
    refine long2bytes_bytes2long ?_
    rw [List.length_take, List.length_drop, length_filled]
    omega
  rw [List.flatMap_congr hword, flatMap_take_drop, List.take_of_length_le (length_filled data).le]

/-- Trailing zeros are dropped down to a byte that is not zero. -/
theorem dropTrailing_replicate (k : ℕ) {b : Byte} (hb : b ≠ 0) (bs : List Byte) :
    dropTrailing (List.replicate k 0 ++ b :: bs) = .ok (b :: bs) := by
  induction k with
  | zero => rw [List.replicate_zero, List.nil_append, dropTrailing, if_neg hb]
  | succ k ih => rw [List.replicate_succ, List.cons_append, dropTrailing, if_pos rfl, ih]

/-- **`ToByteArray` returns what was packed, up to its last byte that is not zero.** -/
theorem toByteArray_toLongArray {bs : List Byte} {b : Byte} (hb : b ≠ 0) (k : ℕ)
    (h : bs ++ [b] ++ List.replicate k 0 ≠ []) :
    toByteArray (toLongArray (bs ++ [b] ++ List.replicate k 0) h) = .ok (bs ++ [b]) := by
  rw [toByteArray, flatMap_long2bytes_toLongArray, filled, List.append_assoc _ _ (List.replicate _ 0),
    List.replicate_append_replicate, List.reverse_append, List.reverse_replicate, List.reverse_append,
    List.reverse_singleton, List.singleton_append, dropTrailing_replicate _ hb]
  simp [Except.map]

/-! ### Hexadecimal texts -/

/-- The sixteen digits a word is printed as. -/
def wordDigits (w : Word) : List ℕ := List.replicate (16 - (hexDigits w.toNat).length) 0 ++ hexDigits w.toNat

theorem wordDigits_lt (w : Word) : ∀ d ∈ wordDigits w, d < 16 := by
  intro d hd
  rcases List.mem_append.mp hd with hd | hd
  · rw [List.eq_of_mem_replicate hd]; omega
  · exact hexDigits_lt _ d hd

theorem length_wordDigits (w : Word) : (wordDigits w).length = 16 := by
  have hlen : (hexDigits w.toNat).length ≤ 16 := length_hexDigits_le (by omega) (by have := w.isLt; omega)
  rw [wordDigits, List.length_append, List.length_replicate]
  omega

/-- A word is printed as its sixteen digits. -/
theorem padLeft_natToHex (w : Word) : padLeft (natToHex w.toNat) 16 = (wordDigits w).map hexUnit := by
  rw [padLeft_eq, natToHex, wordDigits, List.length_map, List.map_append, List.map_replicate]
  rfl

theorem parseLong_padLeft (w : Word) : parseLong (padLeft (natToHex w.toNat) 16) = .ok w := by
  have hne : wordDigits w ≠ [] := by
    intro h
    have := length_wordDigits w
    rw [h] at this
    exact absurd this (by decide)
  rw [padLeft_natToHex, parseLong_map_hexUnit (wordDigits_lt w) hne, wordDigits, digitsValue_hexDigits,
    BitVec.ofNat_toNat, BitVec.setWidth_eq]

theorem length_padLeft_natToHex (w : Word) : (padLeft (natToHex w.toNat) 16).length = 16 := by
  rw [padLeft_natToHex, List.length_map, length_wordDigits]

theorem length_toHexString (ws : List Word) : (toHexString ws).length = ws.length * 16 := by
  induction ws with
  | nil => rfl
  | cons w ws ih =>
    rw [toHexString, List.flatMap_cons, List.length_append, length_padLeft_natToHex, ← toHexString, ih,
      List.length_cons]
    omega

/-- The digits of word `i` of a printed block. -/
theorem take_drop_toHexString (ws : List Word) : ∀ i (hi : i < ws.length),
    ((toHexString ws).drop (i * 16)).take 16 = padLeft (natToHex ws[i].toNat) 16 := by
  induction ws with
  | nil => intro i hi; exact absurd hi (Nat.not_lt_zero i)
  | cons w ws ih =>
    intro i hi
    have hw := length_padLeft_natToHex w
    rw [toHexString, List.flatMap_cons, ← toHexString]
    cases i with
    | zero => rw [Nat.zero_mul, List.drop_zero, List.take_left' hw]; rfl
    | succ i =>
      rw [show (i + 1) * 16 = (padLeft (natToHex w.toNat) 16).length + i * 16 by omega,
        List.drop_length_add_append]
      exact ih i (Nat.lt_of_succ_lt_succ hi)

theorem mapM_ok {α β : Type} {f : α → Except Exn β} {g : α → β} (l : List α) (h : ∀ a ∈ l, f a = .ok (g a)) :
    l.mapM f = .ok (l.map g) := by
  induction l with
  | nil => rfl
  | cons a l ih =>
    rw [List.mapM_cons, h a List.mem_cons_self, ih fun b hb => h b (List.mem_cons_of_mem a hb)]
    rfl

/-- **The printed words read back as themselves.** -/
theorem toLongArrayHex_toHexString (ws : List Word) : toLongArrayHex (toHexString ws) = .ok ws := by
  rw [toLongArrayHex, length_toHexString, Nat.mul_div_cancel _ (by omega),
    mapM_ok (g := fun i => ws.getD i 0)]
  · congr 1
    refine List.ext_getElem (by simp) fun i h1 h2 => ?_
    rw [List.getElem_map, List.getElem_range, List.getD_eq_getElem _ _ h2]
  · intro i hi
    have hi' := List.mem_range.mp hi
    rw [take_drop_toHexString ws i hi', parseLong_padLeft, List.getD_eq_getElem _ _ hi']

/-! ### Texts -/

/-- The last byte of a character other than `U+0000` is not zero. -/
theorem getLast_utf8EncodeChar {c : Char} (hc : c ≠ '\x00') :
    ∃ bs b, b ≠ 0 ∧ String.utf8EncodeChar c = bs ++ [b] := by
  have hv : c.val.toNat ≠ 0 := fun h => hc (Char.ext (UInt32.toNat_inj.mp h))
  have hne {n : ℕ} (h : n % 256 ≠ 0) : UInt8.ofNat n ≠ 0 := fun h0 => h (by
    rw [← UInt8.toNat_ofNat', h0]; rfl)
  simp only [String.utf8EncodeChar]
  split_ifs
  · exact ⟨[], _, hne (by omega), rfl⟩
  · exact ⟨[_], _, hne (by omega), rfl⟩
  · exact ⟨[_, _], _, hne (by omega), rfl⟩
  · exact ⟨[_, _, _], _, hne (by omega), rfl⟩

/-- What the cipher works on: the bytes of the text, then a zero for each character of
the padding. -/
theorem paddedBytes_utf16 (s : List Char) : ∃ k,
    paddedBytes (utf16 s) = s.flatMap String.utf8EncodeChar ++ List.replicate k 0 := by
  refine ⟨minLength - (utf16 s).length, ?_⟩
  rw [paddedBytes, padRight_eq, specialChar, utf16_append_replicate_nul, getBytes_utf16, List.flatMap_append]
  congr 1
  induction minLength - (utf16 s).length with
  | zero => rfl
  | succ k ih => rw [List.replicate_succ, List.flatMap_cons, ih]; rfl

/-- The bytes of a text that is not empty and does not end in `U+0000` end in a byte
that is not zero, before the zeros of the padding. -/
theorem paddedBytes_text {s : List Char} (hne : s ≠ []) (hlast : s.getLast? ≠ some '\x00') :
    ∃ bs b k, b ≠ 0 ∧ paddedBytes (utf16 s) = bs ++ [b] ++ List.replicate k 0 ∧ newString (bs ++ [b]) = utf16 s := by
  obtain ⟨s, c, rfl⟩ := (List.eq_nil_or_concat' s).resolve_left hne
  have hc : c ≠ '\x00' := by rintro rfl; exact hlast (by simp)
  obtain ⟨cs, b, hb, hcs⟩ := getLast_utf8EncodeChar hc
  obtain ⟨k, hbytes⟩ := paddedBytes_utf16 (s ++ [c])
  have htext : (s ++ [c]).flatMap String.utf8EncodeChar = s.flatMap String.utf8EncodeChar ++ cs ++ [b] := by
    rw [List.flatMap_append, List.flatMap_singleton, hcs, List.append_assoc]
  refine ⟨s.flatMap String.utf8EncodeChar ++ cs, b, k, hb, by rw [hbytes, htext], ?_⟩
  rw [← htext, ← getBytes_utf16, newString_getBytes]

/-- What `Decrypt` gives for an encrypted text: the text of its bytes up to the last one
that is not zero. -/
theorem decrypt_encrypt_bytes {data : JString} {bs : List Byte} {b : Byte} (hb : b ≠ 0) {n : ℕ}
    (hdata : paddedBytes data = bs ++ [b] ++ List.replicate n 0) (k : JString) :
    decrypt (encrypt data k) k = .ok (newString (bs ++ [b])) := by
  have hwords : 4 ≤ (toLongArray (paddedBytes data) (paddedBytes_ne_nil _)).length := by
    rw [length_toLongArray]
    exact four_le_wordCount (length_paddedBytes _)
  have hcode : toByteArray (toLongArray (paddedBytes data) (paddedBytes_ne_nil _)) = .ok (bs ++ [b]) := by
    simp only [hdata]
    exact toByteArray_toLongArray hb n _
  rw [encrypt, decrypt, if_neg, toLongArrayHex_toHexString, ok_bind]
  · rw [teaDecrypt_teaEncrypt _ (by omega), hcode, ok_bind]
    rfl
  · rw [length_toHexString, length_teaEncrypt _ (by omega), minLength]
    omega

theorem decrypt_encrypt_text {s : List Char} (hne : s ≠ []) (hlast : s.getLast? ≠ some '\x00') (k : JString) :
    decrypt (encrypt (utf16 s) k) k = .ok (utf16 s) := by
  obtain ⟨bs, b, n, hb, hbytes, htext⟩ := paddedBytes_text hne hlast
  rw [decrypt_encrypt_bytes hb hbytes, htext]

/-- **Text round trip.** A text that is not empty and does not end in `U+0000` is
decrypted to itself, under every key text. -/
theorem decrypt_encrypt (s : List Char) (hne : s ≠ []) (hlast : s.getLast? ≠ some '\x00') (k : JString) :
    decrypt (encrypt (utf16 s) k) k = .ok (utf16 s) := decrypt_encrypt_text hne hlast k

theorem decrypt_encrypt_brace :
    decrypt (encrypt (utf16 ['{', '}']) (lit "key")) (lit "key") = .ok (utf16 ['{', '}']) :=
  decrypt_encrypt ['{', '}'] (by decide) (by decide) (lit "key")

end GpsTracker.XXTEA
