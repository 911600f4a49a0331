import GpsTracker.Cipher.RoundTrip

/-!
# Decrypting hexadecimal texts

`Decrypt` reads a text of hexadecimal digits without fail: each group of sixteen
is a word, and printing the words gives the text back in lower case
(`toLongArrayHex_of_isHexText`). What can fail is what comes after: the loop of
`ToByteArray` takes bytes off the end while they are zero and has no bound of its
own, so it runs out of the list exactly when every word decrypts to zero. The
block transformation being a bijection, one text of each length and key does
that, the ciphertext of as many zero words (`decrypt_hex_ok_iff`); `Encrypt`
makes it of every text that has nothing but `U+0000` in it.
-/

namespace GpsTracker.XXTEA

open GpsTracker.Java

/-! ### Reading the digits -/

/-- Sixteen digits are read as the word that prints as them. -/
theorem parseLong_group {s : JString} (h : IsHexText s) (hlen : s.length = 16) :
    ∃ w, parseLong s = .ok w ∧ padLeft (natToHex w.toNat) 16 = s.map lowerUnit := by
  obtain ⟨ds, hlt, hmap, hparse⟩ := exists_digits h
  have hds : ds.length = 16 := by simpa [hlen] using (congrArg List.length hmap).symm
  have hval : digitsValue 0 ds < 2 ^ 64 := by
    have := digitsValue_lt hlt
    rwa [hds, show 16 ^ 16 = 2 ^ 64 by norm_num] at this
  refine ⟨BitVec.ofNat 64 (digitsValue 0 ds), ?_, ?_⟩
  · rw [parseLong_of_isHexText h (List.ne_nil_of_length_eq_add_one hlen), hparse]
    rfl
  · rw [padLeft_natToHex, hmap]
    congr 1
    refine digitsValue_inj (by rw [length_wordDigits, hds]) (wordDigits_lt _) hlt ?_
    rw [wordDigits, digitsValue_hexDigits, BitVec.toNat_ofNat, Nat.mod_eq_of_lt hval]

/-- **Every hexadecimal text is read**, a word for each whole group of sixteen digits. -/
theorem toLongArrayHex_of_isHexText {data : JString} (h : IsHexText data) : ∃ ws, toLongArrayHex data = .ok ws ∧
    ws.length = data.length / 16 ∧ toHexString ws = (data.take (data.length / 16 * 16)).map lowerUnit := by
  have hgroup : ∀ i ∈ List.range (data.length / 16), ∃ w, parseLong ((data.drop (i * 16)).take 16) = .ok w ∧
      padLeft (natToHex w.toNat) 16 = ((data.drop (i * 16)).take 16).map lowerUnit := by
    intro i hi
    have hi' := List.mem_range.mp hi
    refine parseLong_group (fun u hu => h u (List.mem_of_mem_drop (List.mem_of_mem_take hu))) ?_
    rw [List.length_take, List.length_drop]
    omega
  choose! w hw hprint using hgroup
  refine ⟨(List.range (data.length / 16)).map w, mapM_ok _ hw, by simp, ?_⟩
  rw [toHexString, List.flatMap_map, List.flatMap_congr hprint, ← flatMap_take_drop, List.map_flatMap]

theorem toHexString_inj {ws vs : List Word} : toHexString ws = toHexString vs ↔ ws = vs := by
  constructor
  · intro h
    have hread := toLongArrayHex_toHexString ws
    rw [h, toLongArrayHex_toHexString] at hread
    exact (Except.ok.inj hread).symm
  · rintro rfl
    rfl

/-! ### Taking the zeros off -/

/-- The loop stops at a byte that is not zero, if there is one. -/
theorem dropTrailing_ok_iff (bs : List Byte) : (∃ r, dropTrailing bs = .ok r) ↔ ∃ b ∈ bs, b ≠ 0 := by
  induction bs with
  | nil => simp [dropTrailing]
  | cons b bs ih =>
    by_cases hb : b = 0
    · simp [dropTrailing, hb, ih]
    · simp [dropTrailing, hb]

theorem toByteArray_ok_iff (ws : List Word) :
    (∃ code, toByteArray ws = .ok code) ↔ ∃ b ∈ ws.flatMap long2bytes, b ≠ 0 := by
  have h := dropTrailing_ok_iff (ws.flatMap long2bytes).reverse
  simp only [List.mem_reverse] at h
  rw [← h, toByteArray]
  cases dropTrailing (ws.flatMap long2bytes).reverse with
  | error e => simp [Except.map]
  | ok r => simp [Except.map]

/-- A number whose digits are all zero. -/
theorem eq_zero_of_digits {n k : ℕ} (h : ∀ i < k, n / 256 ^ i % 256 = 0) (hn : n < 256 ^ k) : n = 0 := by
  induction k generalizing n with
  | zero => simpa using hn
  | succ k ih =>
    have hlow : n % 256 = 0 := by simpa using h 0 (by omega)
    have hhigh : n / 256 = 0 := by
      refine ih (fun i hi => ?_) (by rw [Nat.div_lt_iff_lt_mul (by omega), ← pow_succ]; exact hn)
      rw [Nat.div_div_eq_div_mul, ← pow_succ']
      exact h (i + 1) (by omega)
    omega

/-- A word is zero when its eight bytes are. -/
theorem exists_long2bytes_ne_zero (w : Word) : (∃ b ∈ long2bytes w, b ≠ 0) ↔ w ≠ 0 := by
  have hlt := w.isLt
  constructor
  · rintro ⟨b, hb, hne⟩ rfl
    exact hne (List.eq_of_mem_replicate (n := 8) hb)
  · intro hw
    by_contra hnone
    push Not at hnone
    refine hw (BitVec.eq_of_toNat_eq ?_)
    have hbyte : ∀ i < 8, w.toNat / 256 ^ i % 256 = 0 := by
      intro i hi
      have := congrArg UInt8.toNat (hnone _ (List.mem_map_of_mem (List.mem_range.mpr hi)))
      rwa [UInt8.toNat_ofNat'] at this
    exact eq_zero_of_digits hbyte (by rwa [show 256 ^ 8 = 2 ^ 64 by norm_num])

/-- `ToByteArray` runs out of bytes on zero words only. -/
theorem toByteArray_ok_iff_words (ws : List Word) :
    (∃ code, toByteArray ws = .ok code) ↔ ws ≠ List.replicate ws.length 0 := by
  rw [toByteArray_ok_iff, Ne, List.eq_replicate_length]
  push Not
  constructor
  · rintro ⟨b, hb, hne⟩
    obtain ⟨w, hw, hbw⟩ := List.mem_flatMap.mp hb
    exact ⟨w, hw, (exists_long2bytes_ne_zero w).mp ⟨b, hbw, hne⟩⟩
  · rintro ⟨w, hw, hne⟩
    obtain ⟨b, hb, hb0⟩ := (exists_long2bytes_ne_zero w).mpr hne
    exact ⟨b, List.mem_flatMap.mpr ⟨w, hw, hb⟩, hb0⟩

/-! ### `Decrypt` -/

/-- The hexadecimal texts that `Decrypt` fails on: 32 digits or more, whose whole groups
are, in either case, the ciphertext of as many zero words under the key. -/
def EncodesZeros (data key : JString) : Prop :=
  minLength ≤ data.length ∧ (data.take (data.length / 16 * 16)).map lowerUnit =
    toHexString (teaEncrypt (List.replicate (data.length / 16) 0) (keyArray key))

/-- Making the string of the bytes does not fail. -/
theorem bind_newString_ok_iff (code : Except Exn (List Byte)) :
    (∃ text, (do let bs ← code; return newString bs) = Except.ok text) ↔ ∃ bs, code = .ok bs := by
  cases code with
  | error e => simp
  | ok bs => simp [pure, Except.pure]

theorem decrypt_ok_iff (data key : JString) (h : IsHexText data) :
    (∃ text, decrypt data key = .ok text) ↔ ¬ EncodesZeros data key := by
  rw [decrypt, EncodesZeros]
  split_ifs with hlen
  · exact ⟨fun _ hz => absurd hz.1 (by omega), fun _ => ⟨data, rfl⟩⟩
  · obtain ⟨ws, hread, hcount, hprint⟩ := toLongArrayHex_of_isHexText h
    have htwo : 2 ≤ ws.length := by rw [hcount]; rw [minLength] at hlen; omega
    have hzero : teaDecrypt ws (keyArray key) = List.replicate ws.length 0 ↔
        ws = teaEncrypt (List.replicate ws.length 0) (keyArray key) := by
      constructor
      · intro hz
        rw [← hz, teaEncrypt_teaDecrypt _ htwo]
      · intro hz
        conv_lhs => rw [hz]
        exact teaDecrypt_teaEncrypt _ (by simpa using htwo)
    rw [hread, ok_bind, bind_newString_ok_iff, toByteArray_ok_iff_words, length_teaDecrypt _ htwo, Ne, hzero,
      ← hprint, ← hcount, toHexString_inj]
    simp [not_lt.mp hlen]

/-! ### Ciphertexts -/

theorem isHexText_toHexString (ws : List Word) : IsHexText (toHexString ws) := by
  intro u hu
  obtain ⟨w, -, hw⟩ := List.mem_flatMap.mp hu
  rw [padLeft_natToHex] at hw
  obtain ⟨d, hd, rfl⟩ := List.mem_map.mp hw
  rw [hexValue_hexUnit (wordDigits_lt w d hd)]
  rfl

/-- A ciphertext is a hexadecimal text, of 64 digits at least. -/
theorem isHexText_encrypt (data key : JString) : IsHexText (encrypt data key) := isHexText_toHexString _

/-- The encoder writes `U+0000` for that unit only. -/
theorem exists_codePoints_ne_nul (s : JString) : (∃ c ∈ codePoints s, c ≠ '\x00') ↔ ∃ u ∈ s, u ≠ 0 := by
  have hlone (u : UInt16) : loneChar u ≠ '\x00' ↔ u ≠ 0 := by
    rw [loneChar]
    split_ifs with hsur
    · refine iff_of_true (by decide) ?_
      rintro rfl
      exact absurd hsur (by decide)
    · have hval : (Char.ofNat u.toNat).toNat = u.toNat := by
        have := u.toNat_lt
        refine char_toNat_ofNat ?_
        rw [IsHigh, IsLow] at hsur
        rcases lt_or_ge u.toNat 0xD800 with hu | hu
        · exact Or.inl hu
        · exact Or.inr ⟨by omega, by omega⟩
      rw [Ne, Ne, ← Char.toNat_inj, ← UInt16.toNat_inj, hval]
      rfl
  induction s using codePoints.induct with
  | case1 => simp [codePoints]
  | case2 u => simpa [codePoints] using hlone u
  | case3 h l rest hp ih =>
    refine iff_of_true ⟨_, by rw [codePoints, if_pos hp]; exact List.mem_cons_self, ?_⟩ ⟨h, List.mem_cons_self, ?_⟩
    · obtain ⟨⟨h1, h2⟩, h3, h4⟩ := hp
      intro h0
      have hval : (pairChar h l).toNat = 0x10000 + (h.toNat - 0xD800) * 0x400 + (l.toNat - 0xDC00) :=
        char_toNat_ofNat (Or.inr ⟨by omega, by omega⟩)
      rw [h0] at hval
      change 0 = _ at hval
      omega
    · rintro rfl
      exact absurd hp.1 (by decide)
  | case4 h l rest hp ih =>
    rw [codePoints, if_neg hp]
    calc (∃ c ∈ loneChar h :: codePoints (l :: rest), c ≠ '\x00')
        ↔ loneChar h ≠ '\x00' ∨ ∃ c ∈ codePoints (l :: rest), c ≠ '\x00' := List.exists_mem_cons_iff _ _ _
      _ ↔ h ≠ 0 ∨ ∃ u ∈ l :: rest, u ≠ 0 := or_congr (hlone h) ih
      _ ↔ ∃ u ∈ h :: l :: rest, u ≠ 0 := (List.exists_mem_cons_iff (· ≠ 0) h _).symm

/-- A text has a byte that is not zero when it has a unit that is not. -/
theorem exists_getBytes_ne_zero (s : JString) : (∃ b ∈ getBytes s, b ≠ 0) ↔ ∃ u ∈ s, u ≠ 0 := by
  rw [← exists_codePoints_ne_nul, getBytes]
  constructor
  · rintro ⟨b, hb, hne⟩
    obtain ⟨c, hc, hbc⟩ := List.mem_flatMap.mp hb
    refine ⟨c, hc, ?_⟩
    rintro rfl
    exact hne (List.mem_singleton.mp hbc)
  · rintro ⟨c, hc, hne⟩
    obtain ⟨bs, b, hb, hcs⟩ := getLast_utf8EncodeChar hne
    exact ⟨b, List.mem_flatMap.mpr ⟨c, hc, by simp [hcs]⟩, hb⟩

theorem exists_paddedBytes_ne_zero (s : JString) : (∃ b ∈ paddedBytes s, b ≠ 0) ↔ ∃ u ∈ s, u ≠ 0 := by
  rw [paddedBytes, padRight_eq, exists_getBytes_ne_zero]
  constructor
  · rintro ⟨u, hu, hne⟩
    rcases List.mem_append.mp hu with hu | hu
    · exact ⟨u, hu, hne⟩
    · exact absurd (List.eq_of_mem_replicate hu) hne
  · rintro ⟨u, hu, hne⟩
    exact ⟨u, List.mem_append_left _ hu, hne⟩

/-- An encrypted text is decrypted, unless it had nothing but `U+0000` in it. -/
theorem decrypt_encrypt_ok_iff (data key : JString) :
    (∃ text, decrypt (encrypt data key) key = .ok text) ↔ ∃ u ∈ data, u ≠ 0 := by
  have hwords : 4 ≤ (toLongArray (paddedBytes data) (paddedBytes_ne_nil _)).length := by
    rw [length_toLongArray]
    exact four_le_wordCount (length_paddedBytes _)
  have hfilled : (∃ b ∈ filled (paddedBytes data), b ≠ 0) ↔ ∃ b ∈ paddedBytes data, b ≠ 0 := by
    simp [filled, or_and_right, exists_or]
  rw [encrypt, decrypt, if_neg, toLongArrayHex_toHexString, ok_bind, teaDecrypt_teaEncrypt _ (by omega),
    bind_newString_ok_iff, toByteArray_ok_iff, flatMap_long2bytes_toLongArray, hfilled, exists_paddedBytes_ne_zero]
  rw [length_toHexString, length_teaEncrypt _ (by omega), minLength]
  omega

/-- **Which hexadecimal texts `Decrypt` returns on**: all but the ciphertexts of zero words;
of the ciphertexts that `Encrypt` makes, read under their own key, all but those of texts
with no other character than `U+0000`. -/
theorem decrypt_hex_ok_iff (data key : JString) :
    (IsHexText data → ((∃ text, decrypt data key = .ok text) ↔ ¬ EncodesZeros data key)) ∧
    IsHexText (encrypt data key) ∧ ((∃ text, decrypt (encrypt data key) key = .ok text) ↔ ∃ u ∈ data, u ≠ 0) :=
  ⟨decrypt_ok_iff data key, isHexText_encrypt data key, decrypt_encrypt_ok_iff data key⟩

theorem decrypt_hex_ok_iff_abc :
    (∃ text, decrypt (lit "ABCdef") (lit "key") = .ok text) ↔ ¬ EncodesZeros (lit "ABCdef") (lit "key") :=
  (decrypt_hex_ok_iff (lit "ABCdef") (lit "key")).1 (by decide)

/-- The ciphertext of the empty text is hexadecimal, and `Decrypt` runs out of bytes on it. -/
theorem not_decrypt_hex_total :
    ¬ ∀ data key : JString, IsHexText data → ∃ text, decrypt data key = .ok text := by
  intro h
  have hempty := (decrypt_encrypt_ok_iff [] (lit "key")).mp (h _ (lit "key") (isHexText_encrypt [] (lit "key")))
  exact absurd hempty (by simp)

end GpsTracker.XXTEA
