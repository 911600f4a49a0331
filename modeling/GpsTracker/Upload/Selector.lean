import GpsTracker.Upload.Frame

/-!
# The key selector and the frame

The receiver of an upload can find the key again only from `channelIdArray`: the
draw, split in two digits of base 100, and where the key was cut from the MD5
text (`creatDEncryptKey_selector`). `createUploadData` stores these four bytes
at offsets 4 to 7 of the frame and then writes the type, the length and the
ciphertext over them, so the frame is a header and a ciphertext and nothing
else (`createUploadData_eq`).

What is left is coincidence. A selector byte is below 100 and its last two are
below 16, while a ciphertext byte is an ASCII digit; so four bytes of the frame
equal the selector only inside the header, and there for one draw, one type and
one range of lengths.
-/

namespace GpsTracker.Upload

open GpsTracker.Java

/-! ### The key -/

theorem toInt_ofNat {n : ℕ} (h : n < 128) : Byte.toInt (UInt8.ofNat n) = n := by
  have hn : (UInt8.ofNat n).toNat = n := by rw [UInt8.toNat_ofNat']; omega
  rw [Byte.toInt, hn, if_pos h]

theorem length_byteHex (b : Byte) : (byteHex b).length = 2 := by
  have hle : (natToHex b.toNat).length ≤ 2 := by
    rw [natToHex, List.length_map]
    exact length_hexDigits_le (by omega) b.toNat_lt
  have hpos : (natToHex b.toNat).length ≠ 0 := by
    rw [natToHex, List.length_map]
    exact fun h => hexDigits_ne_nil _ (List.length_eq_zero_iff.mp h)
  rw [byteHex]
  split_ifs with h
  · rw [List.length_cons, h]
  · omega

theorem length_getMD5Str (md5 : Digest) (str : JString) : (getMD5Str md5 str).length = 32 := by
  rw [getMD5Str, List.length_flatMap, List.map_congr_left (g := fun _ => 2) fun b _ => length_byteHex b]
  simp

/-- The key of a draw: six digits of the MD5 text. -/
def drawKey (md5 : Digest) (r : Draw) : JString :=
  ((getMD5Str md5 (proofText r.val)).take (r.val % 10 + 6)).drop (r.val % 10)

/-- The selector of a draw. -/
def selector (r : Draw) : List Byte :=
  [UInt8.ofNat (r.val / 100), UInt8.ofNat (r.val % 100), UInt8.ofNat (r.val % 10), UInt8.ofNat (r.val % 10 + 6)]

theorem substring_drawKey (md5 : Digest) (r : Draw) :
    substring (getMD5Str md5 (proofText r.val)) ((r.val % 10 : ℕ) : ℤ) ((r.val % 10 + 6 : ℕ) : ℤ)
      = .ok (drawKey md5 r) := by
  rw [substring, length_getMD5Str, if_pos ⟨by omega, by omega, by omega⟩, Int.toNat_natCast, Int.toNat_natCast]
  rfl

theorem creatEncryptKey_eq (md5 : Digest) (r : Draw) :
    creatEncryptKey md5 r = .ok (drawKey md5 r, selector r) := by
  rw [creatEncryptKey]
  simp only [substring_drawKey, ok_bind]
  rfl

/-- **The selector leads back to the key.** -/
theorem creatDEncryptKey_selector (md5 : Digest) (r : Draw) :
    creatDEncryptKey md5 (selector r) = .ok (drawKey md5 r) := by
  have hr := r.isLt
  have hdraw : Byte.toInt (UInt8.ofNat (r.val / 100)) * 100 + Byte.toInt (UInt8.ofNat (r.val % 100)) = r.val := by
    rw [toInt_ofNat (by omega), toInt_ofNat (by omega)]
    omega
  rw [creatDEncryptKey, selector]
  simp only [load, List.getElem?_cons_zero, List.getElem?_cons_succ, ok_bind]
  rw [hdraw, toInt_ofNat (by omega), toInt_ofNat (by omega)]
  exact substring_drawKey md5 r

/-! ### The ciphertext -/

/-- The bytes of the ciphertext of a text under a key. -/
def cipherBytes (text key : JString) : List Byte := getBytes (XXTEA.encrypt text key)

theorem toHexString_units (ws : List XXTEA.Word) : ∀ u ∈ XXTEA.toHexString ws, ∃ d < 16, u = hexUnit d := by
  intro u hu
  obtain ⟨w, -, hw⟩ := List.mem_flatMap.mp hu
  rw [XXTEA.padLeft_natToHex] at hw
  obtain ⟨d, hd, rfl⟩ := List.mem_map.mp hw
  exact ⟨d, XXTEA.wordDigits_lt w d hd, rfl⟩

theorem encrypt_ascii (text key : JString) : ∀ u ∈ XXTEA.encrypt text key, 0x30 ≤ u.toNat ∧ u.toNat < 0x67 := by
  intro u hu
  obtain ⟨d, hd, rfl⟩ := toHexString_units _ u hu
  exact hexUnit_bounds hd

/-- A ciphertext is written in ASCII digits and letters. -/
theorem cipherBytes_bounds (text key : JString) :
    ∀ b ∈ cipherBytes text key, 0x30 ≤ b.toNat ∧ b.toNat < 0x67 := by
  intro b hb
  rw [cipherBytes, getBytes_ascii fun u hu => by have := encrypt_ascii text key u hu; omega] at hb
  obtain ⟨u, hu, rfl⟩ := List.mem_map.mp hb
  have := encrypt_ascii text key u hu
  rw [UInt8.toNat_ofNat']
  omega

/-- Sixteen digits for every eight bytes of the padded text. -/
theorem length_cipherBytes (text key : JString) :
    (cipherBytes text key).length = XXTEA.wordCount (XXTEA.paddedBytes text).length * 16 := by
  have hwords := XXTEA.length_toLongArray _ (XXTEA.paddedBytes_ne_nil text)
  have hfour := XXTEA.four_le_wordCount (XXTEA.length_paddedBytes text)
  rw [cipherBytes, getBytes_ascii fun u hu => by have := encrypt_ascii text key u hu; omega, List.length_map,
    XXTEA.encrypt, XXTEA.length_toHexString, XXTEA.length_teaEncrypt _ (by omega), hwords]

theorem cipherBytes_ne_nil (text key : JString) : cipherBytes text key ≠ [] := by
  have hfour := XXTEA.four_le_wordCount (XXTEA.length_paddedBytes text)
  have hlen := length_cipherBytes text key
  exact List.length_pos_iff.mp (by omega)

/-- The call writes the frame and then decrypts what it encrypted: nothing else in it can
fail. -/
theorem createUploadData_text (md5 : Digest) (r : Draw) (type : JInt) (text : JString) :
    createUploadData md5 r type text = (do
      let _ ← XXTEA.decrypt (XXTEA.encrypt text (drawKey md5 r)) (drawKey md5 r)
      return (header (toByte type) (cipherBytes text (drawKey md5 r)).length ++ cipherBytes text (drawKey md5 r),
        selector r)) := by
  rw [createUploadData, creatEncryptKey_eq, ok_bind]
  simp only
  rw [← cipherBytes, selector, writeUploadFrame_eq _ _ _ _ _ (cipherBytes_ne_nil _ _), ok_bind, ← selector,
    creatDEncryptKey_selector, ok_bind]

/-- **What the device sends**: the header and the ciphertext. The self-check decrypts, so
the call returns. -/
theorem createUploadData_eq (md5 : Digest) (r : Draw) (type : JInt) {s : List Char} (hne : s ≠ [])
    (hlast : s.getLast? ≠ some '\x00') :
    createUploadData md5 r type (utf16 s) =
      .ok (header (toByte type) (cipherBytes (utf16 s) (drawKey md5 r)).length ++ cipherBytes (utf16 s) (drawKey md5 r),
        selector r) := by
  rw [createUploadData_text, XXTEA.decrypt_encrypt_text hne hlast, ok_bind]
  rfl

/-! ### The selector in the frame -/

/-- The frame still holds its type byte, its two length bytes and the ciphertext. -/
def HoldsMessage (frame : List Byte) (type : JInt) (ciphertext : List Byte) : Prop :=
  frame[4]? = some (toByte type) ∧ frame[5]? = some (lengthHigh ciphertext.length) ∧
    frame[6]? = some (lengthLow ciphertext.length) ∧ frame.drop 7 = ciphertext

/-- The frame of a call has the selector of its own key at offset `o`, beside the message. -/
def SelfKeyed (md5 : Digest) (o : ℕ) (type : JInt) (s : List Char) (r : Draw) : Prop :=
  ∃ frame key channelIdArray, creatEncryptKey md5 r = .ok (key, channelIdArray) ∧
    createUploadData md5 r type (utf16 s) = .ok (frame, channelIdArray) ∧
    (frame.drop o).take 4 = channelIdArray ∧ HoldsMessage frame type (cipherBytes (utf16 s) key)

/-- The header happens to read as the selector: at offset 2, draw 1506, type byte 6, and a
ciphertext whose length has 12 for its high byte. -/
def Accidental (o : ℕ) (type : JInt) (s : List Char) (r : Draw) : Prop :=
  o = 2 ∧ r.val = 1506 ∧ toByte type = 6 ∧ XXTEA.wordCount (XXTEA.paddedBytes (utf16 s)).length / 16 % 256 = 12

theorem holdsMessage_header (type : JInt) (ciphertext : List Byte) :
    HoldsMessage (header (toByte type) ciphertext.length ++ ciphertext) type ciphertext :=
  ⟨rfl, rfl, rfl, rfl⟩

theorem toNat_lengthHigh (n : ℕ) : (lengthHigh n).toNat = n / 256 % 256 := by
  rw [lengthHigh, Nat.shiftRight_eq_div_pow, show 0xff = 2 ^ 8 - 1 from rfl, Nat.and_two_pow_sub_one_eq_mod,
    UInt8.toNat_ofNat', Nat.mod_mod]

theorem toNat_lengthLow (n : ℕ) : (lengthLow n).toNat = n % 256 := by
  rw [lengthLow, show 0xff = 2 ^ 8 - 1 from rfl, Nat.and_two_pow_sub_one_eq_mod, UInt8.toNat_ofNat',
    Nat.mod_mod]

theorem eq_selector_iff (a b c d : Byte) (r : Draw) : [a, b, c, d] = selector r ↔
    a.toNat = r.val / 100 ∧ b.toNat = r.val % 100 ∧ c.toNat = r.val % 10 ∧ d.toNat = r.val % 10 + 6 := by
  have hr := r.isLt
  have key (x : Byte) {n : ℕ} (hn : n < 256) : x = UInt8.ofNat n ↔ x.toNat = n := by
    rw [← UInt8.toNat_inj, UInt8.toNat_ofNat', Nat.mod_eq_of_lt hn]
  simp only [selector, List.cons.injEq, and_true]
  rw [key a (by omega), key b (by omega), key c (by omega), key d (by omega)]

/-- The selector cannot be read at an offset whose fourth byte lies in the ciphertext. -/
theorem take_drop_ne_selector {type : Byte} {ciphertext : List Byte} {n o : ℕ} (r : Draw) (ho : 4 ≤ o)
    (hc : ∀ b ∈ ciphertext, 0x30 ≤ b.toNat) : ((header type n ++ ciphertext).drop o).take 4 ≠ selector r := by
  intro h
  have h3 : (((header type n ++ ciphertext).drop o).take 4)[3]? = some (UInt8.ofNat (r.val % 10 + 6)) := by rw [h]; rfl
  rw [List.getElem?_take_of_lt (by omega), List.getElem?_drop,
    List.getElem?_append_right (by simp [header]; omega)] at h3
  have hle := hc _ (List.mem_of_getElem? h3)
  rw [UInt8.toNat_ofNat'] at hle
  omega

/-- Where the header reads as a selector. -/
theorem take_drop_eq_selector_iff (type : Byte) {ciphertext : List Byte} (o : ℕ) (r : Draw)
    (hc : ∀ b ∈ ciphertext, 0x30 ≤ b.toNat) (hlen : ciphertext.length % 16 = 0) :
    ((header type ciphertext.length ++ ciphertext).drop o).take 4 = selector r ↔
      o = 2 ∧ r.val = 1506 ∧ type = 6 ∧ ciphertext.length / 256 % 256 = 12 := by
  have hr := r.isLt
  by_cases ho : 4 ≤ o
  · exact ⟨fun h => absurd h (take_drop_ne_selector r ho hc), fun h => by omega⟩
  · have h6 : type = 6 ↔ type.toNat = 6 := by rw [← UInt8.toNat_inj]; rfl
    rw [h6, header]
    rcases o with _ | _ | _ | _ | o
    · -- `10 0f 0f 06`: the third selector byte is a decimal digit
      change [0x10, 0x0f, 0x0f, 0x06] = selector r ↔ _
      rw [eq_selector_iff, show (0x0f : Byte).toNat = 15 from rfl]
      omega
    · -- `0f 0f 06 type`: the third byte is the last digit of the second
      change [0x0f, 0x0f, 0x06, type] = selector r ↔ _
      rw [eq_selector_iff, show (0x0f : Byte).toNat = 15 from rfl, show (0x06 : Byte).toNat = 6 from rfl]
      omega
    · change [0x0f, 0x06, type, lengthHigh ciphertext.length] = selector r ↔ _
      rw [eq_selector_iff, show (0x0f : Byte).toNat = 15 from rfl, show (0x06 : Byte).toNat = 6 from rfl,
        toNat_lengthHigh]
      omega
    · -- `06 type high low`: the low byte is a multiple of 16, the fourth selector byte is not
      change [0x06, type, lengthHigh ciphertext.length, lengthLow ciphertext.length] = selector r ↔ _
      rw [eq_selector_iff, toNat_lengthHigh, toNat_lengthLow]
      omega
    · omega

theorem selfKeyed_iff_accidental (md5 : Digest) (o : ℕ) (type : JInt) {s : List Char} (hne : s ≠ [])
    (hlast : s.getLast? ≠ some '\x00') (r : Draw) : SelfKeyed md5 o type s r ↔ Accidental o type s r := by
  have hc : ∀ b ∈ cipherBytes (utf16 s) (drawKey md5 r), 0x30 ≤ b.toNat := fun b hb => (cipherBytes_bounds _ _ b hb).1
  have hlen := length_cipherBytes (utf16 s) (drawKey md5 r)
  have hiff := take_drop_eq_selector_iff (toByte type) o r hc (by omega)
  rw [hlen, show XXTEA.wordCount (XXTEA.paddedBytes (utf16 s)).length * 16 / 256
    = XXTEA.wordCount (XXTEA.paddedBytes (utf16 s)).length / 16 by omega, ← hlen] at hiff
  constructor
  · rintro ⟨frame, key, chan, hkey, hcall, hsel, -⟩
    rw [createUploadData_eq md5 r type hne hlast, Except.ok.injEq, Prod.mk.injEq] at hcall
    obtain ⟨rfl, rfl⟩ := hcall
    exact hiff.mp hsel
  · intro h
    exact ⟨_, _, _, creatEncryptKey_eq md5 r, createUploadData_eq md5 r type hne hlast, hiff.mpr h,
      holdsMessage_header type _⟩

/-- **The frame carries the selector of its own key only by coincidence**, whatever offset
the receiver reads. -/
theorem selfKeyed_iff (md5 : Digest) (o : ℕ) (type : JInt) (s : List Char) (hne : s ≠ [])
    (hlast : s.getLast? ≠ some '\x00') (r : Draw) : SelfKeyed md5 o type s r ↔ Accidental o type s r :=
  selfKeyed_iff_accidental md5 o type hne hlast r

theorem selfKeyed_iff_brace : SelfKeyed (fun _ => Vector.replicate 16 0) 4 0x01 ['{', '}'] 1234 ↔
    Accidental 4 0x01 ['{', '}'] 1234 :=
  selfKeyed_iff (fun _ => Vector.replicate 16 0) 4 0x01 ['{', '}'] (by decide) (by decide) 1234

/-- No offset serves even the text `{}` sent as a low-power location under draw 0. -/
theorem not_exists_selector_offset : ¬ ∃ o, ∀ (md5 : Digest) (type : JInt) (s : List Char), s ≠ [] →
    s.getLast? ≠ some '\x00' → ∀ r : Draw, SelfKeyed md5 o type s r := by
  rintro ⟨o, h⟩
  have h0 := h (fun _ => Vector.replicate 16 0) MessageType.lowperyLocation.code ['{', '}'] (by decide) (by decide) 0
  rw [selfKeyed_iff_accidental _ _ _ (by decide) (by decide)] at h0
  exact absurd h0.2.1 (by decide)

end GpsTracker.Upload
