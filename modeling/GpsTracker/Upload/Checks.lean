import GpsTracker.Upload.Selector
import GpsTracker.Cipher.HexTexts

/-!
# What an upload says about itself

Two things a frame tells its reader, or the sender itself. The self-check at the
end of the device's `createUploadData` finds the key again from the signed bytes
of `channelIdArray` and decrypts with it: no index on the way there is out of
range, and the text comes back (`createUploadData_selfChecks`).

The length field holds the low sixteen bits of the number of content bytes
(`lengthField_header`), so it tells that number as long as it is below 65536:
for the server that is a bound on the bytes of the text, for the device, which
prints sixteen digits for every eight bytes, on those of the padded text
(`lengthTold_iff`).
-/

namespace GpsTracker.Upload

open GpsTracker.Java

/-! ### The self-check -/

/-- A call that returns, with the ciphertext in ASCII digits after the header and a key that
its own selector leads back to and that decrypts the text. -/
def SelfChecks (md5 : Digest) (r : Draw) (type : JInt) (x : List Char) : Prop :=
  ∃ frame key channelIdArray, creatEncryptKey md5 r = .ok (key, channelIdArray) ∧
    createUploadData md5 r type (utf16 x) = .ok (frame, channelIdArray) ∧
    IsHexText (XXTEA.encrypt (utf16 x) key) ∧
    frame.drop 7 = (XXTEA.encrypt (utf16 x) key).map (fun u => UInt8.ofNat u.toNat) ∧
    creatDEncryptKey md5 channelIdArray = .ok key ∧
    XXTEA.decrypt (XXTEA.encrypt (utf16 x) key) key = .ok (utf16 x)

theorem cipherBytes_eq (text key : JString) :
    cipherBytes text key = (XXTEA.encrypt text key).map fun u => UInt8.ofNat u.toNat :=
  getBytes_ascii fun u hu => by have := encrypt_ascii text key u hu; omega

theorem drop_header (type : Byte) (n : ℕ) (content : List Byte) :
    (header type n ++ content).drop 7 = content := rfl

/-- **`createUploadData` is total and its self-check succeeds**, for every draw and every
digest. -/
theorem createUploadData_selfChecks (md5 : Digest) (r : Draw) (type : JInt) (x : List Char) (hne : x ≠ [])
    (hlast : x.getLast? ≠ some '\x00') : SelfChecks md5 r type x := by
  refine ⟨_, drawKey md5 r, selector r, creatEncryptKey_eq md5 r, createUploadData_eq md5 r type hne hlast,
    XXTEA.isHexText_encrypt _ _, ?_, creatDEncryptKey_selector md5 r, XXTEA.decrypt_encrypt_text hne hlast _⟩
  rw [drop_header, cipherBytes_eq]

theorem createUploadData_selfChecks_brace :
    SelfChecks (fun _ => Vector.replicate 16 0x80) 9999 0x04 ['{', '}'] :=
  createUploadData_selfChecks (fun _ => Vector.replicate 16 0x80) 9999 0x04 ['{', '}'] (by decide) (by decide)

/-! ### The length field -/

/-- Bytes 5 and 6, read as an unsigned big-endian number. -/
def lengthField (frame : List Byte) : ℕ := (frame.getD 5 0).toNat * 256 + (frame.getD 6 0).toNat

/-- A reader of one message: the type and the length from the header, then that many bytes. -/
def readMessage (frame : List Byte) : Option (Byte × List Byte) :=
  if 7 + lengthField frame ≤ frame.length then some (frame.getD 4 0, (frame.drop 7).take (lengthField frame)) else none

/-- If the call returns a frame, the length field is the number of bytes after the header,
and a reader recovers the type and the content. -/
def LengthTold (call : Except Exn (List Byte)) (type : JInt) (content : List Byte) : Prop :=
  ∀ frame, call = .ok frame →
    frame.length = 7 + lengthField frame ∧ readMessage frame = some (toByte type, content)

/-- The header holds the length modulo 65536. -/
theorem lengthField_header (type : Byte) (n : ℕ) (content : List Byte) :
    lengthField (header type n ++ content) = n % 65536 := by
  change (lengthHigh n).toNat * 256 + (lengthLow n).toNat = _
  rw [toNat_lengthHigh, toNat_lengthLow]
  omega

/-- A frame with its content's length in the header tells it when there is room for it. -/
theorem lengthTold_header_iff (type : JInt) (content : List Byte) :
    LengthTold (.ok (header (toByte type) content.length ++ content)) type content ↔ content.length < 65536 := by
  have hfield := lengthField_header (toByte type) content.length content
  have hlen : (header (toByte type) content.length ++ content).length = 7 + content.length := by
    rw [List.length_append]
    rfl
  constructor
  · intro h
    have htold := (h _ rfl).1
    rw [hfield, hlen] at htold
    omega
  · rintro hlt frame ⟨⟩
    rw [Nat.mod_eq_of_lt hlt] at hfield
    refine ⟨by rw [hlen, hfield], ?_⟩
    rw [readMessage, hfield, if_pos hlen.ge, drop_header, List.take_length]
    rfl

theorem server_lengthTold_iff (type : JInt) (text : JString) :
    LengthTold (serverCreateUploadData type text) type (getBytes text) ↔ (getBytes text).length < 65536 := by
  rw [serverCreateUploadData, writeFrame_eq, lengthTold_header_iff]

/-- Sixteen digits for eight bytes fit into the length field up to 32760 bytes. -/
theorem length_cipherBytes_lt_iff (text key : JString) :
    (cipherBytes text key).length < 65536 ↔ (XXTEA.paddedBytes text).length ≤ 32760 := by
  rw [length_cipherBytes, XXTEA.wordCount]
  split_ifs <;> omega

/-- The device's call fails in its self-check on a text of nothing but `U+0000`. -/
theorem device_lengthTold_iff (md5 : Digest) (r : Draw) (type : JInt) (text : JString) :
    LengthTold ((createUploadData md5 r type text).map Prod.fst) type (cipherBytes text (drawKey md5 r)) ↔
      (∀ u ∈ text, u = 0) ∨ (XXTEA.paddedBytes text).length ≤ 32760 := by
  have hok := XXTEA.decrypt_encrypt_ok_iff text (drawKey md5 r)
  rw [createUploadData_text]
  cases hdec : XXTEA.decrypt (XXTEA.encrypt text (drawKey md5 r)) (drawKey md5 r) with
  | error e =>
    have hzero : ∀ u ∈ text, u = 0 := by
      simpa [hdec] using hok
    refine iff_of_true (fun frame h => ?_) (Or.inl hzero)
    cases h
  | ok t =>
    have hone : ¬ ∀ u ∈ text, u = 0 := by
      simpa [hdec] using hok
    rw [or_iff_right hone, ← length_cipherBytes_lt_iff text (drawKey md5 r), ← lengthTold_header_iff]
    rfl

/-- **When the length field is true**: on the server as long as the text has fewer than 65536
bytes, on the device as long as the padded text has 32760 at most or the call fails. -/
theorem lengthTold_iff (md5 : Digest) (r : Draw) (type : JInt) (text : JString) :
    (LengthTold (serverCreateUploadData type text) type (getBytes text) ↔ (getBytes text).length < 65536) ∧
    (LengthTold ((createUploadData md5 r type text).map Prod.fst) type (cipherBytes text (drawKey md5 r)) ↔
      (∀ u ∈ text, u = 0) ∨ (XXTEA.paddedBytes text).length ≤ 32760) :=
  ⟨server_lengthTold_iff type text, device_lengthTold_iff md5 r type text⟩

theorem length_getBytes_letters (n : ℕ) : (getBytes (List.replicate n 0x61)).length = n := by
  rw [getBytes_ascii fun u hu => by rw [List.eq_of_mem_replicate hu]; decide, List.length_map,
    List.length_replicate]

/-- The server frames 65536 letters under the length 0, and the device the 65536 digits that
32761 letters are encrypted to. -/
theorem not_lengthTold :
    (¬ ∀ (type : JInt) (text : JString), LengthTold (serverCreateUploadData type text) type (getBytes text)) ∧
    ¬ ∀ (md5 : Digest) (r : Draw) (type : JInt) (text : JString),
      LengthTold ((createUploadData md5 r type text).map Prod.fst) type (cipherBytes text (drawKey md5 r)) := by
  constructor
  · intro h
    have hlt := (server_lengthTold_iff _ _).mp
      (h MessageType.serverSendRquestLocation.code (List.replicate 65536 0x61))
    rw [length_getBytes_letters] at hlt
    exact absurd hlt (by decide)
  · intro h
    have hle := (device_lengthTold_iff _ _ _ _).mp
      (h (fun _ => Vector.replicate 16 0) 0 MessageType.wifiSuccessLocation.code (List.replicate 32761 0x61))
    rcases hle with hzero | hle
    · exact absurd (hzero 0x61 (List.mem_replicate.mpr ⟨by omega, rfl⟩)) (by decide)
    · rw [XXTEA.paddedBytes, XXTEA.padRight_eq, List.length_replicate, XXTEA.minLength, List.replicate_zero,
        List.append_nil, length_getBytes_letters] at hle
      exact absurd hle (by decide)

end GpsTracker.Upload
