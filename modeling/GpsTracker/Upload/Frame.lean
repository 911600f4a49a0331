import GpsTracker.Cipher.RoundTrip

/-!
# Upload frames

`createUploadData` of both sides: seven bytes of header (the magic `10 0f 0f
06`, the message type, the length high byte first) and then the content. The
server frames the text as it is. The device encrypts it under a key cut from the
MD5 of a random draw, records in `channelIdArray` how to find that key again,
and checks the frame by decrypting it with the key so found.

MD5 is a parameter, any function to sixteen bytes; the random draw is an
argument.
-/

namespace GpsTracker.Upload

open GpsTracker.Java

/-- `(byte) i`. -/
def toByte (i : JInt) : Byte := UInt8.ofNat i.toNat

/-- The message types of `CreateUploadDataUtil`. -/
inductive MessageType where
  /-- `LOWPERY_LOCATION`. -/
  | lowperyLocation
  /-- `WIFI_FAIL_LOCATION`. -/
  | wifiFailLocation
  /-- `SINGAL_REQUEST_LOCATION`. -/
  | singalRequestLocation
  /-- `WIFI_SUCCESS_LOCATION`. -/
  | wifiSuccessLocation
  /-- `SERVER_SEND_RQUEST_LOCATION`. -/
  | serverSendRquestLocation
  /-- `SERVER_LOGIN_RQUEST`. -/
  | serverLoginRquest
  deriving DecidableEq, Repr

/-- The constant of a message type. -/
def MessageType.code : MessageType → JInt
  | .lowperyLocation => 0x01
  | .wifiFailLocation => 0x02
  | .singalRequestLocation => 0x03
  | .wifiSuccessLocation => 0x04
  | .serverSendRquestLocation => 0x05
  | .serverLoginRquest => 0x06

/-! ### The server's frame -/

/-- The loop `for (i = 7; i < backdata.length; i++) backdata[i] = contentArray[i-7]`, with
`m` bytes to go. -/
def copyContent (contentArray : List Byte) : ℕ → ℕ → List Byte → Except Exn (List Byte)
  | 0, _, backdata => .ok backdata
  | m + 1, i, backdata => do
    let b ← load contentArray (i - 7)
    let backdata ← store backdata i b
    copyContent contentArray m (i + 1) backdata

/-- The high byte of the length field. -/
def lengthHigh (contentlenght : ℕ) : Byte := UInt8.ofNat ((contentlenght >>> 8) &&& 0xff)

/-- The low byte of the length field. -/
def lengthLow (contentlenght : ℕ) : Byte := UInt8.ofNat (contentlenght &&& 0xff)

/-- A plain frame, written as the server writes requests and replies. -/
def writeFrame (type : Byte) (contentArray : List Byte) : Except Exn (List Byte) := do
  let contentlenght := contentArray.length
  let backdata := List.replicate (7 + contentlenght) 0
  let backdata ← store backdata 0 0x10
  let backdata ← store backdata 1 0x0f
  let backdata ← store backdata 2 0x0f
  let backdata ← store backdata 3 0x06
  let backdata ← store backdata 4 type
  let backdata ← store backdata 5 (lengthHigh contentlenght)
  let backdata ← store backdata 6 (lengthLow contentlenght)
  copyContent contentArray (backdata.length - 7) 7 backdata

/-- The server's `createUploadData`. -/
def serverCreateUploadData (type : JInt) (uploadJsondata : JString) : Except Exn (List Byte) :=
  writeFrame (toByte type) (getBytes uploadJsondata)

/-! ### The device's frame -/

/-- MD5, or any function to sixteen bytes in its place. -/
abbrev Digest := List Byte → Vector Byte 16

/-- A draw of `random.nextInt(10000)`. -/
abbrev Draw := Fin 10000

/-- The two digits `getMD5Str` appends for a byte. -/
def byteHex (b : Byte) : JString :=
  let h := natToHex b.toNat
  if h.length = 1 then 0x30 :: h else h

/-- `StringUtil.getMD5Str`. -/
def getMD5Str (md5 : Digest) (str : JString) : JString := (md5 (getBytes str)).toList.flatMap byteHex

/-- `randNumber + "proof"`. -/
def proofText (randNumber : ℤ) : JString := lit (toString randNumber ++ "proof")

/-- `creatEncryptKey`: the key, and the `channelIdArray` it stores. -/
def creatEncryptKey (md5 : Digest) (randNumber : Draw) : Except Exn (JString × List Byte) := do
  let md5String := getMD5Str md5 (proofText randNumber.val)
  let start := randNumber.val % 10
  let last := start + 6
  let key ← substring md5String start last
  return (key, [UInt8.ofNat (randNumber.val / 100), UInt8.ofNat (randNumber.val % 100), UInt8.ofNat start,
    UInt8.ofNat last])

/-- `creatDEncryptKey`. -/
def creatDEncryptKey (md5 : Digest) (channelIdArray : List Byte) : Except Exn JString := do
  let c0 ← load channelIdArray 0
  let c1 ← load channelIdArray 1
  let md5String := getMD5Str md5 (proofText (c0.toInt * 100 + c1.toInt))
  let c2 ← load channelIdArray 2
  let c3 ← load channelIdArray 3
  substring md5String c2.toInt c3.toInt

/-- The array `createUploadData` of the device fills for a ciphertext. The bytes of
`channelIdArray` go where the type, the length and the content are written next. -/
def writeUploadFrame (channelIdArray : List Byte) (type : Byte) (contentArray : List Byte) :
    Except Exn (List Byte) := do
  let contentlenght := contentArray.length
  let backdata := List.replicate (7 + contentlenght) 0
  let backdata ← store backdata 0 0x10
  let backdata ← store backdata 1 0x0f
  let backdata ← store backdata 2 0x0f
  let backdata ← store backdata 3 0x06
  let backdata ← store backdata 4 (← load channelIdArray 0)
  let backdata ← store backdata 5 (← load channelIdArray 1)
  let backdata ← store backdata 6 (← load channelIdArray 2)
  let backdata ← store backdata 7 (← load channelIdArray 3)
  let backdata ← store backdata 4 type
  let backdata ← store backdata 5 (lengthHigh contentlenght)
  let backdata ← store backdata 6 (lengthLow contentlenght)
  copyContent contentArray (backdata.length - 7) 7 backdata

/-- The device's `createUploadData`: the frame, and the `channelIdArray` left in the
static field. -/
def createUploadData (md5 : Digest) (randNumber : Draw) (type : JInt) (uploadJsondata : JString) :
    Except Exn (List Byte × List Byte) := do
  let (encryptKey, channelIdArray) ← creatEncryptKey md5 randNumber
  let ciphertext := XXTEA.encrypt uploadJsondata encryptKey
  let backdata ← writeUploadFrame channelIdArray (toByte type) (getBytes ciphertext)
  let dencryptKey ← creatDEncryptKey md5 channelIdArray
  let _ ← XXTEA.decrypt ciphertext dencryptKey
  return (backdata, channelIdArray)

/-! ### What the writes leave -/

/-- The header of a frame. -/
def header (type : Byte) (contentlenght : ℕ) : List Byte :=
  [0x10, 0x0f, 0x0f, 0x06, type, lengthHigh contentlenght, lengthLow contentlenght]

/-- The copy loop fills the array from `i` on. -/
theorem copyContent_eq {contentArray : List Byte} (m : ℕ) : ∀ (i : ℕ) (backdata : List Byte), 7 ≤ i →
    backdata.length = 7 + contentArray.length → i + m = backdata.length →
      copyContent contentArray m i backdata = .ok (backdata.take i ++ contentArray.drop (i - 7)) := by
  induction m with
  | zero =>
    intro i backdata h7 hlen him
    rw [copyContent, List.take_of_length_le (by omega), List.drop_eq_nil_of_le (by omega), List.append_nil]
  | succ m ih =>
    intro i backdata h7 hlen him
    have hc : i - 7 < contentArray.length := by omega
    rw [copyContent, load_of_lt hc, ok_bind, store_of_lt (by omega), ok_bind,
      ih _ _ (by omega) (by rw [List.length_set, hlen]) (by rw [List.length_set]; omega)]
    rw [List.drop_eq_getElem_cons hc, List.take_succ_eq_append_getElem (by rw [List.length_set]; omega),
      List.take_set_of_le (le_refl i), List.getElem_set_self, List.append_assoc, List.singleton_append,
      show i + 1 - 7 = i - 7 + 1 by omega]

theorem copyContent_header {contentArray rest : List Byte} (h : List Byte) (hh : h.length = 7)
    (hrest : rest.length = contentArray.length) :
    copyContent contentArray contentArray.length 7 (h ++ rest) = .ok (h ++ contentArray) := by
  have hlen : (h ++ rest).length = 7 + contentArray.length := by rw [List.length_append, hh, hrest]
  rw [copyContent_eq _ 7 _ le_rfl hlen hlen.symm, List.take_left' hh, List.drop_zero]

theorem replicate_seven_add (n : ℕ) :
    List.replicate (7 + n) (0 : Byte) = [0, 0, 0, 0, 0, 0, 0] ++ List.replicate n 0 := by
  rw [List.replicate_add]
  rfl

/-- **A plain frame is its header and its content.** -/
theorem writeFrame_eq (type : Byte) (contentArray : List Byte) :
    writeFrame type contentArray = .ok (header type contentArray.length ++ contentArray) := by
  rw [writeFrame, replicate_seven_add]
  simp only [List.cons_append, List.nil_append, store, List.length_cons, List.length_replicate,
    List.set_cons_zero, List.set_cons_succ, Nat.zero_lt_succ, Nat.succ_lt_succ_iff, if_true, ok_bind]
  rw [show contentArray.length + 1 + 1 + 1 + 1 + 1 + 1 + 1 - 7 = contentArray.length by omega]
  exact copyContent_header (header type contentArray.length) rfl (List.length_replicate)

/-- **The device's frame is its header and its ciphertext**: the type, the length and the
content overwrite every byte of `channelIdArray`. -/
theorem writeUploadFrame_eq (c0 c1 c2 c3 type : Byte) {contentArray : List Byte} (hne : contentArray ≠ []) :
    writeUploadFrame [c0, c1, c2, c3] type contentArray
      = .ok (header type contentArray.length ++ contentArray) := by
  obtain ⟨n, hn⟩ : ∃ n, contentArray.length = n + 1 := ⟨contentArray.length - 1, by
    have := List.length_pos_iff.mpr hne; omega⟩
  rw [writeUploadFrame, replicate_seven_add, hn, List.replicate_succ]
  simp only [List.cons_append, List.nil_append, store, load, List.length_cons, List.length_replicate,
    List.getElem?_cons_zero, List.getElem?_cons_succ, List.set_cons_zero, List.set_cons_succ, Nat.zero_lt_succ,
    Nat.succ_lt_succ_iff, if_true, ok_bind]
  rw [show n + 1 + 1 + 1 + 1 + 1 + 1 + 1 + 1 - 7 = contentArray.length by omega, ← hn]
  exact copyContent_header (header type contentArray.length) rfl (by rw [List.length_cons, List.length_replicate, hn])

end GpsTracker.Upload
