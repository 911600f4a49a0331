import GpsTracker.Library.Pieces
import GpsTracker.Tcp.Receivers
import GpsTracker.Upload.Selector

/-!
# Frames and reads

One side writes messages, the frames of the device's and of the server's
`createUploadData` among them (`exists_frame_createUploadData`,
`exists_frame_serverCreateUploadData`). TCP cuts the bytes in reads, and the other
side handles its reads as `Tcp.Receivers` says. When is what it handles the sequence
of frames that were written?

Only when every frame had a read of its own (`handled_eq_framed_iff`). Since the
payloads are texts without control characters, a read can be taken for a frame
only where it starts within two bytes of one and ends inside it
(`exists_frame_of_text`). So reads that are handled as frames lie in different
frames, in order, and when there are as many of them as frames, each has its own.
A read of the same length then starts with the frame, or one byte early: the last
byte of the magic reads as the type of a login, and the text is its own length
byte repeated (`Covers`).
-/

namespace GpsTracker.Tcp

open GpsTracker.Java GpsTracker.Upload GpsTracker.Pieces

/-! ### Messages -/

/-- A frame: its type, and its payload, a text without control characters. -/
structure Frame where
  /-- The message type. -/
  type : MessageType
  /-- The payload. -/
  payload : List Byte
  /-- A payload is not empty. -/
  ne_nil : payload ≠ []
  /-- It has no control characters. -/
  text : ∀ b ∈ payload, 0x20 ≤ b.toNat

/-- The bytes of a frame. -/
def Frame.bytes (f : Frame) : List Byte := header (typeByte f.type) f.payload.length ++ f.payload

/-- The type and the payload that were framed. -/
def Frame.content (f : Frame) : Content := (typeByte f.type, f.payload)

/-- What a side writes. -/
inductive Message where
  /-- A frame of `createUploadData`, or a reply. -/
  | frame (f : Frame)
  /-- The four bytes of a keep-alive or an acknowledgement. -/
  | keepAlive

/-- The bytes of a message. -/
def Message.bytes : Message → List Byte
  | .frame f => f.bytes
  | .keepAlive => ack

/-- The bytes that are written. -/
def wire (ms : List Message) : List Byte := ms.flatMap Message.bytes

/-- The frame of a located message. -/
def asFrame : ℕ × Message → Option (ℕ × Frame)
  | (a, .frame f) => some (a, f)
  | (_, .keepAlive) => none

/-- The frames with the offsets at which they start. -/
def frames (ms : List Message) : List (ℕ × Frame) := (located Message.bytes 0 ms).filterMap asFrame

/-- What was framed, in order. -/
def framed (ms : List Message) : List Content := (frames ms).map fun x => x.2.content

theorem length_bytes (f : Frame) : f.bytes.length = f.payload.length + 7 := by
  rw [Frame.bytes, List.length_append, Nat.add_comm]
  rfl

theorem mem_frames {ms : List Message} {x : ℕ × Frame} :
    x ∈ frames ms ↔ (x.1, Message.frame x.2) ∈ located Message.bytes 0 ms := by
  rw [frames, List.mem_filterMap]
  constructor
  · rintro ⟨⟨a, m⟩, hmem, hx⟩
    cases m with
    | frame f =>
      cases hx
      exact hmem
    | keepAlive => cases hx
  · intro h
    exact ⟨_, h, rfl⟩

theorem pairwise_frames (ms : List Message) : (frames ms).Pairwise fun x y => x.1 < y.1 := by
  rw [frames, List.pairwise_filterMap]
  refine (pairwise_located Message.bytes ms 0).imp ?_
  rintro ⟨a, m⟩ ⟨b, m'⟩ h x hx y hy
  cases m with
  | keepAlive => cases hx
  | frame f =>
    cases m' with
    | keepAlive => cases hy
    | frame g =>
      cases hx
      cases hy
      have hlen := length_bytes f
      rw [Before, Message.bytes] at h
      simp only at h ⊢
      omega

/-- The wire holds a frame from its offset on. -/
theorem getElem?_wire {ms : List Message} {x : ℕ × Frame} (hx : x ∈ frames ms) {i : ℕ}
    (hi : i < x.2.payload.length + 7) : (wire ms)[x.1 + i]? = x.2.bytes[i]? := by
  refine getElem?_of_mem_located (mem_frames.mp hx) ?_
  rw [Message.bytes, length_bytes]
  exact hi

/-! ### The bytes of a frame -/

theorem getElem?_bytes_payload (f : Frame) (i : ℕ) : f.bytes[i + 7]? = f.payload[i]? := by
  rw [Frame.bytes, List.getElem?_append_right (by rw [header]; simp)]
  rfl

theorem getElem?_bytes_header (f : Frame) {i : ℕ} (hi : i < 7) :
    f.bytes[i]? = (header (typeByte f.type) f.payload.length)[i]? := by
  rw [Frame.bytes, List.getElem?_append_left hi]

theorem typeByte_bounds (type : MessageType) : 1 ≤ (typeByte type).toNat ∧ (typeByte type).toNat ≤ 6 := by
  cases type <;> decide

theorem typeByte_eq_six {type : MessageType} (h : typeByte type = 6) : type = .serverLoginRquest := by
  cases type <;> first | rfl | exact absurd h (by decide)

/-- A text byte of a frame is its length or its payload. -/
theorem five_le_of_text {f : Frame} {i : ℕ} {b : Byte} (h : f.bytes[i]? = some b)
    (hb : 0x20 ≤ b.toNat) : 5 ≤ i := by
  by_contra hi
  have htype := (typeByte_bounds f.type).2
  rw [getElem?_bytes_header f (by omega), header] at h
  obtain _ | _ | _ | _ | _ | i := i
  · cases h
    exact absurd hb (by decide)
  · cases h
    exact absurd hb (by decide)
  · cases h
    exact absurd hb (by decide)
  · cases h
    exact absurd hb (by decide)
  · cases h
    omega
  · omega

/-- A byte from 1 to 6 of a frame, from the third magic byte on, is in its header. -/
theorem header_of_small {f : Frame} {i : ℕ} {b : Byte} (h : f.bytes[i]? = some b)
    (hb : 1 ≤ b.toNat ∧ b.toNat ≤ 6) (hi : 2 ≤ i) : 3 ≤ i ∧ i ≤ 6 := by
  refine ⟨?_, ?_⟩
  · by_contra h3
    obtain rfl : i = 2 := by omega
    rw [getElem?_bytes_header f (by omega), header] at h
    cases h
    exact absurd hb.2 (by decide)
  · by_contra h6
    obtain ⟨j, rfl⟩ : ∃ j, i = j + 7 := ⟨i - 7, by omega⟩
    rw [getElem?_bytes_payload] at h
    have htext := f.text b (List.mem_of_getElem? h)
    omega

/-! ### Texts on the wire -/

/-- A text byte of the wire is in a frame, past its type. -/
theorem exists_frame_of_byte {ms : List Message} {q : ℕ} {b : Byte} (h : (wire ms)[q]? = some b)
    (hb : 0x20 ≤ b.toNat) : ∃ x ∈ frames ms, x.1 + 5 ≤ q ∧ q < x.1 + (x.2.payload.length + 7) := by
  obtain ⟨hlt, -⟩ := List.getElem?_eq_some_iff.mp h
  obtain ⟨⟨a, m⟩, hmem, hle, hq⟩ := exists_mem_located (Nat.zero_le q) (by rw [Nat.zero_add]; exact hlt)
  have hbyte : m.bytes[q - a]? = some b := by
    rw [← h, ← getElem?_of_mem_located hmem (by simp only at hq ⊢; omega)]
    congr 1
    simp only at hle ⊢
    omega
  cases m with
  | keepAlive =>
    have hmem := List.mem_of_getElem? hbyte
    simp only [Message.bytes, ack, List.mem_cons, List.not_mem_nil, or_false] at hmem
    rcases hmem with rfl | rfl | rfl | rfl <;> exact absurd hb (by decide)
  | frame f =>
    have h5 := five_le_of_text hbyte hb
    simp only [Message.bytes, length_bytes] at hq hle
    exact ⟨(a, f), mem_frames.mpr hmem, by simp only; omega, hq⟩

/-- Two frames are the same or apart. -/
theorem frames_apart {ms : List Message} {x y : ℕ × Frame} (hx : x ∈ frames ms) (hy : y ∈ frames ms) :
    x = y ∨ x.1 + (x.2.payload.length + 7) ≤ y.1 ∨ y.1 + (y.2.payload.length + 7) ≤ x.1 := by
  have h := eq_or_before (mem_frames.mp hx) (mem_frames.mp hy)
  simp only [Before, Message.bytes, length_bytes, Prod.mk.injEq, Message.frame.injEq] at h
  rcases h with ⟨h1, h2⟩ | h
  · exact Or.inl (Prod.ext h1 h2)
  · exact Or.inr h

/-- A run of text bytes stays in one frame. -/
theorem exists_frame_of_run {ms : List Message} {q k : ℕ} (hk : 0 < k)
    (h : ∀ i < k, ∃ b, (wire ms)[q + i]? = some b ∧ 0x20 ≤ b.toNat) :
    ∃ x ∈ frames ms, x.1 + 5 ≤ q ∧ q + k ≤ x.1 + (x.2.payload.length + 7) := by
  obtain ⟨b, hbyte, hb⟩ := h 0 hk
  obtain ⟨x, hx, hle, hlt⟩ := exists_frame_of_byte hbyte hb
  refine ⟨x, hx, hle, ?_⟩
  by_contra hend
  -- otherwise the run reaches the byte after the frame, which lies in another frame's magic
  obtain ⟨b', hbyte', hb'⟩ := h (x.1 + (x.2.payload.length + 7) - q) (by omega)
  obtain ⟨y, hy, hle', hlt'⟩ := exists_frame_of_byte hbyte' hb'
  rcases frames_apart hx hy with rfl | hapart | hapart
  · omega
  · omega
  · omega

/-- **What reads as a frame lies within two bytes of one.** -/
theorem exists_frame_of_text {ms : List Message} {b k : ℕ} {t : Byte} (ht : (wire ms)[b + 4]? = some t)
    (htype : 1 ≤ t.toNat ∧ t.toNat ≤ 6) (hk : 0 < k)
    (h : ∀ i < k, ∃ v, (wire ms)[b + 7 + i]? = some v ∧ 0x20 ≤ v.toNat) :
    ∃ x ∈ frames ms, x.1 ≤ b + 1 ∧ b ≤ x.1 + 2 ∧ b + 7 + k ≤ x.1 + (x.2.payload.length + 7) := by
  obtain ⟨x, hx, hle, hend⟩ := exists_frame_of_run hk h
  have hbyte : x.2.bytes[b + 4 - x.1]? = some t := by
    rw [← getElem?_wire hx (by omega), ← ht]
    congr 1
    omega
  obtain ⟨h3, h6⟩ := header_of_small hbyte htype (by omega)
  exact ⟨x, hx, by omega, by omega, hend⟩

/-! ### Reads of their own -/

/-- The reads a side serves, with the offsets at which they start. -/
def Reader.served (r : Reader) (reads : List (List Byte)) : List (ℕ × List Byte) :=
  (located id 0 (reads.takeWhile fun recedata => !r.stops recedata)).filter fun x => r.serves x.2

/-- The read holds the frame; or it starts one byte early, on a login whose text repeats the
low byte of its own length. -/
def Covers (x : ℕ × List Byte) (y : ℕ × Frame) : Prop :=
  x.2.length = y.2.payload.length + 7 ∧ (x.1 = y.1 ∨
    (x.1 + 1 = y.1 ∧ y.2.type = .serverLoginRquest ∧ ∀ b ∈ y.2.payload, b = lengthLow y.2.payload.length))

/-- Every frame has a read of its own, and no other read is served. -/
def OwnReads (r : Reader) (ms : List Message) (reads : List (List Byte)) : Prop :=
  List.Forall₂ Covers (r.served reads) (frames ms)

theorem map_content_served (r : Reader) (reads : List (List Byte)) :
    (r.served reads).map (fun x => content x.2) = r.handled reads := by
  rw [Reader.served, Reader.handled]
  conv_rhs => rw [← map_snd_located id (reads.takeWhile fun recedata => !r.stops recedata) 0, List.filter_map,
    List.map_map]
  rfl

theorem pairwise_served (r : Reader) (reads : List (List Byte)) : (r.served reads).Pairwise (Before id) :=
  (pairwise_located id _ 0).filter _

section Wire

variable {r : Reader} {ms : List Message} {reads : List (List Byte)}

/-- The wire holds a served read from its offset on. -/
theorem getElem?_served (hwire : reads.flatten = wire ms) {x : ℕ × List Byte} (hx : x ∈ r.served reads) {i : ℕ}
    (hi : i < x.2.length) : (wire ms)[x.1 + i]? = x.2[i]? := by
  have hmem : x ∈ located id 0 reads := by
    rw [← List.takeWhile_append_dropWhile (p := fun recedata => !r.stops recedata) (l := reads), located_append]
    exact List.mem_append_left _ (List.mem_of_mem_filter hx)
  have h := getElem?_of_mem_located hmem hi
  rwa [List.flatMap_id, hwire] at h

/-- A read that holds a frame, or starts one byte early on such a login, is handled as the
frame. -/
theorem content_of_covers (hwire : reads.flatten = wire ms) {x : ℕ × List Byte} (hx : x ∈ r.served reads)
    {y : ℕ × Frame} (hy : y ∈ frames ms) (h : Covers x y) : content x.2 = y.2.content := by
  obtain ⟨hlen, hsame | ⟨hearly, htype, hrepeat⟩⟩ := h
  · have hread : x.2 = y.2.bytes := by
      refine List.ext_getElem? fun i => ?_
      by_cases hi : i < x.2.length
      · rw [← getElem?_served hwire hx hi, hsame, getElem?_wire hy (by omega)]
      · rw [List.getElem?_eq_none (by omega), List.getElem?_eq_none (by rw [length_bytes]; omega)]
    rw [hread]
    rfl
  · -- every byte of the read is the next one of the frame
    have hnext (i : ℕ) (hi : i + 1 < x.2.length) : x.2[i + 1]? = y.2.bytes[i]? := by
      rw [← getElem?_served hwire hx hi, ← getElem?_wire hy (by omega)]
      congr 1
      omega
    refine Prod.ext ?_ (List.ext_getElem? fun i => ?_)
    · rw [content, List.getD_eq_getElem?_getD, hnext 3 (by omega), Frame.content, htype]
      rfl
    · rw [content, List.getElem?_drop]
      change x.2[7 + i]? = y.2.payload[i]?
      by_cases hi : i < y.2.payload.length
      · rw [show 7 + i = (i + 6) + 1 by omega, hnext _ (by omega), List.getElem?_eq_getElem hi,
          hrepeat _ (List.getElem_mem hi)]
        cases i with
        | zero => rfl
        | succ i => rw [show i + 1 + 6 = i + 7 by omega, getElem?_bytes_payload, List.getElem?_eq_getElem (by omega),
            hrepeat _ (List.getElem_mem _)]
      · rw [List.getElem?_eq_none (by omega), List.getElem?_eq_none (by omega)]

/-- What a served read and a frame share when the read is taken for a frame near it. -/
structure Near (r : Reader) (ms : List Message) (reads : List (List Byte)) (x : ℕ × List Byte) (y : ℕ × Frame) :
    Prop where
  served : x ∈ r.served reads
  framed : y ∈ frames ms
  long : 8 ≤ x.2.length
  start : y.1 ≤ x.1 + 1
  late : x.1 ≤ y.1 + 2
  within : x.1 + x.2.length ≤ y.1 + (y.2.payload.length + 7)

/-- A read handled as some frame lies near one. -/
theorem exists_near (hwire : reads.flatten = wire ms) {x : ℕ × List Byte} (hx : x ∈ r.served reads) {f : Frame}
    (h : content x.2 = f.content) : ∃ y ∈ frames ms, Near r ms reads x y := by
  obtain ⟨htype, hpayload⟩ := Prod.mk.inj h
  have hpos := List.length_pos_iff.mpr f.ne_nil
  have hlen : x.2.length = f.payload.length + 7 := by
    have := congrArg List.length hpayload
    rw [List.length_drop] at this
    omega
  have h4 : (wire ms)[x.1 + 4]? = some (typeByte f.type) := by
    rw [getElem?_served hwire hx (by omega), ← htype, List.getD_eq_getElem _ _ (by omega)]
    exact List.getElem?_eq_getElem _
  obtain ⟨y, hy, hstart, hlate, hwithin⟩ := exists_frame_of_text (k := f.payload.length) h4 (typeByte_bounds f.type) hpos
    fun i hi => ⟨f.payload[i], by
      rw [Nat.add_assoc, getElem?_served hwire hx (by omega), ← List.getElem?_drop, hpayload]
      exact List.getElem?_eq_getElem hi, f.text _ (List.getElem_mem hi)⟩
  exact ⟨y, hy, hx, hy, by omega, hstart, hlate, by omega⟩

/-- A read that is handled as the frame near it covers it. -/
theorem covers_of_near (hwire : reads.flatten = wire ms) {x : ℕ × List Byte} {y : ℕ × Frame}
    (hnear : Near r ms reads x y) (h : content x.2 = y.2.content) : Covers x y := by
  obtain ⟨hx, hy, hlong, hstart, hlate, hwithin⟩ := hnear
  obtain ⟨htype, hpayload⟩ := Prod.mk.inj h
  have hlen : x.2.length = y.2.payload.length + 7 := by
    have := congrArg List.length hpayload
    rw [List.length_drop] at this
    omega
  refine ⟨hlen, ?_⟩
  by_cases hsame : x.1 = y.1
  · exact Or.inl hsame
  · have hearly : x.1 + 1 = y.1 := by omega
    have hnext (i : ℕ) (hi : i + 1 < x.2.length) : x.2[i + 1]? = y.2.bytes[i]? := by
      rw [← getElem?_served hwire hx hi, ← getElem?_wire hy (by omega)]
      congr 1
      omega
    refine Or.inr ⟨hearly, typeByte_eq_six ?_, ?_⟩
    · rw [List.getD_eq_getElem?_getD, hnext 3 (by omega)] at htype
      exact htype.symm
    · have hrepeat (i : ℕ) (hi : i < y.2.payload.length) :
          y.2.payload[i]? = some (lengthLow y.2.payload.length) := by
        have hbyte (i : ℕ) (hi : i < y.2.payload.length) : y.2.payload[i]? = y.2.bytes[i + 6]? := by
          rw [← hnext (i + 6) (by omega), ← hpayload, List.getElem?_drop]
          congr 1
          omega
        induction i with
        | zero => rw [hbyte 0 hi]; rfl
        | succ i ih => rw [hbyte _ hi, show i + 1 + 6 = i + 7 by omega, getElem?_bytes_payload, ih (by omega)]
      intro b hb
      obtain ⟨i, hi, rfl⟩ := List.getElem_of_mem hb
      have := hrepeat i hi
      rw [List.getElem?_eq_getElem hi] at this
      exact Option.some.inj this

/-- A side handles what was framed exactly when every frame has a read of its own. -/
theorem handled_eq_framed_iff (hwire : reads.flatten = wire ms) :
    r.handled reads = framed ms ↔ OwnReads r ms reads := by
  rw [← map_content_served, framed, map_eq_map_iff_forall₂]
  constructor
  · intro hcontent
    have hmatch : ∀ x ∈ r.served reads, ∃ y ∈ frames ms, Near r ms reads x y := by
      intro x hx
      have hmem : content x.2 ∈ (frames ms).map fun y => y.2.content := by
        rw [← map_eq_map_iff_forall₂.mpr hcontent]
        exact List.mem_map_of_mem hx
      obtain ⟨y, -, hy⟩ := List.mem_map.mp hmem
      exact exists_near hwire hx hy.symm
    have hnear : List.Forall₂ (Near r ms reads) (r.served reads) (frames ms) := by
      refine forall₂_of_matched ?_ (pairwise_served r reads) (pairwise_frames ms) hmatch hcontent.length_eq
      intro x x' y y' hxy hxy' hbefore
      have := hxy.start
      have := hxy.long
      have := hxy'.late
      rw [Before, id] at hbefore
      omega
    exact (forall₂_and hnear hcontent).imp fun x y hxy => covers_of_near hwire hxy.1 hxy.2
  · intro h
    exact forall₂_imp_of_mem h fun x hx y hy => content_of_covers hwire hx hy

end Wire

/-! ### What the two sides write -/

/-- An upload of the device is a frame. -/
theorem exists_frame_createUploadData (md5 : Digest) (randNumber : Draw) (type : MessageType) {s : List Char}
    (hne : s ≠ []) (hlast : s.getLast? ≠ some '\x00') :
    ∃ f : Frame, f.type = type ∧
      createUploadData md5 randNumber type.code (utf16 s) = .ok (f.bytes, selector randNumber) := by
  refine ⟨⟨type, cipherBytes (utf16 s) (drawKey md5 randNumber), cipherBytes_ne_nil _ _, fun b hb => ?_⟩, rfl,
    createUploadData_eq md5 randNumber type.code hne hlast⟩
  have := (cipherBytes_bounds _ _ b hb).1
  omega

/-- So is a request of the server, whose text has no control characters. -/
theorem exists_frame_serverCreateUploadData (type : MessageType) {uploadJsondata : JString}
    (hne : getBytes uploadJsondata ≠ []) (htext : ∀ b ∈ getBytes uploadJsondata, 0x20 ≤ b.toNat) :
    ∃ f : Frame, f.content = (typeByte type, getBytes uploadJsondata) ∧
      serverCreateUploadData type.code uploadJsondata = .ok f.bytes :=
  ⟨⟨type, getBytes uploadJsondata, hne, htext⟩, rfl, writeFrame_eq _ _⟩

/-- The reply of the server. -/
def replyFrame : Frame where
  type := .lowperyLocation
  payload := replyContent
  ne_nil := by decide
  text b hb := of_decide_eq_true (List.all_eq_true.mp (by decide : replyContent.all (0x20 ≤ ·.toNat) = true) b hb)

/-- Whatever the server reads, it writes its reply or an acknowledgement. -/
theorem serverAction_message {recedata : List Byte} {printed : Option Content} {backdata : List Byte}
    (h : serverAction recedata = .ok (printed, backdata)) :
    backdata = (Message.frame replyFrame).bytes ∨ backdata = Message.keepAlive.bytes := by
  unfold serverAction at h
  cases hprint : printData recedata with
  | error e =>
    rw [hprint] at h
    cases h
  | ok content =>
    simp only [hprint, ok_bind, writeFrame_eq] at h
    split_ifs at h with htype
    · cases h
      rw [htype]
      exact Or.inl rfl
    · cases h
      exact Or.inr rfl

/-! ### Both sides -/

/-- **Each side handles what the other framed exactly when every frame had a read of its own.** -/
theorem handled_iff_ownReads {ServerResponse ServerRequest : Type}
    (gson : GsonReader ServerResponse ServerRequest) (ms : List Message) (reads : List (List Byte))
    (hwire : reads.flatten = wire ms) :
    (deviceHandled gson reads = framed ms ↔ OwnReads (deviceReader gson) ms reads) ∧
      (serverHandled reads = framed ms ↔ OwnReads serverReader ms reads) := by
  rw [deviceHandled_eq, serverHandled_eq]
  exact ⟨handled_eq_framed_iff hwire, handled_eq_framed_iff hwire⟩

/-- Gson on the server's reply. -/
def replyGson : GsonReader (ℕ × JString × ℕ) Unit where
  toResponse json := if json = newString replyContent then .ok (0, lit "ok", 1001) else .error .json
  toRequest _ := .error .json

theorem replyGson_toResponse : replyGson.toResponse (newString replyContent) = .ok (0, lit "ok", 1001) := by
  simp only [replyGson, if_true]

theorem handled_iff_ownReads_reply :
    (deviceHandled replyGson [replyFrame.bytes, ack] = framed [.frame replyFrame, .keepAlive] ↔
      OwnReads (deviceReader replyGson) [.frame replyFrame, .keepAlive] [replyFrame.bytes, ack]) ∧
    (serverHandled [replyFrame.bytes, ack] = framed [.frame replyFrame, .keepAlive] ↔
      OwnReads serverReader [.frame replyFrame, .keepAlive] [replyFrame.bytes, ack]) :=
  handled_iff_ownReads replyGson _ _ rfl

theorem length_handled_le (r : Reader) (reads : List (List Byte)) :
    (r.handled reads).length ≤ reads.length := by
  rw [Reader.handled, List.length_map]
  exact (List.length_filter_le _ _).trans (List.takeWhile_sublist _).length_le

/-- Two frames in one read are never both handled. -/
theorem handled_ne_framed_pair (r : Reader) (f : Frame) :
    r.handled [wire [.frame f, .frame f]] ≠ framed [.frame f, .frame f] := by
  intro h
  have hle := length_handled_le r [wire [.frame f, .frame f]]
  rw [h] at hle
  exact absurd hle (by decide : ¬ 2 ≤ 1)

/-- A login of the device, with a ciphertext of 64 digits. -/
def loginFrame : Frame where
  type := .serverLoginRquest
  payload := List.replicate 64 0x30
  ne_nil := by decide
  text b hb := by
    rw [List.eq_of_mem_replicate hb]
    decide

/-- Two replies of the server in one read of the device, and two logins of the device in
one read of the server. -/
theorem not_handled_coalesced :
    (¬ ∀ (gson : GsonReader (ℕ × JString × ℕ) Unit) (ms : List Message) (reads : List (List Byte)), [] ∉ reads →
      reads.flatten = wire ms → (∀ f, Message.frame f ∈ ms → ∃ r, gson.toResponse (newString f.payload) = .ok r) →
      deviceHandled gson reads = framed ms) ∧
    (¬ ∀ (ms : List Message) (reads : List (List Byte)), [] ∉ reads → reads.flatten = wire ms →
      serverHandled reads = framed ms) := by
  have hne (f : Frame) : [] ∉ [wire [.frame f, .frame f]] := by
    rw [List.mem_singleton]
    exact (List.cons_ne_nil _ _).symm
  have hwire (f : Frame) : [wire [.frame f, .frame f]].flatten = wire [.frame f, .frame f] := List.append_nil _
  constructor
  · intro h
    refine handled_ne_framed_pair (deviceReader replyGson) replyFrame ((deviceHandled_eq _ _).symm.trans
      (h replyGson _ _ (hne replyFrame) (hwire replyFrame) ?_))
    intro f hf
    obtain rfl : f = replyFrame := by simpa using hf
    exact ⟨_, replyGson_toResponse⟩
  · intro h
    exact handled_ne_framed_pair serverReader loginFrame ((serverHandled_eq _).symm.trans
      (h _ _ (hne loginFrame) (hwire loginFrame)))

end GpsTracker.Tcp
