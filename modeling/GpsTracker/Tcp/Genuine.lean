import GpsTracker.Tcp.Segmentation

/-!
# Genuine messages

A receiver takes the fifth byte of a read for the message type, wherever the read
starts. So the end of one frame and the start of the next may be taken for a message
that nobody sent. For a type from 1 to 5 that happens in some segmentation exactly
when a frame has a byte of its length that is the type (`genuine_iff`): no other byte
of a frame can be, but the type byte itself.

Where no length byte is, the reads that are handled as messages of the type start
with different frames of the type, in order, whatever the segmentation
(`exists_senders`), so there are no more of them (`count_handled_le`).
-/

namespace GpsTracker.Tcp

open GpsTracker.Java GpsTracker.Upload GpsTracker.Pieces

/-- A byte of the frame's length is the type. -/
def Echoes (type : MessageType) (f : Frame) : Prop :=
  lengthHigh f.payload.length = typeByte type ∨ lengthLow f.payload.length = typeByte type

instance (type : MessageType) (f : Frame) : Decidable (Echoes type f) := inferInstanceAs (Decidable (_ ∨ _))

/-- Every read that shows the type starts with a frame of the type. -/
def Genuine (type : MessageType) (ms : List Message) (reads : List (List Byte)) : Prop :=
  ∀ x ∈ located id 0 reads, x.2[4]? = some (typeByte type) → ∃ y ∈ frames ms, y.1 = x.1 ∧ y.2.type = type

theorem eq_of_typeByte_eq {type type' : MessageType} (h : typeByte type = typeByte type') : type = type' := by
  cases type <;> cases type' <;> first | rfl | exact absurd h (by decide)

/-- The type is none of the bytes of the magic. -/
theorem typeByte_notMem_ack {type : MessageType} (htype : type ≠ .serverLoginRquest) : typeByte type ∉ ack := by
  cases type <;> first | decide | exact absurd rfl htype

/-! ### Where a type is seen -/

/-- A frame shows the type at its type byte, or echoes it. -/
theorem index_of_bytes_eq {type : MessageType} (htype : type ≠ .serverLoginRquest) {f : Frame}
    (hecho : ¬ Echoes type f) {i : ℕ}
    (h : f.bytes[i]? = some (typeByte type)) : i = 4 ∧ f.type = type := by
  by_cases hi : i < 7
  · have hmagic := typeByte_notMem_ack htype
    rw [getElem?_bytes_header f hi, header] at h
    obtain _ | _ | _ | _ | _ | _ | _ | i := i
    · exact absurd (Option.some.inj h ▸ by decide) hmagic
    · exact absurd (Option.some.inj h ▸ by decide) hmagic
    · exact absurd (Option.some.inj h ▸ by decide) hmagic
    · exact absurd (Option.some.inj h ▸ by decide) hmagic
    · exact ⟨rfl, eq_of_typeByte_eq (Option.some.inj h)⟩
    · exact absurd (Or.inl (Option.some.inj h)) hecho
    · exact absurd (Or.inr (Option.some.inj h)) hecho
    · omega
  · obtain ⟨j, rfl⟩ : ∃ j, i = j + 7 := ⟨i - 7, by omega⟩
    rw [getElem?_bytes_payload] at h
    have htext := f.text _ (List.mem_of_getElem? h)
    have hsmall := (typeByte_bounds type).2
    omega

/-- On the wire the type is seen at the type bytes of its frames only. -/
theorem exists_frame_of_typeByte {type : MessageType} (htype : type ≠ .serverLoginRquest) {ms : List Message}
    (hecho : ∀ x ∈ frames ms, ¬ Echoes type x.2) {q : ℕ} (h : (wire ms)[q]? = some (typeByte type)) :
    ∃ y ∈ frames ms, y.1 + 4 = q ∧ y.2.type = type := by
  obtain ⟨hlt, -⟩ := List.getElem?_eq_some_iff.mp h
  obtain ⟨⟨a, m⟩, hmem, hle, hq⟩ := exists_mem_located (Nat.zero_le q) (by rw [Nat.zero_add]; exact hlt)
  simp only at hle hq
  have hbyte : m.bytes[q - a]? = some (typeByte type) := by
    rw [← h, ← getElem?_of_mem_located hmem (by simp only; omega)]
    congr 1
    simp only
    omega
  cases m with
  | keepAlive => exact absurd (List.mem_of_getElem? hbyte) (typeByte_notMem_ack htype)
  | frame f =>
    have hframe : (a, f) ∈ frames ms := mem_frames.mpr hmem
    obtain ⟨hi, hf⟩ := index_of_bytes_eq htype (hecho _ hframe) hbyte
    exact ⟨(a, f), hframe, by simp only; omega, hf⟩

/-! ### Reads of a part of the wire -/

/-- What has been read lies on the wire. -/
theorem getElem?_located {ms : List Message} {reads : List (List Byte)} (hwire : reads.flatten <+: wire ms)
    {x : ℕ × List Byte} (hx : x ∈ located id 0 reads) {i : ℕ} (hi : i < x.2.length) : (wire ms)[x.1 + i]? = x.2[i]? := by
  have h : reads.flatten[x.1 + i]? = x.2[i]? := by
    have hread := getElem?_of_mem_located hx hi
    rwa [List.flatMap_id] at hread
  have hlt : x.1 + i < reads.flatten.length := by
    rw [List.getElem?_eq_getElem hi] at h
    exact (List.getElem?_eq_some_iff.mp h).1
  obtain ⟨rest, hrest⟩ := hwire
  rw [← hrest, List.getElem?_append_left hlt, h]

/-- Without echoes, every read that shows the type is genuine. -/
theorem genuine_of_not_echoes {type : MessageType} (htype : type ≠ .serverLoginRquest) {ms : List Message}
    (hecho : ∀ x ∈ frames ms, ¬ Echoes type x.2) {reads : List (List Byte)} (hwire : reads.flatten <+: wire ms) :
    Genuine type ms reads := by
  intro x hx hbyte
  obtain ⟨h4, -⟩ := List.getElem?_eq_some_iff.mp hbyte
  obtain ⟨y, hy, hpos, hytype⟩ := exists_frame_of_typeByte htype hecho ((getElem?_located hwire hx h4).trans hbyte)
  exact ⟨y, hy, by omega, hytype⟩

/-- A read that starts inside a frame, where the fifth byte from there is the type, is not. -/
theorem not_genuine_of_cut {type : MessageType} {ms : List Message} {x : ℕ × Frame} (hx : x ∈ frames ms) {k : ℕ}
    (hk : 0 < k) (hlt : k + 4 < x.2.payload.length + 7) (hbyte : x.2.bytes[k + 4]? = some (typeByte type)) :
    ¬ Genuine type ms [(wire ms).take (x.1 + k), (wire ms).drop (x.1 + k)] := by
  have hwire : (wire ms)[x.1 + k + 4]? = some (typeByte type) := by
    rw [Nat.add_assoc, getElem?_wire hx hlt, hbyte]
  obtain ⟨hend, -⟩ := List.getElem?_eq_some_iff.mp hwire
  have hlocated : (x.1 + k, (wire ms).drop (x.1 + k)) ∈
      located id 0 [(wire ms).take (x.1 + k), (wire ms).drop (x.1 + k)] := by
    refine List.mem_cons_of_mem _ (List.mem_cons.mpr (Or.inl ?_))
    rw [id, List.length_take, Nat.zero_add, Nat.min_eq_left (by omega)]
  intro h
  obtain ⟨y, hy, hpos, -⟩ := h _ hlocated (by rw [List.getElem?_drop]; exact hwire)
  -- the frame found there would lie inside the frame that was cut
  simp only at hpos
  rcases frames_apart hx hy with rfl | hapart | hapart
  · omega
  · omega
  · omega

/-- **A type from 1 to 5 is seen in its own frames only, however the bytes are cut in reads,
exactly when it is no length byte of a frame.** -/
theorem genuine_iff {type : MessageType} (htype : type ≠ .serverLoginRquest) (ms : List Message) :
    (∀ reads : List (List Byte), [] ∉ reads → reads.flatten <+: wire ms → Genuine type ms reads) ↔
      ∀ x ∈ frames ms, ¬ Echoes type x.2 := by
  refine ⟨fun h x hx hecho => ?_, fun hecho reads _ hwire => genuine_of_not_echoes htype hecho hwire⟩
  have hpos := List.length_pos_iff.mpr x.2.ne_nil
  have hcut {k : ℕ} (hk : 0 < k) (hlt : k + 4 < x.2.payload.length + 7)
      (hbyte : x.2.bytes[k + 4]? = some (typeByte type)) : False := by
    have hend : x.1 + k + 4 < (wire ms).length := by
      have hwire := getElem?_wire hx hlt
      rw [hbyte, ← Nat.add_assoc] at hwire
      exact (List.getElem?_eq_some_iff.mp hwire).1
    refine not_genuine_of_cut hx hk hlt hbyte (h _ ?_ ?_)
    · simp only [List.mem_cons, List.not_mem_nil, or_false, not_or]
      refine ⟨?_, ?_⟩
      · exact (List.ne_nil_of_length_pos (by rw [List.length_take]; omega)).symm
      · exact (List.ne_nil_of_length_pos (by rw [List.length_drop]; omega)).symm
    · simp
  rcases hecho with hecho | hecho
  · exact hcut (k := 1) Nat.one_pos (by omega) (by rw [getElem?_bytes_header _ (by decide), ← hecho]; rfl)
  · exact hcut (k := 2) Nat.two_pos (by omega) (by rw [getElem?_bytes_header _ (by decide), ← hecho]; rfl)

/-- The server's reply in two reads, the second with a keep-alive behind it. -/
theorem genuine_iff_reply : Genuine .serverSendRquestLocation [.frame replyFrame, .keepAlive]
    [replyFrame.bytes.take 9, replyFrame.bytes.drop 9 ++ ack] :=
  (genuine_iff (by decide) [.frame replyFrame, .keepAlive]).mpr (by decide) _ (by decide) (by decide)

/-! ### What is handled -/

/-- The reads of a type that a side serves. -/
def Reader.servedOf (r : Reader) (type : MessageType) (reads : List (List Byte)) : List (ℕ × List Byte) :=
  (r.served reads).filter fun x => decide (x.2[4]? = some (typeByte type))

/-- The frames of a type. -/
def framesOf (type : MessageType) (ms : List Message) : List (ℕ × Frame) :=
  (frames ms).filter fun y => decide (y.2.type = type)

/-- The frame a read starts with; one of the two payloads begins with the other. -/
structure SentBy (x : ℕ × List Byte) (y : ℕ × Frame) : Prop where
  start : y.1 = x.1
  long : 5 ≤ x.2.length
  payload : x.2.drop 7 <+: y.2.payload ∨ y.2.payload <+: x.2.drop 7

theorem mem_located_of_served {r : Reader} {reads : List (List Byte)} {x : ℕ × List Byte}
    (hx : x ∈ r.served reads) :
    x ∈ located id 0 reads := by
  rw [← List.takeWhile_append_dropWhile (p := fun recedata => !r.stops recedata) (l := reads), located_append]
  exact List.mem_append_left _ (List.mem_of_mem_filter hx)

/-- A read and a frame that start together go on together. -/
theorem sentBy_of_start {ms : List Message} {reads : List (List Byte)} (hwire : reads.flatten <+: wire ms)
    {x : ℕ × List Byte} (hx : x ∈ located id 0 reads) (h5 : 5 ≤ x.2.length) {y : ℕ × Frame} (hy : y ∈ frames ms)
    (hstart : y.1 = x.1) : SentBy x y := by
  have hread : x.2 <+: (wire ms).drop x.1 := by
    refine List.prefix_iff_getElem?.mpr fun i hi => ?_
    rw [List.getElem?_drop, getElem?_located hwire hx hi, List.getElem?_eq_getElem hi]
  have hframe : y.2.bytes <+: (wire ms).drop x.1 := by
    refine List.prefix_iff_getElem?.mpr fun i hi => ?_
    rw [List.getElem?_drop, ← hstart, getElem?_wire hy (by rwa [length_bytes] at hi),
      List.getElem?_eq_getElem hi]
  exact ⟨hstart, h5, List.prefix_or_prefix_of_prefix (hread.drop 7) (hframe.drop 7)⟩

/-- **Without echoes, the messages of a type that are handled have different senders, in order.** -/
theorem exists_senders {type : MessageType} (htype : type ≠ .serverLoginRquest) {ms : List Message}
    (hecho : ∀ x ∈ frames ms, ¬ Echoes type x.2) {reads : List (List Byte)} (hwire : reads.flatten <+: wire ms)
    (r : Reader) : ∃ ys, ys.Sublist (framesOf type ms) ∧ List.Forall₂ SentBy (r.servedOf type reads) ys := by
  refine exists_sublist_of_matched (fun x x' y y' hxy hxy' hbefore => ?_) ((pairwise_served r reads).filter _)
    ((pairwise_frames ms).filter _) fun x hx => ?_
  · have hstart := hxy.start
    have hlong := hxy.long
    have hstart' := hxy'.start
    rw [Before, id] at hbefore
    omega
  · obtain ⟨hserved, hbyte⟩ := List.mem_filter.mp hx
    have hbyte := of_decide_eq_true hbyte
    have hmem := mem_located_of_served hserved
    obtain ⟨h4, -⟩ := List.getElem?_eq_some_iff.mp hbyte
    obtain ⟨y, hy, hstart, hytype⟩ := genuine_of_not_echoes htype hecho hwire x hmem hbyte
    exact ⟨y, List.mem_filter.mpr ⟨hy, decide_eq_true hytype⟩, sentBy_of_start hwire hmem h4 hy hstart⟩

/-- So there are no more than there are frames of the type. -/
theorem count_handled_le {type : MessageType} (htype : type ≠ .serverLoginRquest) {ms : List Message}
    (hecho : ∀ x ∈ frames ms, ¬ Echoes type x.2) {reads : List (List Byte)} (hwire : reads.flatten <+: wire ms)
    {r : Reader} (hlong : ∀ recedata, r.serves recedata = true → 7 ≤ recedata.length) :
    (r.handled reads).countP (fun c => decide (c.1 = typeByte type)) ≤ (framesOf type ms).length := by
  obtain ⟨ys, hsub, hmatch⟩ := exists_senders htype hecho hwire r
  have hcount : (r.handled reads).countP (fun c => decide (c.1 = typeByte type)) = (r.servedOf type reads).length := by
    rw [← map_content_served, List.countP_map, List.countP_eq_length_filter, Reader.servedOf]
    congr 1
    refine List.filter_congr fun x hx => ?_
    have h7 := hlong _ (List.mem_filter.mp hx).2
    rw [Function.comp, content, List.getD_eq_getElem _ _ (by omega), List.getElem?_eq_getElem (by omega)]
    simp only [Option.some_inj]
  rw [hcount, hmatch.length_eq]
  exact hsub.length_le

end GpsTracker.Tcp
