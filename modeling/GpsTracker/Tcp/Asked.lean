import GpsTracker.Tcp.Genuine
import GpsTracker.Tcp.Traffic
import GpsTracker.Upload.Timestamps

/-!
# What the device is asked

The two ends together: what the `SocketAction` has written, requests as
`createUploadData` makes them (`Output.bytes_request`), goes to the device, which cuts
it in reads as it comes and posts an event for every read it handles. No byte of
what the server writes is a message type but the type bytes of its frames, so the
device posts nothing that was not sent, and the clock of the server bounds how often
the device is asked for its location (`always_asked`).
-/

namespace GpsTracker.Tcp.KeepAlive

open GpsTracker.Java GpsTracker.Upload GpsTracker.Pieces GpsTracker.Runs

/-! ### The frames of the server -/

/-- `GsonUtil.toJson(new ServerRequest())`, with its `dataTime`. -/
def requestJson (dataTime : JString) : JString :=
  lit "\x7b\"cmd\":\"location\",\"dataTime\":\"" ++ dataTime ++ lit "\"\x7d"

/-- The payload of a request made at an instant. -/
def requestPayload (zone now : ℤ) : List Byte := getBytes (requestJson (serverCreateTimeStamp zone now))

/-- The bytes that are written, on a connection that began at `start`. -/
def Output.bytes (zone start : ℤ) : Output → List Byte
  | .request time =>
    header (typeByte .serverSendRquestLocation) (requestPayload zone (start + time)).length ++
      requestPayload zone (start + time)
  | .reply backdata => backdata

/-- They are what `createUploadData` makes. -/
theorem Output.bytes_request (zone start : ℤ) (time : ℕ) :
    serverCreateUploadData MessageType.serverSendRquestLocation.code
      (requestJson (serverCreateTimeStamp zone (start + time))) = .ok (Output.bytes zone start (.request time)) :=
  writeFrame_eq _ _

/-- Every unit is a printable character of ASCII. -/
def printable (text : JString) : Bool := text.all fun u => decide (0x20 ≤ u.toNat ∧ u.toNat < 128)

theorem bounds_of_printable {text : JString} (h : printable text = true) :
    ∀ u ∈ text, 0x20 ≤ u.toNat ∧ u.toNat < 128 :=
  fun u hu => of_decide_eq_true (List.all_eq_true.mp h u hu)

/-- The units of a stamp are digits and separators. -/
theorem serverCreateTimeStamp_bounds {zone now : ℤ} (h : HasYear zone now) :
    (serverCreateTimeStamp zone now).length = 19 ∧
      ∀ u ∈ serverCreateTimeStamp zone now, 0x20 ≤ u.toNat ∧ u.toNat < 128 := by
  rw [serverCreateTimeStamp_eq h]
  refine ⟨by simp [serverList, stampTemplate, Digits.render], fun u hu => ?_⟩
  rcases Digits.mem_render hu with ⟨d, hd, rfl⟩ | ⟨t, ht, hu⟩
  · exact (by decide : ∀ d < 10, 0x20 ≤ (decUnit d).toNat ∧ (decUnit d).toNat < 128) d hd
  · have hseparators : ∀ t ∈ stampTemplate, printable t.2 = true := by decide
    exact bounds_of_printable (hseparators t ht) u hu

theorem requestJson_bounds {zone now : ℤ} (h : HasYear zone now) :
    ∀ u ∈ requestJson (serverCreateTimeStamp zone now), 0x20 ≤ u.toNat ∧ u.toNat < 128 := by
  intro u hu
  simp only [requestJson, List.mem_append] at hu
  rcases hu with (hu | hu) | hu
  · exact bounds_of_printable (by decide) u hu
  · exact (serverCreateTimeStamp_bounds h).2 u hu
  · exact bounds_of_printable (by decide) u hu

theorem requestPayload_eq {zone now : ℤ} (h : HasYear zone now) : requestPayload zone now =
    (requestJson (serverCreateTimeStamp zone now)).map fun u => UInt8.ofNat u.toNat :=
  getBytes_ascii fun u hu => (requestJson_bounds h u hu).2

theorem length_requestPayload {zone now : ℤ} (h : HasYear zone now) :
    (requestPayload zone now).length = 51 := by
  rw [requestPayload_eq h, List.length_map, requestJson, List.length_append, List.length_append,
    (serverCreateTimeStamp_bounds h).1]
  decide

theorem requestPayload_text {zone now : ℤ} (h : HasYear zone now) :
    ∀ b ∈ requestPayload zone now, 0x20 ≤ b.toNat := by
  intro b hb
  rw [requestPayload_eq h] at hb
  obtain ⟨u, hu, rfl⟩ := List.mem_map.mp hb
  have hbounds := requestJson_bounds h u hu
  rw [UInt8.toNat_ofNat', Nat.mod_eq_of_lt (by omega)]
  exact hbounds.1

/-- The frame of a request. -/
def requestFrame {zone now : ℤ} (h : HasYear zone now) : Frame where
  type := .serverSendRquestLocation
  payload := requestPayload zone now
  ne_nil := List.ne_nil_of_length_pos (by rw [length_requestPayload h]; decide)
  text := requestPayload_text h

/-- The message is a frame of the type. -/
def IsOf (type : MessageType) : Message → Bool
  | .frame f => decide (f.type = type)
  | .keepAlive => false

/-- The frames of a type among located messages are as many as the messages of the type. -/
theorem length_framesOf (type : MessageType) (ms : List Message) :
    (framesOf type ms).length = ms.countP (IsOf type) := by
  have h (off : ℕ) : (((located Message.bytes off ms).filterMap asFrame).filter fun y => decide (y.2.type = type)).length =
      ms.countP (IsOf type) := by
    induction ms generalizing off with
    | nil => rfl
    | cons m ms ih =>
      cases m with
      | keepAlive =>
        rw [located, List.filterMap_cons_none rfl, ih, List.countP_cons_of_neg (by exact Bool.false_ne_true)]
      | frame f =>
        have hframe : asFrame (off, .frame f) = some (off, f) := rfl
        rw [located, List.filterMap_cons_some hframe, List.filter_cons, List.countP_cons, IsOf]
        split_ifs
        · rw [List.length_cons, ih]
        · exact ih _
  exact h 0

/-! ### The messages of a connection -/

/-- What can be written: requests of a year with four digits, and what `doAction` returns. -/
def Output.Regular (zone start : ℤ) : Output → Prop
  | .request time => HasYear zone (start + time)
  | .reply backdata => backdata = (Message.frame replyFrame).bytes ∨ backdata = Message.keepAlive.bytes

/-- The messages that are written, and how many of each type there are. -/
theorem exists_messages (zone start : ℤ) {written : List Output}
    (h : ∀ output ∈ written, output.Regular zone start) :
    ∃ ms, wire ms = written.flatMap (Output.bytes zone start) ∧
      (∀ f, Message.frame f ∈ ms → f.type = .lowperyLocation ∧ f.payload.length = 38 ∨
        f.type = .serverSendRquestLocation ∧ f.payload.length = 51) ∧
      ms.countP (IsOf .serverSendRquestLocation) = written.countP Output.isRequest ∧
      ms.countP (IsOf .lowperyLocation) ≤ written.countP fun output => !output.isRequest := by
  induction written with
  | nil => exact ⟨[], rfl, nofun, rfl, le_rfl⟩
  | cons output written ih =>
    obtain ⟨ms, hwire, hframes, hrequests, hreplies⟩ := ih fun o ho => h o (List.mem_cons_of_mem _ ho)
    have hregular := h output List.mem_cons_self
    cases output with
    | request time =>
      refine ⟨.frame (requestFrame hregular) :: ms, ?_, fun f hf => ?_, ?_, ?_⟩
      · rw [wire, List.flatMap_cons, ← wire, hwire, List.flatMap_cons]
        rfl
      · rcases List.mem_cons.mp hf with hf | hf
        · obtain rfl := Message.frame.inj hf
          exact Or.inr ⟨rfl, length_requestPayload hregular⟩
        · exact hframes f hf
      · rw [List.countP_cons_of_pos rfl, List.countP_cons_of_pos rfl, hrequests]
      · rwa [List.countP_cons_of_neg (by exact Bool.false_ne_true), List.countP_cons_of_neg (by exact Bool.false_ne_true)]
    | reply backdata =>
      rcases hregular with rfl | rfl
      · refine ⟨.frame replyFrame :: ms, ?_, fun f hf => ?_, ?_, ?_⟩
        · rw [wire, List.flatMap_cons, ← wire, hwire, List.flatMap_cons]
          rfl
        · rcases List.mem_cons.mp hf with hf | hf
          · obtain rfl := Message.frame.inj hf
            exact Or.inl ⟨rfl, by decide⟩
          · exact hframes f hf
        · rwa [List.countP_cons_of_neg (by exact Bool.false_ne_true), List.countP_cons_of_neg (by exact Bool.false_ne_true)]
        · rw [List.countP_cons_of_pos rfl, List.countP_cons_of_pos rfl]
          exact Nat.succ_le_succ hreplies
      · refine ⟨.keepAlive :: ms, ?_, fun f hf => ?_, ?_, ?_⟩
        · rw [wire, List.flatMap_cons, ← wire, hwire, List.flatMap_cons]
          rfl
        · rcases List.mem_cons.mp hf with hf | hf
          · cases hf
          · exact hframes f hf
        · rwa [List.countP_cons_of_neg (by exact Bool.false_ne_true), List.countP_cons_of_neg (by exact Bool.false_ne_true)]
        · rw [List.countP_cons_of_neg (by exact Bool.false_ne_true), List.countP_cons_of_pos rfl]
          exact hreplies.trans (Nat.le_succ _)

/-- No length of theirs is a type. -/
theorem not_echoes {f : Frame} (h : f.type = .lowperyLocation ∧ f.payload.length = 38 ∨
    f.type = .serverSendRquestLocation ∧ f.payload.length = 51) (type : MessageType) : ¬ Echoes type f := by
  have hlen : f.payload.length = 38 ∨ f.payload.length = 51 := h.imp And.right And.right
  rw [Echoes]
  rcases hlen with hlen | hlen
  · rw [hlen]
    cases type <;> decide
  · rw [hlen]
    cases type <;> decide

/-! ### Runs -/

/-- What was written is regular, as long as the year has four digits. -/
def Written (zone start : ℤ) (s : Connection) : Prop :=
  (∀ time ≤ s.now, HasYear zone (start + time)) → ∀ action ∈ s.action, ∀ output ∈ action.written,
    output.Regular zone start

/-- A step writes at the time it is made. -/
theorem Served.written {action action' : SocketAction} {running : Bool} {now : ℕ}
    {recedata : List Byte} {fault : Fault}
    (h : Served action running now recedata fault action') : ∀ output ∈ action'.written,
      output ∈ action.written ∨ output = .request now ∨
        ∃ printed backdata, output = .reply backdata ∧ serverAction recedata = .ok (printed, backdata) := by
  intro output ho
  cases h with
  | request =>
    rw [List.mem_append, List.mem_singleton] at ho
    exact ho.imp_right Or.inl
  | reply _ backdata _ _ _ hreply =>
    obtain ⟨printed, hreply⟩ := hreply
    rw [List.mem_append, List.mem_singleton] at ho
    exact ho.imp_right fun ho => Or.inr ⟨printed, backdata, ho, hreply⟩
  | _ => exact Or.inl ho

theorem Written.step {zone start : ℤ} {s s' : Connection} {a : Action} (hs : Written zone start s)
    (h : Step s a s') :
    Written zone start s' := by
  cases h with
  | wait d => exact fun hyears => hs fun time htime => hyears time (Nat.le_add_right_of_le htime)
  | accept haction =>
    intro _ action h
    obtain rfl := Option.some.inj h
    exact nofun
  | serve haction hserved =>
    intro hyears a ha output ho
    obtain rfl := Option.some.inj ha
    rcases hserved.written output ho with hold | rfl | ⟨printed, backdata, rfl, hreply⟩
    · exact hs hyears _ haction output hold
    · exact hyears s.now le_rfl
    · exact serverAction_message hreply
  | check => exact hs
  | keepAlive => exact hs
  | fail => exact hs
  | stamp => exact hs
  | stop => exact hs
  | upload => exact hs
  | cut => exact hs
  | arrive => exact hs
  | stopServer => exact hs

/-- The device's reads of what has come of it so far: requests no more often than the delay allows,
responses no more than the pieces of what it has sent, and nothing else. -/
def Asked {ServerResponse ServerRequest : Type} (zone start : ℤ)
    (gson : GsonReader ServerResponse ServerRequest) (s : Connection) : Prop :=
  (∀ time ≤ s.now, HasYear zone (start + time)) → ∀ action ∈ s.action, ∀ reads : List (List Byte),
    reads.flatten <+: action.written.flatMap (Output.bytes zone start) →
      (deviceHandled gson reads).countP (fun c => decide (c.1 = typeByte .serverSendRquestLocation)) * (requestDelay + 1) ≤
        s.now - action.accepted ∧
      (deviceHandled gson reads).countP (fun c => decide (c.1 = typeByte .lowperyLocation)) ≤
        s.keepAlives + s.uploads + s.cuts ∧
      ∀ c ∈ deviceHandled gson reads, c.1 = typeByte .serverSendRquestLocation ∨ c.1 = typeByte .lowperyLocation

/-- The device handles reads of seven bytes and more, of the types 1 to 5. -/
theorem deviceReader_serves {ServerResponse ServerRequest : Type}
    {gson : GsonReader ServerResponse ServerRequest} {recedata : List Byte}
    (h : (deviceReader gson).serves recedata = true) : 7 ≤ recedata.length ∧
      ∃ type, type ≠ MessageType.serverLoginRquest ∧ recedata[4]? = some (typeByte type) := by
  obtain ⟨h7, htype⟩ := of_decide_eq_true h
  refine ⟨h7, ?_⟩
  have hbyte : recedata[4]? = some (content recedata).1 := by
    rw [content, List.getD_eq_getElem _ _ (by omega), List.getElem?_eq_getElem (by omega)]
  rw [hbyte]
  rcases htype with (htype | htype | htype | htype) | htype
  · exact ⟨.lowperyLocation, by decide, congrArg some htype⟩
  · exact ⟨.wifiFailLocation, by decide, congrArg some htype⟩
  · exact ⟨.singalRequestLocation, by decide, congrArg some htype⟩
  · exact ⟨.wifiSuccessLocation, by decide, congrArg some htype⟩
  · exact ⟨.serverSendRquestLocation, by decide, congrArg some htype⟩

/-- What the device handles was sent, where no frame echoes a type. -/
theorem type_of_handled {ServerResponse ServerRequest : Type} {gson : GsonReader ServerResponse ServerRequest}
    {ms : List Message} (hecho : ∀ type, ∀ x ∈ frames ms, ¬ Echoes type x.2) {reads : List (List Byte)}
    (hwire : reads.flatten <+: wire ms) {c : Content} (hc : c ∈ deviceHandled gson reads) :
    ∃ y ∈ frames ms, c.1 = typeByte y.2.type := by
  rw [deviceHandled_eq, ← map_content_served] at hc
  obtain ⟨x, hx, rfl⟩ := List.mem_map.mp hc
  obtain ⟨h7, type, htype, hbyte⟩ := deviceReader_serves (List.mem_filter.mp hx).2
  obtain ⟨y, hy, -, rfl⟩ := genuine_of_not_echoes htype (hecho type) hwire x (mem_located_of_served hx) hbyte
  refine ⟨y, hy, ?_⟩
  rw [content, List.getD_eq_getElem?_getD, hbyte]
  rfl

/-- **In every run, however the bytes of both sides are cut, the device is asked for its location no
more often than the server's clock allows, answered no more often than once for each piece of what it
has sent, and handles nothing else.** -/
theorem always_asked {ServerResponse ServerRequest : Type} (zone start : ℤ)
    (gson : GsonReader ServerResponse ServerRequest) (as : List Action) :
    Always step (Asked zone start gson) .init as := by
  have hall : Always step (fun s => Accounted s ∧ Written zone start s) .init as :=
    always_of_invariant _ (fun _ _ _ hs hstep => ⟨hs.1.step (step_cases hstep), hs.2.step (step_cases hstep)⟩) as _
      ⟨.init, fun _ _ haction => by cases haction⟩
  refine hall.imp (fun s ⟨haccounted, hwritten⟩ hyears action haction reads hreads => ?_) as _
  obtain ⟨ms, hwire, hframes, hrequests, hreplies⟩ := exists_messages zone start (hwritten hyears action haction)
  rw [← hwire] at hreads
  have hframe (x : ℕ × Frame) (hx : x ∈ frames ms) := hframes x.2 (by
    have hmem := List.mem_map_of_mem (f := Prod.snd) (mem_frames.mp hx)
    rwa [map_snd_located] at hmem)
  have hecho (type : MessageType) (x : ℕ × Frame) (hx : x ∈ frames ms) : ¬ Echoes type x.2 := not_echoes (hframe x hx) type
  have hcount (type : MessageType) (htype : type ≠ .serverLoginRquest) :
      (deviceHandled gson reads).countP (fun c => decide (c.1 = typeByte type)) ≤ ms.countP (IsOf type) := by
    rw [deviceHandled_eq, ← length_framesOf]
    exact count_handled_le htype (hecho type) hreads fun _ h => (deviceReader_serves h).1
  refine ⟨?_, ?_, fun c hc => ?_⟩
  · have hle := hcount .serverSendRquestLocation (by decide)
    rw [hrequests] at hle
    have hbound := (haccounted.restrained action haction).count.trans (haccounted.restrained action haction).since_le
    have hmul := Nat.mul_le_mul_right (requestDelay + 1) hle
    rw [SocketAction.requests] at hbound
    omega
  · have hle := (hcount .lowperyLocation (by decide)).trans hreplies
    have hreads := (haccounted.restrained action haction).replies_le
    have hchunks := haccounted.chunks
    rw [haction] at hchunks
    rw [SocketAction.replies] at hreads
    simp only [Option.elim] at hchunks
    omega
  · obtain ⟨y, hy, hc⟩ := type_of_handled hecho hreads hc
    rw [hc]
    rcases hframe y hy with h | h
    · exact Or.inr (congrArg typeByte h.1)
    · exact Or.inl (congrArg typeByte h.1)

end GpsTracker.Tcp.KeepAlive
