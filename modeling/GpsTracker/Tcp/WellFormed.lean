import GpsTracker.Tcp.Receivers
import GpsTracker.Upload.Checks

/-!
# Well-formed frames at the receivers

The default actions look at two things only, whether there are more than four
bytes and what byte 4 is. They never look at the magic or the length field that
`createUploadData` writes (`isFrame_serverCreateUploadData`), so every array of seven bytes or more is handled by
its byte 4, frame or not; and the guard on the length lets five and six bytes
through to an array of negative size.

`handledExactly_iff` says which arrays are treated as a receiver of well-formed
frames would: the keep-alives, and the arrays of seven bytes or more that are
frames if their byte 4 is a type the device knows.
-/

namespace GpsTracker.Tcp

open GpsTracker.Java GpsTracker.Upload

/-- A frame of a type: the magic, the type and the number of the bytes that follow. -/
def IsFrame (type : Byte) (recedata : List Byte) : Prop :=
  7 ≤ recedata.length ∧ recedata.take 4 = ack ∧ recedata[4]? = some type ∧
    recedata.length = 7 + lengthField recedata

instance (type : Byte) (recedata : List Byte) : Decidable (IsFrame type recedata) :=
  inferInstanceAs (Decidable (_ ∧ _))

/-- The types the device's `switch` has a case for. -/
def IsKnown (type : Byte) : Prop := IsResponse type ∨ type = typeByte .serverSendRquestLocation

/-- An index or array-size exception. -/
def IsBounds (e : Exn) : Prop := e = .indexOutOfBounds ∨ e = .negativeArraySize

/-- What the server frames is a frame, as long as its length field is true. -/
theorem isFrame_serverCreateUploadData (type : JInt) {text : JString} (h : (getBytes text).length < 65536) :
    ∃ frame, serverCreateUploadData type text = .ok frame ∧ IsFrame (toByte type) frame := by
  have hfield := lengthField_header (toByte type) (getBytes text).length (getBytes text)
  have hlen : (header (toByte type) (getBytes text).length ++ getBytes text).length = 7 + (getBytes text).length := by
    rw [List.length_append]
    rfl
  rw [Nat.mod_eq_of_lt h] at hfield
  exact ⟨_, writeFrame_eq _ _, by omega, rfl, rfl, by omega⟩

/-! ### What a receiver of frames does -/

section Receiver

variable {ServerResponse ServerRequest : Type}

/-- Gson as the device relies on it: it accepts the payload of an array that is a frame, and
what it throws on other texts is no bounds exception. -/
structure Documented (gson : GsonReader ServerResponse ServerRequest) (recedata : List Byte) : Prop where
  /-- The payload of a frame of a known type is accepted. -/
  accepts : ∀ type, IsKnown type → IsFrame type recedata →
    ∃ event, eventOf gson type (newString (recedata.drop 7)) = .ok (some event)
  /-- A text that is not accepted. -/
  rejects : ∀ type json e, eventOf gson type json = .error e → ¬ IsBounds e

/-- The device's action on an array, as on frames: it throws no bounds exception, posts the
event of a frame of a known type, and posts no other. -/
structure DeviceExact (gson : GsonReader ServerResponse ServerRequest) (recedata : List Byte) : Prop where
  /-- No bounds exception. -/
  safe : ∀ e, deviceAction gson recedata = .error e → ¬ IsBounds e
  /-- What is posted comes from a frame, its payload decoded from offset 7 on. -/
  posts : ∀ type dataArray event, deviceAction gson recedata = .ok (some ((type, dataArray), event)) →
    IsKnown type ∧ IsFrame type recedata ∧ dataArray = recedata.drop 7 ∧
      eventOf gson type (newString dataArray) = .ok (some event)
  /-- A frame is posted. -/
  handles : ∀ type, IsKnown type → IsFrame type recedata →
    ∃ event, deviceAction gson recedata = .ok (some ((type, recedata.drop 7), event))

/-- The server's action on an array, as on frames: the response to a frame of type 1, the
acknowledgement to everything else. -/
def ServerExact (recedata : List Byte) : Prop :=
  ∃ printed, serverAction recedata = .ok (printed,
    if IsFrame (typeByte .lowperyLocation) recedata then
      header (typeByte .lowperyLocation) replyContent.length ++ replyContent
    else ack)

variable (ServerResponse ServerRequest) in
/-- Both actions treat the array as a receiver of frames would, whatever a documented gson
makes of the texts. -/
def HandledExactly (recedata : List Byte) : Prop :=
  (∀ gson : GsonReader ServerResponse ServerRequest, Documented gson recedata → DeviceExact gson recedata) ∧
    ServerExact recedata

/-- A keep-alive, or an array long enough whose byte 4 is a known type only if it is a frame. -/
def KeepAliveOrFrame (recedata : List Byte) : Prop :=
  recedata.length ≤ 4 ∨
    (7 ≤ recedata.length ∧ ∀ type, recedata[4]? = some type → IsKnown type → IsFrame type recedata)

/-! ### The device -/

theorem deviceExact_of_keepAlive (gson : GsonReader ServerResponse ServerRequest) {recedata : List Byte}
    (h4 : recedata.length ≤ 4) : DeviceExact gson recedata := by
  have hcall : deviceAction gson recedata = .ok none := by
    rw [deviceAction, if_neg (by omega)]
    rfl
  constructor
  · intro e he
    rw [hcall] at he
    cases he
  · intro type dataArray event hok
    rw [hcall] at hok
    cases hok
  · intro type _ hframe
    exact absurd hframe.1 (by omega)

/-- The type and the payload the device takes from an array of seven bytes or more. -/
theorem getElem?_of_content {recedata : List Byte} (h7 : 7 ≤ recedata.length) :
    recedata[4]? = some (content recedata).1 := by
  rw [content, List.getD_eq_getElem _ _ (by omega), List.getElem?_eq_getElem]

theorem deviceExact_of_long {gson : GsonReader ServerResponse ServerRequest} {recedata : List Byte}
    (hgson : Documented gson recedata) (h7 : 7 ≤ recedata.length)
    (hframe : ∀ type, recedata[4]? = some type → IsKnown type → IsFrame type recedata) :
    DeviceExact gson recedata := by
  have htype := getElem?_of_content h7
  constructor
  · intro e he
    rw [deviceAction_of_long gson h7] at he
    cases hevent : eventOf gson (content recedata).1 (newString (content recedata).2) with
    | error e' =>
      rw [hevent] at he
      cases he
      exact hgson.rejects _ _ _ hevent
    | ok event =>
      rw [hevent] at he
      cases he
  · intro type dataArray event hok
    rw [deviceAction_of_long gson h7] at hok
    cases hevent : eventOf gson (content recedata).1 (newString (content recedata).2) with
    | error e =>
      rw [hevent] at hok
      cases hok
    | ok posted =>
      rw [hevent] at hok
      cases posted with
      | none => cases hok
      | some posted =>
        cases hok
        have hknown : IsKnown (content recedata).1 := (isSome_eventOf hevent).mp rfl
        exact ⟨hknown, hframe _ htype hknown, rfl, hevent⟩
  · intro type hknown hf
    obtain ⟨event, hevent⟩ := hgson.accepts type hknown hf
    have hsame : (content recedata).1 = type := Option.some.inj (htype.symm.trans hf.2.2.1)
    refine ⟨event, ?_⟩
    rw [deviceAction_of_long gson h7, hsame, show (content recedata).2 = recedata.drop 7 from rfl,
      hevent, ← hsame]
    rfl

/-- A gson that accepts every text. -/
def lenient [Inhabited ServerResponse] [Inhabited ServerRequest] : GsonReader ServerResponse ServerRequest where
  toResponse _ := .ok default
  toRequest _ := .ok default

variable (ServerResponse ServerRequest) in
theorem eventOf_lenient [Inhabited ServerResponse] [Inhabited ServerRequest] (type : Byte) (json : JString) :
    ∃ event, eventOf (lenient : GsonReader ServerResponse ServerRequest) type json = .ok event ∧
      (event.isSome ↔ IsKnown type) := by
  cases hevent : eventOf (lenient : GsonReader ServerResponse ServerRequest) type json with
  | error e =>
    unfold eventOf at hevent
    split_ifs at hevent <;> cases hevent
  | ok event => exact ⟨event, rfl, isSome_eventOf hevent⟩

theorem lenient_documented [Inhabited ServerResponse] [Inhabited ServerRequest] (recedata : List Byte) :
    Documented (lenient : GsonReader ServerResponse ServerRequest) recedata := by
  constructor
  · intro type hknown _
    obtain ⟨event, hevent, hsome⟩ :=
      eventOf_lenient ServerResponse ServerRequest type (newString (recedata.drop 7))
    obtain ⟨e, rfl⟩ := Option.isSome_iff_exists.mp (hsome.mpr hknown)
    exact ⟨e, hevent⟩
  · intro type json e he
    obtain ⟨event, hevent, -⟩ := eventOf_lenient ServerResponse ServerRequest type json
    rw [hevent] at he
    cases he

/-- Under the lenient gson the device posts for every known type. -/
theorem isFrame_of_deviceExact [Inhabited ServerResponse] [Inhabited ServerRequest] {recedata : List Byte}
    (h7 : 7 ≤ recedata.length) (h : DeviceExact (lenient : GsonReader ServerResponse ServerRequest) recedata)
    {type : Byte} (htype : recedata[4]? = some type) (hknown : IsKnown type) : IsFrame type recedata := by
  obtain ⟨event, hevent, hsome⟩ :=
    eventOf_lenient ServerResponse ServerRequest type (newString (content recedata).2)
  obtain ⟨e, rfl⟩ := Option.isSome_iff_exists.mp (hsome.mpr hknown)
  have hsame : (content recedata).1 = type := Option.some.inj ((getElem?_of_content h7).symm.trans htype)
  refine (h.posts type (content recedata).2 e ?_).2.1
  rw [deviceAction_of_long _ h7, hsame, hevent, ← hsame]
  rfl

end Receiver

/-! ### The server -/

theorem serverExact_of_keepAlive {recedata : List Byte} (h4 : recedata.length ≤ 4) : ServerExact recedata := by
  refine ⟨none, ?_⟩
  rw [serverAction_of_printed (printData_of_keepAlive h4), if_neg fun hf => absurd hf.1 (by omega)]
  rfl

theorem serverExact_of_long {recedata : List Byte} (h7 : 7 ≤ recedata.length)
    (hframe : ∀ type, recedata[4]? = some type → IsKnown type → IsFrame type recedata) : ServerExact recedata := by
  have htype := getElem?_of_content h7
  refine ⟨some (content recedata), ?_⟩
  rw [serverAction_of_printed (printData_of_long h7), answer]
  by_cases hone : (content recedata).1 = typeByte .lowperyLocation
  · rw [hone] at htype
    simp [hone, hframe _ htype (Or.inl (Or.inl rfl))]
  · have hnot : ¬ IsFrame (typeByte .lowperyLocation) recedata := fun hf =>
      hone (Option.some.inj (htype.symm.trans hf.2.2.1))
    simp [hone, hnot]

/-- The server's action returns on no array of five or six bytes. -/
theorem length_of_serverExact {recedata : List Byte} (h : ServerExact recedata) :
    recedata.length ≤ 4 ∨ 7 ≤ recedata.length := by
  obtain ⟨printed, hcall⟩ := h
  by_contra hshort
  rw [serverAction, printData_of_short (by omega) (by omega)] at hcall
  cases hcall

/-! ### Both sides -/

/-- **Which arrays the default actions treat as a receiver of well-formed frames would.** -/
theorem handledExactly_iff (ServerResponse ServerRequest : Type) [Inhabited ServerResponse]
    [Inhabited ServerRequest]
    (recedata : List Byte) : HandledExactly ServerResponse ServerRequest recedata ↔ KeepAliveOrFrame recedata := by
  constructor
  · rintro ⟨hdevice, hserver⟩
    rcases length_of_serverExact hserver with h4 | h7
    · exact Or.inl h4
    · exact Or.inr ⟨h7, fun type => isFrame_of_deviceExact h7 (hdevice lenient (lenient_documented recedata))⟩
  · rintro (h4 | ⟨h7, hframe⟩)
    · exact ⟨fun gson _ => deviceExact_of_keepAlive gson h4, serverExact_of_keepAlive h4⟩
    · exact ⟨fun gson hgson => deviceExact_of_long hgson h7 hframe, serverExact_of_long h7 hframe⟩

/-- Five bytes make the size of `dataArray` negative, and seven bytes without magic or length
are answered as a message of type 1. -/
theorem not_handledExactly :
    ¬ HandledExactly Unit Unit [0x10, 0x0f, 0x0f, 0x06, 0x01] ∧
      ¬ HandledExactly Unit Unit [0x00, 0x00, 0x00, 0x00, 0x01, 0xff, 0xff] := by
  constructor
  · rintro ⟨-, hserver⟩
    exact absurd (length_of_serverExact hserver) (by decide)
  · rintro ⟨hdevice, -⟩
    have hframe := isFrame_of_deviceExact (by decide) (hdevice lenient (lenient_documented _)) rfl
      (Or.inl (Or.inl rfl) : IsKnown 0x01)
    exact absurd hframe (by decide)

end GpsTracker.Tcp
