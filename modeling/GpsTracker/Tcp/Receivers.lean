import GpsTracker.Upload.Frame

/-!
# The receivers

`TcpClient.ReceiveWatchDog` on the device and `Server.SocketAction` on the
server read whatever has arrived and give each read to the default action as if
it were one frame: the byte at offset 4 is the message type, the bytes from
offset 7 on are the payload. The length field is not looked at. A read of four
bytes or less is taken for a keep-alive, a read of five or six makes the size of
`dataArray` negative, and the first exception ends the loop.

No action is ever registered in `actionMapping`, so the default one handles every
read. Gson is a parameter; the events that the device posts carry what it made of
the payload.
-/

namespace GpsTracker.Tcp

open GpsTracker.Java GpsTracker.Upload

/-- The byte of a message type in a frame. -/
def typeByte (type : MessageType) : Byte := toByte type.code

/-- The type and the payload a read is handled with. -/
abbrev Content := Byte × List Byte

/-! ### The default actions -/

/-- `dataArray`: the copy of `recedata` from offset 7 on. -/
def copyData (recedata : List Byte) : Except Exn (List Byte) :=
  if recedata.length < 7 then .error .negativeArraySize
  else (List.range (recedata.length - 7)).mapM fun i => load recedata (i + 7)

/-- `messageType` and `dataArray` of a read. -/
def openData (recedata : List Byte) : Except Exn Content := do
  let messageType ← load recedata 4
  let dataArray ← copyData recedata
  return (messageType, dataArray)

/-- `Gson.fromJson` on the two classes of events: a text it does not accept throws. -/
structure GsonReader (ServerResponse ServerRequest : Type) where
  /-- `gson.fromJson(json, ServerResponse.class)`. -/
  toResponse : JString → Except Exn ServerResponse
  /-- `gson.fromJson(json, ServerRequest.class)`. -/
  toRequest : JString → Except Exn ServerRequest

/-- What the device posts on the event bus. -/
inductive Event (ServerResponse ServerRequest : Type) where
  /-- A response of the server. -/
  | response (response : ServerResponse)
  /-- A request of the server. -/
  | request (request : ServerRequest)
  deriving DecidableEq, Repr

section Device

variable {ServerResponse ServerRequest : Type}

/-- The types whose payload is a `ServerResponse`. -/
def IsResponse (messageType : Byte) : Prop :=
  messageType = typeByte .lowperyLocation ∨ messageType = typeByte .wifiFailLocation ∨
    messageType = typeByte .singalRequestLocation ∨ messageType = typeByte .wifiSuccessLocation

instance (messageType : Byte) : Decidable (IsResponse messageType) := inferInstanceAs (Decidable (_ ∨ _))

/-- The `switch` of the device's action: the event to post, if any. -/
def eventOf (gson : GsonReader ServerResponse ServerRequest) (messageType : Byte) (json : JString) :
    Except Exn (Option (Event ServerResponse ServerRequest)) :=
  if IsResponse messageType then do
    let response ← gson.toResponse json
    return some (.response response)
  else if messageType = typeByte .serverSendRquestLocation then do
    let request ← gson.toRequest json
    return some (.request request)
  else return none

/-- `DefaultObjectAction.doAction` of the device: the event it posts, with what it was
handled with. -/
def deviceAction (gson : GsonReader ServerResponse ServerRequest) (recedata : List Byte) :
    Except Exn (Option (Content × Event ServerResponse ServerRequest)) :=
  if 4 < recedata.length then do
    let (messageType, dataArray) ← openData recedata
    let event ← eventOf gson messageType (newString dataArray)
    return event.map fun e => ((messageType, dataArray), e)
  else return none

end Device

/-- The acknowledgement of the server, and the keep-alive of the device. -/
def ack : List Byte := [0x10, 0x0f, 0x0f, 0x06]

/-- The content of the server's reply to a message of type 1. -/
def replyContent : List Byte := getBytes (lit "\x7b\"status\":0,\"info\":\"ok\",\"code\":\"1001\"\x7d")

/-- What the server prints of a read. -/
def printData (recedata : List Byte) : Except Exn (Option Content) :=
  if 4 < recedata.length then do
    let printed ← openData recedata
    return some printed
  else return none

/-- `DefaultObjectAction.doAction` of the server: what it prints, and the bytes it sends
back. -/
def serverAction (recedata : List Byte) : Except Exn (Option Content × List Byte) := do
  let printed ← printData recedata
  let messageType := (printed.map Prod.fst).getD 0
  if messageType = typeByte .lowperyLocation then do
    let backdata ← writeFrame messageType replyContent
    return (printed, backdata)
  else return (printed, ack)

/-! ### The receiving loops -/

/-- The receiving loop over its reads: what the action returned for each, until one throws. -/
def receive {α : Type} (doAction : List Byte → Except Exn α) : List (List Byte) → List α
  | [] => []
  | recedata :: reads =>
    match doAction recedata with
    | .ok a => a :: receive doAction reads
    | .error _ => []

/-- The frames the device has handled, by the events it posted. -/
def deviceHandled {ServerResponse ServerRequest : Type} (gson : GsonReader ServerResponse ServerRequest)
    (reads : List (List Byte)) : List Content :=
  (receive (deviceAction gson) reads).filterMap fun posted => posted.map Prod.fst

/-- The frames the server has handled, by what it printed. -/
def serverHandled (reads : List (List Byte)) : List Content := (receive serverAction reads).filterMap Prod.fst

/-! ### What an action makes of a read -/

/-- The type and the payload of a read, where it has them. -/
def content (recedata : List Byte) : Content := (recedata.getD 4 0, recedata.drop 7)

theorem mapM_range_load (recedata : List Byte) : ∀ n k, k + n ≤ recedata.length →
    (List.range n).mapM (fun i => load recedata (i + k)) = .ok ((recedata.drop k).take n) := by
  intro n
  induction n with
  | zero => exact fun k _ => rfl
  | succ n ih =>
    intro k hk
    rw [List.range_succ, List.mapM_append, ih k (by omega), ok_bind, List.mapM_cons,
      load_of_lt (by omega), ok_bind, List.mapM_nil,
      List.take_succ_eq_append_getElem (by rw [List.length_drop]; omega)]
    simp only [List.getElem_drop, Nat.add_comm n k]
    rfl

theorem openData_of_short {recedata : List Byte} (h4 : 4 < recedata.length) (h7 : recedata.length < 7) :
    openData recedata = .error .negativeArraySize := by
  rw [openData, load_of_lt h4, ok_bind, copyData, if_pos h7]
  rfl

theorem openData_of_long {recedata : List Byte} (h7 : 7 ≤ recedata.length) :
    openData recedata = .ok (content recedata) := by
  rw [openData, load_of_lt (by omega), ok_bind, copyData, if_neg (by omega),
    mapM_range_load _ _ _ (by omega), ok_bind, List.take_of_length_le (by rw [List.length_drop]),
    content, List.getD_eq_getElem _ _ (by omega)]
  rfl

/-- A read of seven bytes and more is given to the `switch`. -/
theorem deviceAction_of_long {ServerResponse ServerRequest : Type}
    (gson : GsonReader ServerResponse ServerRequest) {recedata : List Byte}
    (h7 : 7 ≤ recedata.length) : deviceAction gson recedata = (do
      let event ← eventOf gson (content recedata).1 (newString (content recedata).2)
      return event.map fun e => (content recedata, e)) := by
  rw [deviceAction, if_pos (by omega), openData_of_long h7]
  rfl

/-- What the server answers to the type it has read. -/
def answer (messageType : Byte) : List Byte :=
  if messageType = typeByte .lowperyLocation then header messageType replyContent.length ++ replyContent else ack

theorem serverAction_of_printed {recedata : List Byte} {printed : Option Content}
    (h : printData recedata = .ok printed) :
    serverAction recedata = .ok (printed, answer ((printed.map Prod.fst).getD 0)) := by
  rw [serverAction, h, ok_bind, answer]
  simp only [writeFrame_eq, ok_bind]
  split_ifs
  · rfl
  · rfl

theorem printData_of_keepAlive {recedata : List Byte} (h4 : recedata.length ≤ 4) :
    printData recedata = .ok none := by
  rw [printData, if_neg (by omega)]
  rfl

theorem printData_of_long {recedata : List Byte} (h7 : 7 ≤ recedata.length) :
    printData recedata = .ok (some (content recedata)) := by
  rw [printData, if_pos (by omega), openData_of_long h7]
  rfl

theorem printData_of_short {recedata : List Byte} (h4 : 4 < recedata.length) (h7 : recedata.length < 7) :
    printData recedata = .error .negativeArraySize := by
  rw [printData, if_pos h4, openData_of_short h4 h7]
  rfl

/-- How a side treats its reads: which one ends its loop, and which it handles as a frame. -/
structure Reader where
  /-- The read throws. -/
  stops : List Byte → Bool
  /-- The read is handled, when it does not throw. -/
  serves : List Byte → Bool

/-- The server handles every read of seven bytes and more. -/
def serverReader : Reader where
  stops recedata := decide (4 < recedata.length ∧ recedata.length < 7)
  serves recedata := decide (7 ≤ recedata.length)

/-- The device handles those of the types 1 to 5, and throws on a payload that gson does
not accept. -/
def deviceReader {ServerResponse ServerRequest : Type}
    (gson : GsonReader ServerResponse ServerRequest) : Reader where
  stops recedata := decide (4 < recedata.length ∧ recedata.length < 7) ||
    (decide (7 ≤ recedata.length) && !(eventOf gson (content recedata).1 (newString (content recedata).2)).isOk)
  serves recedata := decide (7 ≤ recedata.length ∧
    (IsResponse (content recedata).1 ∨ (content recedata).1 = typeByte .serverSendRquestLocation))

/-- What a side handles: the reads it serves, up to the one that stops it. -/
def Reader.handled (r : Reader) (reads : List (List Byte)) : List Content :=
  ((reads.takeWhile fun recedata => !r.stops recedata).filter r.serves).map content

/-- A loop whose action throws and selects as a reader does handles what the reader does. -/
theorem filterMap_receive {α : Type} {doAction : List Byte → Except Exn α}
    {select : α → Option Content} {r : Reader}
    (h : ∀ recedata, if r.stops recedata then ∃ e, doAction recedata = .error e
      else ∃ a, doAction recedata = .ok a ∧ select a = if r.serves recedata then some (content recedata) else none)
    (reads : List (List Byte)) : (receive doAction reads).filterMap select = r.handled reads := by
  induction reads with
  | nil => rfl
  | cons recedata reads ih =>
    have hread := h recedata
    rw [receive, Reader.handled, List.takeWhile_cons]
    cases hstops : r.stops recedata with
    | true =>
      rw [hstops, if_pos rfl] at hread
      obtain ⟨e, he⟩ := hread
      rw [he]
      rfl
    | false =>
      rw [hstops, if_neg Bool.false_ne_true] at hread
      obtain ⟨a, ha, hselect⟩ := hread
      rw [ha, Bool.not_false, if_pos rfl, List.filter_cons]
      simp only
      cases hserves : r.serves recedata with
      | true =>
        rw [hserves, if_pos rfl] at hselect
        rw [List.filterMap_cons_some hselect, ih, if_pos rfl, List.map_cons]
        rfl
      | false =>
        rw [hserves, if_neg Bool.false_ne_true] at hselect
        rw [List.filterMap_cons_none hselect, ih, if_neg Bool.false_ne_true]
        rfl

theorem serverHandled_eq (reads : List (List Byte)) : serverHandled reads = serverReader.handled reads := by
  refine filterMap_receive (fun recedata => ?_) reads
  simp only [serverReader, decide_eq_true_eq]
  by_cases h4 : 4 < recedata.length
  · by_cases h7 : recedata.length < 7
    · rw [if_pos ⟨h4, h7⟩, serverAction, printData_of_short h4 h7]
      exact ⟨_, rfl⟩
    · rw [if_neg fun h => h7 h.2, if_pos (by omega)]
      exact ⟨_, serverAction_of_printed (printData_of_long (by omega)), rfl⟩
  · rw [if_neg fun h => h4 h.1, if_neg (by omega)]
    exact ⟨_, serverAction_of_printed (printData_of_keepAlive (by omega)), rfl⟩

/-- An event is posted for the types 1 to 5. -/
theorem isSome_eventOf {ServerResponse ServerRequest : Type} {gson : GsonReader ServerResponse ServerRequest}
    {messageType : Byte} {json : JString} {event : Option (Event ServerResponse ServerRequest)}
    (h : eventOf gson messageType json = .ok event) :
    event.isSome ↔ IsResponse messageType ∨ messageType = typeByte .serverSendRquestLocation := by
  unfold eventOf at h
  split_ifs at h with hresponse hrequest
  · cases hjson : gson.toResponse json with
    | error e =>
      rw [hjson] at h
      cases h
    | ok response =>
      rw [hjson] at h
      cases h
      exact iff_of_true rfl (Or.inl hresponse)
  · cases hjson : gson.toRequest json with
    | error e =>
      rw [hjson] at h
      cases h
    | ok request =>
      rw [hjson] at h
      cases h
      exact iff_of_true rfl (Or.inr hrequest)
  · cases h
    exact iff_of_false Bool.false_ne_true (not_or.mpr ⟨hresponse, hrequest⟩)

theorem deviceHandled_eq {ServerResponse ServerRequest : Type} (gson : GsonReader ServerResponse ServerRequest)
    (reads : List (List Byte)) : deviceHandled gson reads = (deviceReader gson).handled reads := by
  refine filterMap_receive (fun recedata => ?_) reads
  simp only [deviceReader, Bool.or_eq_true, Bool.and_eq_true, decide_eq_true_eq, Bool.not_eq_true']
  by_cases h4 : 4 < recedata.length
  · by_cases h7 : recedata.length < 7
    · rw [if_pos (Or.inl ⟨h4, h7⟩), deviceAction, if_pos h4, openData_of_short h4 h7]
      exact ⟨_, rfl⟩
    · have hlong : 7 ≤ recedata.length := by omega
      rw [deviceAction_of_long gson hlong]
      cases hevent : eventOf gson (content recedata).1 (newString (content recedata).2) with
      | error e =>
        rw [if_pos (Or.inr ⟨hlong, rfl⟩)]
        exact ⟨e, rfl⟩
      | ok event =>
        rw [if_neg (by rintro (h | ⟨-, h⟩); exacts [h7 h.2, Bool.noConfusion h])]
        refine ⟨_, rfl, ?_⟩
        have hsome := isSome_eventOf hevent
        cases event with
        | none =>
          rw [if_neg fun h => Bool.false_ne_true (hsome.mpr h.2)]
          rfl
        | some e =>
          rw [if_pos ⟨hlong, hsome.mp rfl⟩]
          rfl
  · rw [if_neg (by rintro (h | ⟨h, -⟩); exacts [h4 h.1, by omega]), if_neg (by rintro ⟨h, -⟩; omega),
      deviceAction, if_neg h4]
    exact ⟨_, rfl, rfl⟩

end GpsTracker.Tcp
