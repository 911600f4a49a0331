import GpsTracker.Bluetooth.Fences
import GpsTracker.Library.Runs

/-!
# The command channel

The reader thread of `BluetoothChatService` reads into one buffer again and again,
and posts a `MESSAGE_READ` with the number of bytes and a reference to the buffer.
The handler of `BluetoothUtil` turns the first so many bytes of the buffer into a
text, as they are by then, and calls `parseData` with it. Nothing marks where a
command ends.

So a command is parsed as it was sent when its bytes are one read, and when no
later read has gone over them before the handler gets to the message
(`inStep_step`); it is enough that the reader waits for the handler
(`kept_step`). Whatever the texts are, the device is the one that a history of
these texts leaves (`always_parsed`).
-/

namespace GpsTracker.Bluetooth

open GpsTracker.Java GpsTracker.Runs

/-! ### The two threads -/

/-- The text of a command: JSON, so it is not empty. -/
structure CommandText where
  /-- The text. -/
  text : List Char
  /-- There is a brace at least. -/
  nonempty : text ≠ []
  deriving DecidableEq

/-- The string the phone writes. -/
def CommandText.string (c : CommandText) : JString := utf16 c.text

/-- The bytes it is written as. -/
def CommandText.bytes (c : CommandText) : List Byte := getBytes c.string

theorem CommandText.bytes_ne_nil (c : CommandText) : c.bytes ≠ [] := by
  obtain ⟨text, nonempty⟩ := c
  obtain ⟨a, as, rfl⟩ := List.exists_cons_of_ne_nil nonempty
  simp [CommandText.bytes, CommandText.string, getBytes_utf16, String.utf8EncodeChar_ne_nil]

/-- The bytes of a command are read back as its text. -/
theorem CommandText.newString_bytes (c : CommandText) : newString c.bytes = c.string :=
  newString_getBytes c.text

/-- A `MESSAGE_READ`; its `obj` is the buffer of the reader. -/
structure ReadMessage where
  /-- `arg1`, the number of bytes read. -/
  arg1 : ℕ
  /-- What these bytes were, for the statements only. -/
  content : List Byte
  deriving DecidableEq

/-- The stream, the reader thread, the handler and its queue. -/
structure Channel where
  /-- What the phone has written and the reader has not read. -/
  stream : List Byte
  /-- The buffer. -/
  buffer : List Byte
  /-- The message of a read that has returned, until it is posted. -/
  reader : Option ReadMessage
  /-- The messages posted and not handled. -/
  messages : List ReadMessage
  /-- Whether the thread of the handler runs: an exception that leaves `parseData` ends it. -/
  alive : Bool
  /-- The device that the commands act on. -/
  device : Device
  /-- The commands written so far. -/
  sent : List CommandText
  /-- The texts that `parseData` was called with. -/
  parsed : List JString

/-- The channel to a device when its link is opened. -/
def Channel.opened (d : Device) : Channel where
  stream := []
  buffer := List.replicate 1024 0
  reader := none
  messages := []
  alive := true
  device := d
  sent := []
  parsed := []

namespace Channel

/-- The phone writes a command. -/
def write (s : Channel) (c : CommandText) : Channel :=
  { s with stream := s.stream ++ c.bytes, sent := s.sent ++ [c] }

/-- `bytes = mmInStream.read(buffer)`, when it returns `n`. -/
def read (s : Channel) (n : ℕ) : Channel :=
  { s with stream := s.stream.drop n, buffer := s.stream.take n ++ s.buffer.drop n,
           reader := some ⟨n, s.stream.take n⟩ }

/-- `mHandler.obtainMessage(MESSAGE_READ, bytes, -1, buffer).sendToTarget()`. -/
def post (s : Channel) (m : ReadMessage) : Channel := { s with reader := none, messages := s.messages ++ [m] }

/-- `new String(readBuf, 0, msg.arg1)`. -/
def readMessage (s : Channel) (m : ReadMessage) : JString := newString (s.buffer.take m.arg1)

/-- `handleMessage` on a `MESSAGE_READ`. -/
def handleMessage (newJSONObject : NewJSONObject) (gson : Gson) (s : Channel) (m : ReadMessage)
    (messages : List ReadMessage) : Channel :=
  { s with messages := messages, alive := (call (parseData newJSONObject gson (s.readMessage m)) s.device).1.toBool,
           device := received newJSONObject gson s.device (s.readMessage m), parsed := s.parsed ++ [s.readMessage m] }

/-- The atomic steps of the phone, the reader and the handler. -/
inductive Action where
  /-- The phone writes a command. -/
  | write (c : CommandText)
  /-- A read returns. -/
  | read (n : ℕ)
  /-- The reader posts its message. -/
  | post
  /-- The handler takes the next message. -/
  | handleMessage
  deriving DecidableEq

variable (newJSONObject : NewJSONObject) (gson : Gson)

/-- The channel after an action, if it is possible. -/
def step (s : Channel) : Action → Option Channel
  | .write c => some (s.write c)
  | .read n => if s.reader = none ∧ 1 ≤ n ∧ n ≤ 1024 ∧ n ≤ s.stream.length then some (s.read n) else none
  | .post => s.reader.map s.post
  | .handleMessage =>
    match s.messages with
    | m :: messages => if s.alive then some (s.handleMessage newJSONObject gson m messages) else none
    | [] => none

/-- All that a step can do. -/
inductive Step (s : Channel) : Action → Channel → Prop where
  | write (c : CommandText) : Step s (.write c) (s.write c)
  | read {n : ℕ} (hreader : s.reader = none) (hn : n ≤ s.stream.length) : Step s (.read n) (s.read n)
  | post {m : ReadMessage} (h : s.reader = some m) : Step s .post (s.post m)
  | handleMessage {m : ReadMessage} {messages : List ReadMessage} (h : s.messages = m :: messages) :
      Step s .handleMessage (s.handleMessage newJSONObject gson m messages)

variable {newJSONObject : NewJSONObject} {gson : Gson}

theorem step_cases {s s' : Channel} {a : Action} (h : step newJSONObject gson s a = some s') :
    Step newJSONObject gson s a s' := by
  cases a with
  | write c =>
    obtain rfl := Option.some.inj h
    exact .write c
  | read n =>
    simp only [step, Option.ite_none_right_eq_some, Option.some.injEq] at h
    obtain ⟨⟨hreader, -, -, hn⟩, rfl⟩ := h
    exact .read hreader hn
  | post =>
    obtain ⟨m, hreader, rfl⟩ := Option.map_eq_some_iff.mp h
    exact .post hreader
  | handleMessage =>
    rw [step] at h
    split at h
    · next m messages hmessages =>
      simp only [Option.ite_none_right_eq_some, Option.some.injEq] at h
      obtain ⟨-, rfl⟩ := h
      exact .handleMessage hmessages
    · cases h

/-! ### What the device sees -/

/-- The device is the one that the texts parsed so far leave. -/
def DeviceOf (newJSONObject : NewJSONObject) (gson : Gson) (d : Device) (s : Channel) : Prop :=
  s.device = afterHistory newJSONObject gson s.parsed d

theorem deviceOf_step {d : Device} {s s' : Channel} {a : Action} (hs : DeviceOf newJSONObject gson d s)
    (h : Step newJSONObject gson s a s') : DeviceOf newJSONObject gson d s' := by
  cases h with
  | write c => exact hs
  | read hreader hn => exact hs
  | post hreader => exact hs
  | @handleMessage m messages hmessages =>
    unfold DeviceOf at hs ⊢
    simp only [handleMessage, afterHistory, List.foldl_append, List.foldl_cons, List.foldl_nil]
    rw [← afterHistory, ← hs]

/-- **In every run, the device is the one that a history of the texts parsed so far leaves.** -/
theorem always_parsed (d : Device) (as : List Action) :
    Always (step newJSONObject gson) (DeviceOf newJSONObject gson d) (.opened d) as :=
  always_of_invariant (DeviceOf newJSONObject gson d)
    (fun _ _ _ hs hstep => deviceOf_step hs (step_cases hstep)) as _ rfl

/-! ### One read a command -/

/-- `parseData` was called with the commands sent, one by one, in order and as they were sent; with
all of them, once nothing is left to read or to handle; and the handler runs. -/
structure Delivered (s : Channel) : Prop where
  inOrder : s.parsed <+: s.sent.map CommandText.string
  all : s.stream = [] → s.reader = none → s.messages = [] → s.parsed = s.sent.map CommandText.string
  alive : s.alive = true

/-- The messages not handled yet, with that of the reader. -/
def waiting (s : Channel) : List ReadMessage := s.messages ++ s.reader.toList

/-- A read takes the bytes of the next command and no others. -/
def ReadsCommand (s : Channel) (n : ℕ) : Prop :=
  ∃ c ∈ s.sent[s.parsed.length + s.waiting.length]?, s.stream.take n = c.bytes

/-- `parseData` returns on the bytes of the message. -/
def Returns (newJSONObject : NewJSONObject) (gson : Gson) (s : Channel) (m : ReadMessage) : Prop :=
  (call (parseData newJSONObject gson (newString m.content)) s.device).1.toBool = true

/-- A read takes one command, and its message is handled with the bytes still in the buffer. -/
def Orderly (newJSONObject : NewJSONObject) (gson : Gson) (s : Channel) : Action → Prop
  | .read n => s.ReadsCommand n
  | .handleMessage => ∀ m ∈ s.messages.head?, s.buffer.take m.arg1 = m.content ∧ Returns newJSONObject gson s m
  | _ => True

/-- A read takes one command, with every message handled before it. -/
def Alternating (newJSONObject : NewJSONObject) (gson : Gson) (s : Channel) : Action → Prop
  | .read n => s.messages = [] ∧ s.ReadsCommand n
  | .handleMessage => ∀ m ∈ s.messages.head?, Returns newJSONObject gson s m
  | _ => True

/-- The commands sent are those handled, those of which the bytes wait in a message, and those in
the stream. -/
structure InStep (s : Channel) : Prop where
  split : ∃ handled read unread : List CommandText, s.sent = handled ++ read ++ unread ∧
    s.parsed = handled.map CommandText.string ∧ s.waiting.map ReadMessage.content = read.map CommandText.bytes ∧
    s.stream = unread.flatMap CommandText.bytes
  alive : s.alive = true

theorem InStep.delivered {s : Channel} (hs : InStep s) : Delivered s := by
  obtain ⟨⟨handled, read, unread, hsent, hparsed, hread, hstream⟩, halive⟩ := hs
  refine ⟨?_, fun hnil hreader hmessages => ?_, halive⟩
  · rw [hsent, hparsed, List.append_assoc, List.map_append]
    exact List.prefix_append _ _
  · have hunread : unread = [] := by
      rw [hstream, List.flatMap_eq_nil_iff] at hnil
      exact List.eq_nil_iff_forall_not_mem.mpr fun c hc => c.bytes_ne_nil (hnil c hc)
    have hempty : read = [] := by
      rw [waiting, hmessages, hreader] at hread
      exact List.map_eq_nil_iff.mp hread.symm
    rw [hsent, hparsed, hunread, hempty, List.append_nil, List.append_nil]

theorem InStep.write {s : Channel} (hs : InStep s) (c : CommandText) : InStep (s.write c) := by
  obtain ⟨⟨handled, read, unread, hsent, hparsed, hread, hstream⟩, halive⟩ := hs
  refine ⟨⟨handled, read, unread ++ [c], ?_, hparsed, hread, ?_⟩, halive⟩
  · simp [Channel.write, hsent]
  · simp [Channel.write, hstream]

/-- A read of one command moves it from the stream to the reader. -/
theorem InStep.read {s : Channel} (hs : InStep s) {n : ℕ} (hreader : s.reader = none) (hn : n ≤ s.stream.length)
    (hcommand : s.ReadsCommand n) : InStep (s.read n) := by
  obtain ⟨⟨handled, read, unread, hsent, hparsed, hread, hstream⟩, halive⟩ := hs
  obtain ⟨c, hc, htake⟩ := hcommand
  have hlen : s.parsed.length + s.waiting.length = (handled ++ read).length := by
    have := congrArg List.length hread
    simp only [List.length_map] at this
    rw [hparsed, List.length_map, this, List.length_append]
  rw [hlen, hsent, Option.mem_def, List.getElem?_append_right le_rfl, Nat.sub_self] at hc
  obtain ⟨rest, rfl⟩ : ∃ rest, unread = c :: rest := by
    cases unread with
    | nil => cases hc
    | cons d rest => exact ⟨rest, by rw [Option.some.inj hc]⟩
  have hsize : c.bytes.length = n := by
    rw [← htake, List.length_take, Nat.min_eq_left hn]
  refine ⟨⟨handled, read ++ [c], rest, ?_, hparsed, ?_, ?_⟩, halive⟩
  · simp [Channel.read, hsent]
  · rw [waiting, hreader] at hread
    simp only [Option.toList_none, List.append_nil] at hread
    simp [waiting, Channel.read, hread, htake]
  · simp only [Channel.read, hstream, List.flatMap_cons]
    exact List.drop_left' hsize

theorem InStep.post {s : Channel} (hs : InStep s) {m : ReadMessage} (hreader : s.reader = some m) :
    InStep (s.post m) := by
  obtain ⟨⟨handled, read, unread, hsent, hparsed, hread, hstream⟩, halive⟩ := hs
  refine ⟨⟨handled, read, unread, hsent, hparsed, ?_, hstream⟩, halive⟩
  rw [← hread]
  simp [waiting, Channel.post, hreader]

/-- A message whose bytes are still in the buffer is parsed as the command was sent. -/
theorem InStep.handleMessage {s : Channel} (hs : InStep s) {m : ReadMessage} {messages : List ReadMessage}
    (hmessages : s.messages = m :: messages) (hbuffer : s.buffer.take m.arg1 = m.content)
    (hreturns : Returns newJSONObject gson s m) : InStep (s.handleMessage newJSONObject gson m messages) := by
  obtain ⟨⟨handled, read, unread, hsent, hparsed, hread, hstream⟩, -⟩ := hs
  rw [waiting, hmessages, List.cons_append, List.map_cons] at hread
  obtain ⟨c, read, rfl⟩ : ∃ c rest, read = c :: rest := by
    cases read with
    | nil => cases hread
    | cons c rest => exact ⟨c, rest, rfl⟩
  obtain ⟨hcontent, hrest⟩ := List.cons.inj hread
  have htext : s.readMessage m = c.string := by
    rw [readMessage, hbuffer, hcontent, c.newString_bytes]
  refine ⟨⟨handled ++ [c], read, unread, ?_, ?_, hrest, hstream⟩, ?_⟩
  · simp [Channel.handleMessage, hsent]
  · simp [Channel.handleMessage, hparsed, htext]
  · simp only [Channel.handleMessage, readMessage, hbuffer]
    exact hreturns

/-- **An orderly step keeps the channel in step.** -/
theorem inStep_step {s s' : Channel} {a : Action} (hs : InStep s) (horderly : Orderly newJSONObject gson s a)
    (h : Step newJSONObject gson s a s') : InStep s' := by
  cases h with
  | write c => exact hs.write c
  | read hreader hn => exact hs.read hreader hn horderly
  | post hreader => exact hs.post hreader
  | @handleMessage m messages hmessages =>
    obtain ⟨hbuffer, hreturns⟩ := horderly m (by rw [hmessages]; rfl)
    exact hs.handleMessage hmessages hbuffer hreturns

theorem inStep_opened (d : Device) : InStep (.opened d) where
  split := ⟨[], [], [], rfl, rfl, rfl, rfl⟩
  alive := rfl

/-- **When every read takes one command, and every message is handled with its bytes still in the
buffer, `parseData` is called with the commands as they were sent.** -/
theorem delivered_of_orderly (newJSONObject : NewJSONObject) (gson : Gson) (d : Device) (as : List Action)
    (h : Guarded (step newJSONObject gson) (Orderly newJSONObject gson) (.opened d) as) :
    Always (step newJSONObject gson) Delivered (.opened d) as :=
  Always.imp (fun _ hs => hs.delivered) as _
    (always_of_guarded InStep (fun _ _ _ hs horderly hstep => inStep_step hs horderly (step_cases hstep)) as _
      (inStep_opened d) h)

/-! ### A reader that waits -/

/-- The buffer still holds the bytes of every message. -/
def Kept (s : Channel) : Prop := ∀ m ∈ s.waiting, s.buffer.take m.arg1 = m.content

/-- The bytes of a read are in the buffer after it. -/
theorem take_buffer_read (s : Channel) {n : ℕ} (hn : n ≤ s.stream.length) :
    (s.read n).buffer.take n = s.stream.take n := by
  rw [Channel.read]
  exact List.take_left' (by rw [List.length_take, Nat.min_eq_left hn])

/-- A reader that waits for the handler overwrites nothing that a message refers to. -/
theorem kept_step {s s' : Channel} {a : Action} (hs : Kept s)
    (halternating : Alternating newJSONObject gson s a)
    (h : Step newJSONObject gson s a s') : Orderly newJSONObject gson s a ∧ Kept s' := by
  cases h with
  | write c => exact ⟨trivial, hs⟩
  | @read n hreader hn =>
    obtain ⟨hmessages, hcommand⟩ := halternating
    refine ⟨hcommand, fun m hm => ?_⟩
    simp only [waiting, Channel.read, hmessages, Option.toList_some, List.nil_append, List.mem_singleton] at hm
    obtain rfl := hm
    exact s.take_buffer_read hn
  | @post m hreader =>
    refine ⟨trivial, fun m' hm' => hs m' ?_⟩
    simpa [waiting, Channel.post, hreader] using hm'
  | @handleMessage m messages hmessages =>
    refine ⟨fun m' hm' => ?_, fun m' hm' => hs m' ?_⟩
    · refine ⟨hs m' ?_, halternating m' hm'⟩
      exact List.mem_append_left _ (List.mem_of_mem_head? hm')
    · rw [waiting, hmessages]
      exact List.mem_cons_of_mem m hm'

/-- A run in which the reader waits for the handler is orderly. -/
theorem orderly_of_alternating (d : Device) (as : List Action)
    (h : Guarded (step newJSONObject gson) (Alternating newJSONObject gson) (.opened d) as) :
    Guarded (step newJSONObject gson) (Orderly newJSONObject gson) (.opened d) as :=
  Guarded.imp_of_invariant Kept
    (fun _ _ _ hs halternating hstep => kept_step hs halternating (step_cases hstep)) as _ (fun _ hm => by cases hm) h

/-! ### Two commands -/

instance (newJSONObject : NewJSONObject) (gson : Gson) (s : Channel) :
    ∀ a, Decidable (Orderly newJSONObject gson s a)
  | .write _ => isTrue trivial
  | .read n => inferInstanceAs (Decidable (∃ c ∈ s.sent[s.parsed.length + s.waiting.length]?, s.stream.take n = c.bytes))
  | .post => isTrue trivial
  | .handleMessage => inferInstanceAs (Decidable (∀ m ∈ s.messages.head?, s.buffer.take m.arg1 = m.content ∧
      (call (parseData newJSONObject gson (newString m.content)) s.device).1.toBool = true))

/-- A command without arguments. -/
def bareCommand (cmd : String) : CommandText where
  text := "\x7b\"cmd\":\"".toList ++ cmd.toList ++ "\"\x7d".toList
  nonempty := by simp

/-- A parser that knows two of them. -/
def bareParser : NewJSONObject := fun readData =>
  (["query_wifis", "delete_wifi"].find? fun cmd => readData = (bareCommand cmd).string).map fun cmd =>
    .ofFields [("cmd", textField cmd)]

theorem delivered_of_orderly_one_by_one : Always (step bareParser plainGson) Delivered (.opened (deviceWith []))
    [.write (bareCommand "query_wifis"), .write (bareCommand "delete_wifi"), .read 21, .post, .handleMessage,
      .read 21, .post, .handleMessage] :=
  delivered_of_orderly bareParser plainGson (deviceWith []) _ (by decide)

/-- Two commands of one length, the second read before the handler has got to the first: it is
parsed twice, and the first is not. -/
theorem not_delivered_overwritten : ¬ Always (step bareParser plainGson) Delivered (.opened (deviceWith []))
    [.write (bareCommand "query_wifis"), .write (bareCommand "delete_wifi"), .read 21, .post, .read 21, .post,
      .handleMessage] := by
  intro h
  have hend : ¬ ∀ s ∈ after (step bareParser plainGson) (.opened (deviceWith [])) [.write (bareCommand "query_wifis"),
      .write (bareCommand "delete_wifi"), .read 21, .post, .read 21, .post, .handleMessage],
      s.parsed <+: s.sent.map CommandText.string := by
    decide
  exact hend fun s hs => (h.after hs).inOrder

end Channel

end GpsTracker.Bluetooth
