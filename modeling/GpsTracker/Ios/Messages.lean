import GpsTracker.Ios.CStrings

/-!
# The messages of the iOS app

The app writes its JSON messages with a format string and puts what the user
typed between two quotation marks as it is. `login` and `logout` put in the
`std::string` of the user id; `send` puts its texts into an `NSString` and makes a
`std::string` of the whole.

A format string of any number of fields is taken at once (`format_told_iff`). The
server gets what it should when every text that was put in is carried: it is plain,
without quotation marks, backslashes and control characters, and the default C
string encoding writes it in UTF-8 (`messages_faithful_iff`). Anything else makes no
message at all, or one that is no JSON, or one with other values or other fields.
-/

namespace GpsTracker.Ios

open GpsTracker.Java GpsTracker.Json GpsTracker.Utf8

/-! ### The messages -/

/-- The bytes of a string literal. -/
def bytes (s : String) : List Byte := encode s.toList

/-- The message of `Client::login` and of `Client::logout`, for its request type. -/
def accountMessage (request_type : String) (user_id : List Byte) : List Byte :=
  bytes "\x7b\"request_type\":\"" ++ bytes request_type ++ bytes "\", \"user_id\":\"" ++ user_id ++ bytes "\"\x7d"

section Encoding

variable (enc : CStringEncoding)

/-- The message of the action `connect`, by `Client::login`. There is none if the user id has no
C string: a `std::string` cannot be made of `NULL`. -/
def loginMessage (user_id : JString) : Option (List Byte) :=
  (enc.toStdString user_id).map (accountMessage "login")

/-- The message of the action `disconnect`, by `Client::logout`. -/
def logoutMessage (user_id : JString) : Option (List Byte) :=
  (enc.toStdString user_id).map (accountMessage "logout")

/-- The message of the action `send`; `datetime` is the description of the current date. -/
def sendMessage (user_id to_user_id message datetime : JString) : Option (List Byte) :=
  enc.toStdString (lit "\x7b\"request_type\":\"send\",\"user_id\":\"" ++ user_id ++ lit "\", \"to_user_id\":\"" ++
    to_user_id ++ lit "\",\"message\":\"" ++ message ++ lit "\",\"datetime\":\"" ++ datetime ++ lit "\"\x7d")

end Encoding

/-- The message is the UTF-8 of one JSON object with these fields, all strings, and no others. -/
def Faithful (message : Option (List Byte)) (fields : List (String × JString)) : Prop :=
  ∃ text, message = some (encode text) ∧
    parse (utf16 text) = some (stringObject (fields.map fun f => (lit f.1, f.2)))

/-! ### Tokens -/

theorem lex_lbrace (s : Text) : lex (0x7b :: s) = (lex s).map fun ts => .lbrace :: ts :=
  lex_punctuation ⟨by decide, by decide, by decide⟩ s

theorem lex_comma (s : Text) : lex (0x2c :: s) = (lex s).map fun ts => .comma :: ts :=
  lex_punctuation ⟨by decide, by decide, by decide⟩ s

theorem lex_comma_space (s : Text) : lex (0x2c :: 0x20 :: s) = (lex s).map fun ts => .comma :: ts := by
  rw [lex_comma, lex_of_space (by decide)]

theorem lex_rbrace : lex [0x7d] = some [.rbrace] := by
  rw [lex_punctuation (t := .rbrace) ⟨by decide, by decide, by decide⟩, lex_nil]
  rfl

theorem utf16_comma : utf16 [','] = [0x2c] := by decide

theorem utf16_comma_space : utf16 [',', ' '] = [0x2c, 0x20] := by decide

theorem utf16_rbrace : utf16 ['\x7d'] = [0x7d] := by decide

/-- A message is faithful if its bytes have the tokens of its fields. -/
theorem faithful_iff {fields : List (String × JString)} (hne : fields ≠ []) (message : Option (List Byte)) :
    Faithful message fields ↔
      ∃ bs, message = some bs ∧ Reads bs (.lbrace :: fieldTokens (fields.map fun f => (lit f.1, f.2))) := by
  have hparse (text : List Char) := @parse_eq_stringObject_iff (utf16 text) (fields.map fun f => (lit f.1, f.2))
    fun h => hne (List.map_eq_nil_iff.mp h)
  simp only [Faithful, hparse]
  constructor
  · rintro ⟨text, hmessage, hlex⟩
    exact ⟨encode text, hmessage, text, rfl, hlex⟩
  · rintro ⟨bs, hmessage, text, rfl, hlex⟩
    exact ⟨text, hmessage, hlex⟩

/-! ### Format strings -/

/-- A field of a format string. -/
structure FormatField where
  /-- The comma before it is followed by a space. -/
  space : Bool
  name : String
  /-- What stands between its quotation marks. -/
  value : JString

namespace FormatField

/-- The name is printable, and no token without its quotation mark. -/
def Named (f : FormatField) : Prop := Printable f.name.toList ∧ ∀ r, lex (lit f.name ++ r) = none

/-- The comma before the field. -/
def separator (f : FormatField) : List Char := if f.space then [',', ' '] else [',']

theorem printable_separator (f : FormatField) : Printable f.separator := by
  rw [separator]
  split_ifs <;> decide

theorem lex_separator (f : FormatField) (rest : JString) :
    lex (utf16 f.separator ++ rest) = (lex rest).map fun ts => .comma :: ts := by
  rw [separator]
  split_ifs
  · rw [utf16_comma_space]
    exact lex_comma_space rest
  · rw [utf16_comma]
    exact lex_comma rest

end FormatField

/-- What a format string goes on with after the first value. -/
def formatTail : List FormatField → JString
  | [] => [0x7d]
  | f :: fs => utf16 f.separator ++ member (lit f.name) (f.value ++ quote :: formatTail fs)

/-- The message of a format string. -/
def format (f : FormatField) (fs : List FormatField) : JString :=
  0x7b :: member (lit f.name) (f.value ++ quote :: formatTail fs)

/-- The tokens of the fields after the first value. -/
def tailTokens : List FormatField → List Token
  | [] => [.rbrace]
  | f :: fs => .comma :: .string (lit f.name) :: .colon :: .string f.value :: tailTokens fs

theorem fieldTokens_cons (f : FormatField) (fs : List FormatField) :
    fieldTokens ((f :: fs).map fun f => (lit f.name, f.value)) =
      .string (lit f.name) :: .colon :: .string f.value :: tailTokens fs := by
  induction fs generalizing f with
  | nil => rfl
  | cons g fs ih =>
    have htail := ih g
    rw [List.map_cons] at htail
    rw [List.map_cons, List.map_cons, fieldTokens, htail]
    rfl

/-! ### Reading a format string back -/

section Told

variable {enc : CStringEncoding}

/-- A mark before a member. -/
theorem told_append_member_iff {front name : List Char} (hfront : Printable front) (hname : Printable name)
    {t : Token} (hlex : ∀ s, lex (utf16 front ++ s) = (lex s).map fun ts => t :: ts) (s : JString)
    (ts : List Token) : enc.Told (utf16 front ++ member (utf16 name) s) (t :: ts) ↔
      enc.Told (member (utf16 name) s) ts := by
  have hreads (bs : List Byte) := @reads_append_iff front (ascii_of_printable hfront) [t] hlex bs ts
  rw [CStringEncoding.Told, CStringEncoding.Told, toStdString_printable_member hfront hname,
    toStdString_member hname]
  cases enc.toStdString s with
  | none => simp
  | some bs => simpa using hreads (encode (memberChars name) ++ bs)

/-- The quotation mark before the next name ends a string, and the name itself is no token. -/
theorem strays_member {front name : List Char} (hfront : Printable front) (hname : Printable name)
    (htoken : ∀ r, lex (utf16 name ++ r) = none) (bs : List Byte) :
    Strays (encode front ++ (encode (memberChars name) ++ bs)) := by
  intro text htext
  obtain ⟨t, rfl, ht⟩ := (encode_eq_ascii_append_iff (ascii_of_printable hfront)).mp htext
  obtain ⟨u, rfl, -⟩ := (encode_eq_ascii_append_iff (ascii_memberChars hname)).mp ht
  rw [utf16_append, utf16_memberChars_append]
  exact stray_member (plain_utf16 hfront) htoken _

/-- The end of every message. -/
theorem toStdString_rbrace : enc.toStdString [0x7d] = some [0x7d] := by
  rw [CStringEncoding.toStdString, ← utf16_rbrace, enc.printable ['\x7d'] (by decide)]
  rfl

theorem encode_eq_rbrace {text : List Char} (h : encode text = [0x7d]) : text = ['\x7d'] := by
  have hsplit : encode text = [] ++ UInt8.ofNat ('\x7d').toNat :: [] := h
  obtain ⟨s, t, rfl, hs, ht⟩ := (encode_eq_append_cons_iff (by decide)).mp hsplit
  rw [encode_eq_nil_iff.mp hs, encode_eq_nil_iff.mp ht, List.nil_append]

theorem reads_rbrace : Reads [0x7d] [.rbrace] := ⟨['\x7d'], rfl, by rw [utf16_rbrace, lex_rbrace]⟩

theorem strays_rbrace : Strays [0x7d] := by
  intro text htext
  rw [encode_eq_rbrace htext, utf16_rbrace]
  exact stray_rbrace

theorem strays_formatTail {fs : List FormatField} (h : ∀ f ∈ fs, f.Named) {bs : List Byte}
    (hbs : enc.toStdString (formatTail fs) = some bs) : Strays bs := by
  cases fs with
  | nil =>
    rw [formatTail, toStdString_rbrace] at hbs
    cases hbs
    exact strays_rbrace
  | cons f fs =>
    obtain ⟨hname, htoken⟩ := h f (List.mem_cons_self ..)
    rw [formatTail, lit, toStdString_printable_member f.printable_separator hname] at hbs
    obtain ⟨cs, -, rfl⟩ := Option.map_eq_some_iff.mp hbs
    exact strays_member f.printable_separator hname htoken cs

/-- One value after another: a field is read back if its value is carried and the rest is. -/
theorem told_formatTail_iff {fs : List FormatField} (h : ∀ f ∈ fs, f.Named) :
    enc.Told (formatTail fs) (tailTokens fs) ↔ ∀ f ∈ fs, enc.Carried f.value := by
  induction fs with
  | nil => exact iff_of_true ⟨_, toStdString_rbrace, reads_rbrace⟩ (List.forall_mem_nil _)
  | cons f fs ih =>
    obtain ⟨hf, hfs⟩ := List.forall_mem_cons.mp h
    rw [formatTail, tailTokens, lit, told_append_member_iff f.printable_separator hf.1 f.lex_separator,
      told_member_iff hf.1 fun _ => strays_formatTail hfs, ih hfs, List.forall_mem_cons]

/-- **A message is read back exactly when every text put into it is carried.** -/
theorem format_told_iff {f : FormatField} {fs : List FormatField} (hf : Printable f.name.toList)
    (hfs : ∀ f ∈ fs, f.Named) : enc.Told (format f fs)
      (.lbrace :: fieldTokens ((f :: fs).map fun f => (lit f.name, f.value))) ↔
      ∀ g ∈ f :: fs, enc.Carried g.value := by
  have hlbrace : utf16 ['\x7b'] = [0x7b] := by decide
  have hlex (s : JString) : lex (utf16 ['\x7b'] ++ s) = (lex s).map fun ts => .lbrace :: ts := by
    rw [hlbrace]
    exact lex_lbrace s
  have hformat : format f fs = utf16 ['\x7b'] ++ member (utf16 f.name.toList) (f.value ++ quote :: formatTail fs) := by
    rw [hlbrace]
    rfl
  rw [fieldTokens_cons, hformat, told_append_member_iff (by decide) hf hlex, lit,
    told_member_iff hf fun _ => strays_formatTail hfs, told_formatTail_iff hfs, List.forall_mem_cons]

/-- A message made of a format string. -/
theorem format_faithful_iff {f : FormatField} {fs : List FormatField} (hf : Printable f.name.toList)
    (hfs : ∀ f ∈ fs, f.Named) : Faithful (enc.toStdString (format f fs)) ((f :: fs).map fun f => (f.name, f.value)) ↔
      ∀ g ∈ f :: fs, enc.Carried g.value := by
  rw [faithful_iff (by simp), List.map_map]
  exact format_told_iff hf hfs

end Told

/-- The names after the first are no tokens without their quotation mark. -/
theorem named_of_mem {f : FormatField} (h : f.name ∈ ["user_id", "dev_id", "lon", "lat", "message", "datetime",
    "wifi_name", "mac_address"]) : f.Named := by
  have hname : ∀ s ∈ ["user_id", "dev_id", "lon", "lat", "message", "datetime", "wifi_name", "mac_address"],
      Printable s.toList := by
    decide
  have hletter : ∀ s ∈ ["user_id", "dev_id", "lon", "lat", "message", "datetime", "wifi_name", "mac_address"],
      ∃ c ∈ (lit s).head?, isSpace c = false ∧ c ≠ quote ∧ punctuation c = none ∧ word c = none ∧ c ≠ 0x2d ∧ c ≠ 0x30 ∧
        Json.isDigit c = false := by
    decide
  obtain ⟨c, hc, hfirst⟩ := hletter f.name h
  refine ⟨hname f.name h, fun r => ?_⟩
  obtain ⟨rest, hrest⟩ : ∃ rest, lit f.name = c :: rest := List.head?_eq_some_iff.mp hc
  rw [hrest, List.cons_append]
  exact lex_letter hfirst _

/-- A `t` that is not the one of `true`. -/
theorem named_to_user_id (space : Bool) (value : JString) :
    (FormatField.mk space "to_user_id" value).Named := by
  have hname : Printable "to_user_id".toList := by decide
  refine ⟨hname, fun r => ?_⟩
  have h : lit "to_user_id" = 0x74 :: 0x6f :: lit "_user_id" := by decide
  rw [h]
  refine lex_of_none (by decide) ?_
  simp [scanToken, quote, punctuation, word]

/-! ### `login` and `logout` -/

/-- What `accountMessage` writes before the name of the user id. -/
def accountFront (request_type : String) : List Char :=
  '\x7b' :: (memberChars "request_type".toList ++ (request_type.toList ++ ['\x22', ',', ' ']))

theorem accountMessage_eq (request_type : String) (user_id : List Byte) : accountMessage request_type user_id =
    encode (accountFront request_type) ++ (encode (memberChars "user_id".toList) ++ (user_id ++ 0x22 :: [0x7d])) := by
  have h1 : bytes "\x7b\"request_type\":\"" = encode ('\x7b' :: memberChars "request_type".toList) := by
    decide
  have h2 : bytes "\", \"user_id\":\"" = encode (['\x22', ',', ' '] ++ memberChars "user_id".toList) := by
    decide
  have h3 : bytes "\"\x7d" = [0x22, 0x7d] := by decide
  have hfront : accountFront request_type =
      ('\x7b' :: memberChars "request_type".toList) ++ (request_type.toList ++ ['\x22', ',', ' ']) := rfl
  rw [accountMessage, h1, h2, h3, hfront, bytes]
  simp only [encode_append, List.append_assoc]

theorem printable_request_type : Printable "request_type".toList := by decide

theorem printable_user_id : Printable "user_id".toList := by decide

theorem lex_accountFront {request_type : String} (h : Printable request_type.toList) (s : JString) :
    lex (utf16 (accountFront request_type) ++ s) = (lex s).map fun ts =>
      [.lbrace, .string (lit "request_type"), .colon, .string (lit request_type), .comma] ++ ts := by
  have hlbrace : charUnits '\x7b' = [0x7b] := by decide
  have hend : utf16 ['\x22', ',', ' '] = [quote, 0x2c, 0x20] := by decide
  have htext : utf16 (accountFront request_type) ++ s = 0x7b :: member (lit "request_type")
      (lit request_type ++ quote :: 0x2c :: 0x20 :: s) := by
    rw [accountFront, utf16_cons, hlbrace, utf16_memberChars_append, utf16_append, hend]
    simp [member, lit]
  have hname : Plain (lit "request_type") := plain_utf16 printable_request_type
  have htype : Plain (lit request_type) := plain_utf16 h
  rw [htext, lex_lbrace, lex_member_plain hname htype, lex_comma_space]
  cases lex s with
  | none => rfl
  | some ts => rfl

theorem ascii_accountFront {request_type : String} (h : Printable request_type.toList) :
    ∀ c ∈ accountFront request_type, c.toNat < 128 := by
  intro c hc
  rcases List.mem_cons.mp hc with rfl | hc
  · decide
  · rcases List.mem_append.mp hc with hc | hc
    · exact ascii_memberChars printable_request_type c hc
    · rcases List.mem_append.mp hc with hc | hc
      · exact ascii_of_printable h c hc
      · simp only [List.mem_cons, List.not_mem_nil, or_false] at hc
        rcases hc with rfl | rfl | rfl <;> decide

/-- `login` and `logout` are read back exactly for a user id that is carried. -/
theorem account_faithful_iff {enc : CStringEncoding} {request_type : String} (h : Printable request_type.toList)
    (user_id : JString) : Faithful ((enc.toStdString user_id).map (accountMessage request_type))
      [("request_type", lit request_type), ("user_id", user_id)] ↔ enc.Carried user_id := by
  have htokens : Token.lbrace :: fieldTokens ([("request_type", lit request_type), ("user_id", user_id)].map
        fun f => (lit f.1, f.2)) =
      [.lbrace, .string (lit "request_type"), .colon, .string (lit request_type), .comma] ++
        [.string (lit "user_id"), .colon, .string user_id, .rbrace] := by simp [fieldTokens]
  rw [faithful_iff (by simp), CStringEncoding.toStdString, htokens]
  cases hs : enc.cStringUsingEncoding user_id with
  | none => simp [CStringEncoding.Carried, hs]
  | some bs =>
    simp only [Option.map_some, Option.some.injEq, exists_eq_left']
    rw [accountMessage_eq, reads_append_iff (ascii_accountFront h) (lex_accountFront h), lit,
      reads_member_iff printable_user_id (fun text => enc.compact user_id bs text hs) strays_rbrace,
      and_iff_left reads_rbrace, carried_iff_written hs]

/-- **`login` is read back exactly for a user id that is carried.** -/
theorem login_faithful_iff (enc : CStringEncoding) (user_id : JString) :
    Faithful (loginMessage enc user_id) [("request_type", lit "login"), ("user_id", user_id)] ↔ enc.Carried user_id :=
  account_faithful_iff (by decide) user_id

theorem logout_faithful_iff (enc : CStringEncoding) (user_id : JString) :
    Faithful (logoutMessage enc user_id) [("request_type", lit "logout"), ("user_id", user_id)] ↔ enc.Carried user_id :=
  account_faithful_iff (by decide) user_id

/-! ### `send` -/

/-- A field whose value is written in the format string. -/
def fixedField (space : Bool) (name value : String) : FormatField := ⟨space, name, lit value⟩

/-- A field whose value is put in. -/
def insertedField (space : Bool) (name : String) (value : JString) : FormatField := ⟨space, name, value⟩

def sendFields (user_id to_user_id message datetime : JString) : List FormatField :=
  [insertedField false "user_id" user_id, insertedField true "to_user_id" to_user_id,
    insertedField false "message" message, insertedField false "datetime" datetime]

/-- The end of every message but those of `Client`. -/
theorem lit_end : lit "\"\x7d" = [quote, 0x7d] := by decide

theorem sendMessage_eq (enc : CStringEncoding) (user_id to_user_id message datetime : JString) :
    sendMessage enc user_id to_user_id message datetime = enc.toStdString
      (format (fixedField false "request_type" "send") (sendFields user_id to_user_id message datetime)) := by
  have h1 : lit "\x7b\"request_type\":\"send\",\"user_id\":\"" = 0x7b :: member (lit "request_type")
      (lit "send" ++ quote :: 0x2c :: member (lit "user_id") []) := by decide
  have h2 : lit "\", \"to_user_id\":\"" = quote :: 0x2c :: 0x20 :: member (lit "to_user_id") [] := by decide
  have h3 : lit "\",\"message\":\"" = quote :: 0x2c :: member (lit "message") [] := by decide
  have h4 : lit "\",\"datetime\":\"" = quote :: 0x2c :: member (lit "datetime") [] := by decide
  rw [sendMessage, h1, h2, h3, h4, lit_end]
  simp [format, formatTail, sendFields, fixedField, insertedField, FormatField.separator, member, utf16_comma,
    utf16_comma_space]

/-- What is printable is carried by every encoding. -/
theorem carried_printable (enc : CStringEncoding) {text : List Char} (h : Printable text) :
    enc.Carried (utf16 text) :=
  ⟨plain_utf16 h, text, rfl, enc.printable text h⟩

/-- **`send` is read back exactly for texts that are carried.** -/
theorem send_faithful_iff (enc : CStringEncoding) (user_id to_user_id message : JString) {date : List Char}
    (hdate : Printable date) :
    Faithful (sendMessage enc user_id to_user_id message (utf16 date))
        [("request_type", lit "send"), ("user_id", user_id), ("to_user_id", to_user_id), ("message", message),
          ("datetime", utf16 date)] ↔ enc.Carried user_id ∧ enc.Carried to_user_id ∧ enc.Carried message := by
  have hnamed : ∀ f ∈ sendFields user_id to_user_id message (utf16 date), f.Named := by
    intro f hf
    simp only [sendFields, List.mem_cons, List.not_mem_nil, or_false] at hf
    rcases hf with rfl | rfl | rfl | rfl
    · exact named_of_mem (by simp [insertedField])
    · exact named_to_user_id true to_user_id
    all_goals exact named_of_mem (by simp [insertedField])
  have hsend : enc.Carried (lit "send") := carried_printable enc (by decide)
  rw [sendMessage_eq]
  refine (format_faithful_iff printable_request_type hnamed).trans ?_
  simp [sendFields, fixedField, insertedField, hsend, carried_printable enc hdate]

/-! ### All three -/

/-- **Which texts the messages of the app carry faithfully**: those that are plain and that the
default encoding writes in UTF-8. -/
theorem messages_faithful_iff (enc : CStringEncoding) (user_id to_user_id message : JString) {date : List Char}
    (hdate : Printable date) :
    (Faithful (loginMessage enc user_id) [("request_type", lit "login"), ("user_id", user_id)] ↔ enc.Carried user_id) ∧
    (Faithful (logoutMessage enc user_id) [("request_type", lit "logout"), ("user_id", user_id)] ↔
      enc.Carried user_id) ∧
    (Faithful (sendMessage enc user_id to_user_id message (utf16 date))
        [("request_type", lit "send"), ("user_id", user_id), ("to_user_id", to_user_id), ("message", message),
          ("datetime", utf16 date)] ↔ enc.Carried user_id ∧ enc.Carried to_user_id ∧ enc.Carried message) :=
  ⟨login_faithful_iff enc user_id, logout_faithful_iff enc user_id,
    send_faithful_iff enc user_id to_user_id message hdate⟩

theorem printable_date : Printable "2016-09-23 12:00:00 +0000".toList := by decide

theorem messages_faithful_iff_hello :
    Faithful (sendMessage asciiEncoding (lit "1") (lit "2") (lit "hello") (lit "2016-09-23 12:00:00 +0000"))
        [("request_type", lit "send"), ("user_id", lit "1"), ("to_user_id", lit "2"), ("message", lit "hello"),
          ("datetime", lit "2016-09-23 12:00:00 +0000")] ↔
      asciiEncoding.Carried (lit "1") ∧ asciiEncoding.Carried (lit "2") ∧ asciiEncoding.Carried (lit "hello") :=
  (messages_faithful_iff asciiEncoding (lit "1") (lit "2") (lit "hello") printable_date).2.2

/-- A user id with a quotation mark adds a field to `login`, a message with one a field to
`send`, and a name in Chinese has no C string in ASCII. -/
theorem not_messages_faithful :
    ¬ Faithful (loginMessage asciiEncoding (lit "1\",\"admin\":\"yes"))
        [("request_type", lit "login"), ("user_id", lit "1\",\"admin\":\"yes")] ∧
    ¬ Faithful (sendMessage asciiEncoding (lit "1") (lit "2") (lit "hi\",\"to_user_id\":\"3")
          (lit "2016-09-23 12:00:00 +0000"))
        [("request_type", lit "send"), ("user_id", lit "1"), ("to_user_id", lit "2"),
          ("message", lit "hi\",\"to_user_id\":\"3"), ("datetime", lit "2016-09-23 12:00:00 +0000")] ∧
    ¬ Faithful (logoutMessage asciiEncoding (lit "小明")) [("request_type", lit "logout"), ("user_id", lit "小明")] := by
  have hlogin : ¬ Plain (lit "1\",\"admin\":\"yes") := by decide
  have hsend : ¬ Plain (lit "hi\",\"to_user_id\":\"3") := by decide
  have hname : asciiEncoding.cStringUsingEncoding (lit "小明") = none := by decide
  refine ⟨fun h => ?_, fun h => ?_, fun h => ?_⟩
  · exact hlogin ((login_faithful_iff _ _).mp h).1
  · exact hsend ((send_faithful_iff _ _ _ _ printable_date).mp h).2.2.1
  · obtain ⟨-, text, -, htext⟩ := (logout_faithful_iff _ _).mp h
    rw [hname] at htext
    cases htext

end GpsTracker.Ios
