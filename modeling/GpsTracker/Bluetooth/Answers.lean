import GpsTracker.Bluetooth.Replies

/-!
# Unanswered commands

The accessors of `org.json` throw before the checks that were written for
missing fields, so those checks never see a null and the phone gets no answer;
and the removal loop of `delete_wifi` runs past the end of the list when more
than half of the entries match. Every command either ends in one reply or throws
before it has done anything (`command_cases`); the result says which requests
and stored lists are on which side.
-/

namespace GpsTracker.Bluetooth

open GpsTracker.Java

/-! ### The fields of a request -/

/-- `getString` returns for the field of this name. -/
def HasString (jsonObject : JSONObject) (name : String) : Prop :=
  ((jsonObject (lit name)).bind JSONField.asString).isSome

/-- `getInt` returns for the field of this name. -/
def HasInt (jsonObject : JSONObject) (name : String) : Prop :=
  ((jsonObject (lit name)).bind JSONField.asInt).isSome

instance (jsonObject : JSONObject) (name : String) : Decidable (HasString jsonObject name) :=
  inferInstanceAs (Decidable (_ = true))

/-- The fields of `add_wifi` and `update_wifi` are all there, and of their types. -/
structure Converts (jsonObject : JSONObject) : Prop where
  ssid : HasString jsonObject "ssid"
  pwd : HasString jsonObject "pwd"
  macAddress : HasString jsonObject "macAddress"
  penName : HasString jsonObject "penName"
  type : HasInt jsonObject "type"

theorem getString_cases (jsonObject : JSONObject) (name : String) :
    (HasString jsonObject name ∧ ∃ s, jsonObject.getString name = .ok s) ∨
      (¬ HasString jsonObject name ∧ jsonObject.getString name = .error .json) := by
  unfold HasString JSONObject.getString
  cases (jsonObject (lit name)).bind JSONField.asString with
  | some s => exact Or.inl ⟨rfl, s, rfl⟩
  | none => exact Or.inr ⟨Bool.false_ne_true, rfl⟩

theorem getInt_cases (jsonObject : JSONObject) (name : String) :
    (HasInt jsonObject name ∧ ∃ i, jsonObject.getInt name = .ok i) ∨
      (¬ HasInt jsonObject name ∧ jsonObject.getInt name = .error .json) := by
  unfold HasInt JSONObject.getInt
  cases (jsonObject (lit name)).bind JSONField.asInt with
  | some i => exact Or.inl ⟨rfl, i, rfl⟩
  | none => exact Or.inr ⟨Bool.false_ne_true, rfl⟩

/-- A request is read when all its fields convert, and then none of its strings is null;
otherwise `JSONException` is thrown. -/
theorem readWifiInfo_cases (jsonObject : JSONObject) :
    (Converts jsonObject ∧ ∃ wifiInfo, readWifiInfo jsonObject = .ok wifiInfo ∧ wifiInfo.ssid ≠ none ∧
      wifiInfo.pwd ≠ none ∧ wifiInfo.macAddress ≠ none) ∨
      (¬ Converts jsonObject ∧ readWifiInfo jsonObject = .error .json) := by
  unfold readWifiInfo
  rcases getString_cases jsonObject "ssid" with ⟨h1, ssid, e1⟩ | ⟨h1, e1⟩
  · rcases getString_cases jsonObject "pwd" with ⟨h2, pwd, e2⟩ | ⟨h2, e2⟩
    · rcases getString_cases jsonObject "macAddress" with ⟨h3, macAddress, e3⟩ | ⟨h3, e3⟩
      · rcases getString_cases jsonObject "penName" with ⟨h4, penName, e4⟩ | ⟨h4, e4⟩
        · rcases getInt_cases jsonObject "type" with ⟨h5, type, e5⟩ | ⟨h5, e5⟩
          · rw [e1, e2, e3, e4, e5]
            exact Or.inl ⟨⟨h1, h2, h3, h4, h5⟩, _, rfl, Option.some_ne_none _, Option.some_ne_none _,
              Option.some_ne_none _⟩
          · rw [e1, e2, e3, e4, e5]
            exact Or.inr ⟨fun h => h5 h.type, rfl⟩
        · rw [e1, e2, e3, e4]
          exact Or.inr ⟨fun h => h4 h.penName, rfl⟩
      · rw [e1, e2, e3]
        exact Or.inr ⟨fun h => h3 h.macAddress, rfl⟩
    · rw [e1, e2]
      exact Or.inr ⟨fun h => h2 h.pwd, rfl⟩
  · rw [e1]
    exact Or.inr ⟨fun h => h1 h.ssid, rfl⟩

/-! ### The loops -/

theorem removeRounds_ok_iff (m : ℕ) : ∀ (i : ℕ) (list : List WifiInfo),
    (∃ list', removeRounds m i list = .ok list') ↔ m = 0 ∨ i + 2 * m ≤ list.length + 1 := by
  induction m with
  | zero => exact fun i list => ⟨fun _ => Or.inl rfl, fun _ => ⟨list, rfl⟩⟩
  | succ m ih =>
    intro i list
    rw [removeRounds, removeAt]
    by_cases hi : i < list.length
    · rw [if_pos hi, ok_bind, ih, List.length_eraseIdx_of_lt hi]
      omega
    · rw [if_neg hi, error_bind]
      constructor
      · rintro ⟨list', h⟩
        cases h
      · intro h
        omega

/-- How many entries a `delete_wifi` request matches. -/
def matching (macAddressArray : JString) (list : List WifiInfo) : ℕ :=
  list.countP fun wifiInfo => wifiInfo.macAddress.any (contains macAddressArray)

theorem needRemoveIndexList_cases (macAddressArray : JString) (list : List WifiInfo) : ∀ i,
    ((∀ wifiInfo ∈ list, wifiInfo.macAddress ≠ none) ∧ ∃ indices,
      needRemoveIndexList macAddressArray i list = .ok indices ∧ indices.length = matching macAddressArray list) ∨
    ((∃ wifiInfo ∈ list, wifiInfo.macAddress = none) ∧
      needRemoveIndexList macAddressArray i list = .error .nullPointer) := by
  induction list with
  | nil => exact fun i => Or.inl ⟨fun _ h => absurd h List.not_mem_nil, [], rfl, rfl⟩
  | cons wifiInfo list ih =>
    intro i
    cases hmac : wifiInfo.macAddress with
    | none =>
      rw [needRemoveIndexList, hmac]
      exact Or.inr ⟨⟨wifiInfo, List.mem_cons_self, hmac⟩, rfl⟩
    | some macAddress =>
      rw [needRemoveIndexList, hmac]
      rcases ih (i + 1) with ⟨hall, indices, hok, hlen⟩ | ⟨⟨w, hw, hnull⟩, herr⟩
      · refine Or.inl ⟨?_, _, by rw [deref, ok_bind, hok]; rfl, ?_⟩
        · intro w hw
          rcases List.mem_cons.mp hw with rfl | hw
          · rw [hmac]
            exact Option.some_ne_none _
          · exact hall w hw
        · rw [matching, List.countP_cons, hmac, Option.any_some, ← matching, ← hlen]
          split_ifs <;> rfl
      · exact Or.inr ⟨⟨w, List.mem_cons_of_mem _ hw, hnull⟩, by rw [deref, ok_bind, herr]; rfl⟩

/-- The entries the loop of `update_wifi` looks at before the first match. -/
def beforeMatch (macAddress : Option JString) (list : List WifiInfo) : List WifiInfo :=
  list.takeWhile fun item => item.macAddress ≠ macAddress

theorem updateFirst_cases (wifiInfo : WifiInfo) (list : List WifiInfo) (hmac : wifiInfo.macAddress ≠ none) :
    ((∀ item ∈ beforeMatch wifiInfo.macAddress list, item.macAddress ≠ none) ∧
      ∃ r, updateFirst wifiInfo list = .ok r) ∨
    ((∃ item ∈ beforeMatch wifiInfo.macAddress list, item.macAddress = none) ∧
      updateFirst wifiInfo list = .error .nullPointer) := by
  induction list with
  | nil => exact Or.inl ⟨fun _ h => absurd h List.not_mem_nil, _, rfl⟩
  | cons item list ih =>
    cases hitem : item.macAddress with
    | none =>
      have hne : item.macAddress ≠ wifiInfo.macAddress := fun h => hmac (h ▸ hitem)
      rw [updateFirst, beforeMatch, List.takeWhile_cons, if_pos (decide_eq_true hne), hitem]
      exact Or.inr ⟨⟨item, List.mem_cons_self, hitem⟩, rfl⟩
    | some macAddress =>
      rw [updateFirst, hitem, deref, ok_bind]
      by_cases heq : some macAddress = wifiInfo.macAddress
      · rw [if_pos heq, beforeMatch, List.takeWhile_cons, if_neg (by rw [hitem, heq]; simp)]
        exact Or.inl ⟨fun _ h => absurd h List.not_mem_nil, _, rfl⟩
      · rw [if_neg heq, beforeMatch, List.takeWhile_cons,
          if_pos (by rw [hitem]; exact decide_eq_true heq), ← beforeMatch]
        rcases ih with ⟨hall, r, hr⟩ | ⟨⟨w, hw, hnull⟩, herr⟩
        · refine Or.inl ⟨?_, _, by rw [hr]; rfl⟩
          intro w hw
          rcases List.mem_cons.mp hw with rfl | hw
          · rw [hitem]
            exact Option.some_ne_none _
          · exact hall w hw
        · exact Or.inr ⟨⟨w, List.mem_cons_of_mem _ hw, hnull⟩, by rw [herr]; rfl⟩

/-- A request that was read has no null strings, so only its type can be refused. -/
theorem checkWifiInfo_code {wifiInfo : WifiInfo} (hssid : wifiInfo.ssid ≠ none) (hpwd : wifiInfo.pwd ≠ none) :
    (checkWifiInfo wifiInfo).code = 0 ↔ 1 ≤ wifiInfo.type.toInt ∧ wifiInfo.type.toInt ≤ 3 := by
  unfold checkWifiInfo
  simp only [if_neg hssid, if_neg hpwd]
  split_ifs with h
  · exact ⟨fun h0 => (by cases h0), fun h0 => by omega⟩
  · exact ⟨fun _ => by omega, fun _ => rfl⟩

/-! ### When a command is answered -/

/-- What a method gives the link to write. -/
def writes {α : Type} (method : Method α) (d : Device) : List (List Byte) :=
  (call method d).2.written.drop d.written.length

/-- The object has no field of this name. -/
def Missing (jsonObject : JSONObject) (name : String) : Prop := jsonObject (lit name) = none

/-- The contract of a command: one reply goes out, and a request that lacks a field is
told so. -/
structure AnsweredOnce (gson : Gson) (method : Method Unit) (command : Command) (jsonObject : JSONObject)
    (d : Device) : Prop where
  once : ∃ response, replies method d = [response] ∧ writes method d = [getBytes (gson.toJson response)]
  refused : command = .addWifi ∨ command = .updateWifi → ∀ response ∈ replies method d,
    (∃ name ∈ ["ssid", "pwd", "macAddress", "penName", "type"], Missing jsonObject name) → response.code ≠ 0
  ssid : command = .addWifi ∨ command = .updateWifi → ∀ response ∈ replies method d,
    Missing jsonObject "ssid" → ¬ Missing jsonObject "pwd" → response.code = 1
  pwd : command = .addWifi ∨ command = .updateWifi → ∀ response ∈ replies method d,
    Missing jsonObject "pwd" → response.code = 2

/-- The requests and lists for which a command is answered. -/
def Answerable (jsonObject : JSONObject) (list : List WifiInfo) : Command → Prop
  | .addWifi => Converts jsonObject
  | .queryWifis => True
  | .deleteWifi => ∃ macAddressArray, jsonObject.getString "macAddressArray" = .ok macAddressArray ∧
      (∀ wifiInfo ∈ list, wifiInfo.macAddress ≠ none) ∧ 2 * matching macAddressArray list ≤ list.length + 1
  | .updateWifi => Converts jsonObject ∧ ∀ wifiInfo, readWifiInfo jsonObject = .ok wifiInfo →
      1 ≤ wifiInfo.type.toInt ∧ wifiInfo.type.toInt ≤ 3 →
        ∀ item ∈ beforeMatch wifiInfo.macAddress list, item.macAddress ≠ none

/-- The call ends in a reply, the fences written or not. -/
def Answers (gson : Gson) (method : Method Unit) (d : Device) : Prop :=
  ∃ d₀ response, (d₀ = d ∨ ∃ list, d₀ = d.save list) ∧ call method d = (.ok (), d₀.reply gson response)

/-- The call ends in an exception before anything was done. -/
def Throws (method : Method Unit) (d : Device) : Prop := ∃ e, call method d = (.error e, d)

section Cases

variable (gson : Gson) (jsonObject : JSONObject) (d : Device)

theorem addWifi_cases :
    (Answerable jsonObject d.file.list .addWifi ∧ Answers gson (addWifi gson jsonObject) d) ∨
    (¬ Answerable jsonObject d.file.list .addWifi ∧ Throws (addWifi gson jsonObject) d) := by
  have hcall := call_addWifi gson jsonObject d
  rcases readWifiInfo_cases jsonObject with ⟨hconv, wifiInfo, hread, -⟩ | ⟨hconv, hread⟩
  · rw [hread] at hcall
    refine Or.inl ⟨hconv, _, _, ?_, hcall⟩
    split_ifs
    · exact Or.inr ⟨_, rfl⟩
    · exact Or.inl rfl
  · rw [hread] at hcall
    exact Or.inr ⟨hconv, _, hcall⟩

theorem deleteWifi_cases :
    (Answerable jsonObject d.file.list .deleteWifi ∧ Answers gson (deleteWifi gson jsonObject) d) ∨
    (¬ Answerable jsonObject d.file.list .deleteWifi ∧ Throws (deleteWifi gson jsonObject) d) := by
  have hcall := call_deleteWifi gson jsonObject d
  cases htext : jsonObject.getString "macAddressArray" with
  | error e =>
    rw [htext] at hcall
    refine Or.inr ⟨?_, e, hcall⟩
    rintro ⟨macAddressArray, h, -⟩
    rw [htext] at h
    cases h
  | ok macAddressArray =>
    rw [htext] at hcall
    rcases needRemoveIndexList_cases macAddressArray d.file.list 0 with ⟨hall, indices, hok, hlen⟩ | ⟨⟨w, hw, hnull⟩, herr⟩
    · simp only [hok] at hcall
      have hiff := removeRounds_ok_iff indices.length 0 d.file.list
      rw [hlen] at hiff hcall
      cases hrounds : removeRounds (matching macAddressArray d.file.list) 0 d.file.list with
      | ok list =>
        simp only [hrounds] at hcall
        have hle := hiff.mp ⟨list, hrounds⟩
        exact Or.inl ⟨⟨macAddressArray, htext, hall, by omega⟩, _, _, Or.inr ⟨list, rfl⟩, hcall⟩
      | error e =>
        simp only [hrounds] at hcall
        refine Or.inr ⟨?_, e, hcall⟩
        rintro ⟨text, htext', -, hle⟩
        obtain rfl := Except.ok.inj (htext.symm.trans htext')
        obtain ⟨list', hlist⟩ := hiff.mpr (Or.inr (by omega))
        rw [hrounds] at hlist
        cases hlist
    · simp only [herr] at hcall
      refine Or.inr ⟨?_, _, hcall⟩
      rintro ⟨text, -, hall, -⟩
      exact hall w hw hnull

theorem updateWifi_cases :
    (Answerable jsonObject d.file.list .updateWifi ∧ Answers gson (updateWifi gson jsonObject) d) ∨
    (¬ Answerable jsonObject d.file.list .updateWifi ∧ Throws (updateWifi gson jsonObject) d) := by
  have hcall := call_updateWifi gson jsonObject d
  rcases readWifiInfo_cases jsonObject with ⟨hconv, wifiInfo, hread, hssid, hpwd, hmac⟩ | ⟨hconv, hread⟩
  · simp only [hread] at hcall
    have hcode := checkWifiInfo_code hssid hpwd
    by_cases hzero : (checkWifiInfo wifiInfo).code = 0
    · rw [if_pos hzero] at hcall
      rcases updateFirst_cases wifiInfo d.file.list hmac with ⟨hall, ⟨list, _ | _⟩, hr⟩ | ⟨⟨w, hw, hnull⟩, herr⟩
      · rw [hr] at hcall
        refine Or.inl ⟨⟨hconv, ?_⟩, _, _, Or.inl rfl, hcall⟩
        rintro w' hread' -
        rwa [← Except.ok.inj (hread.symm.trans hread')]
      · rw [hr] at hcall
        refine Or.inl ⟨⟨hconv, ?_⟩, _, _, Or.inr ⟨list, rfl⟩, hcall⟩
        rintro w' hread' -
        rwa [← Except.ok.inj (hread.symm.trans hread')]
      · rw [herr] at hcall
        refine Or.inr ⟨?_, _, hcall⟩
        rintro ⟨-, hall⟩
        exact hall wifiInfo hread (hcode.mp hzero) w hw hnull
    · rw [if_neg hzero] at hcall
      refine Or.inl ⟨⟨hconv, ?_⟩, _, _, Or.inl rfl, hcall⟩
      rintro w' hread' htype
      obtain rfl := Except.ok.inj (hread.symm.trans hread')
      exact absurd (hcode.mpr htype) hzero
  · rw [hread] at hcall
    refine Or.inr ⟨?_, _, hcall⟩
    rintro ⟨h, -⟩
    exact hconv h

theorem command_cases (command : Command) :
    (Answerable jsonObject d.file.list command ∧ Answers gson (command.run gson jsonObject) d) ∨
    (¬ Answerable jsonObject d.file.list command ∧ Throws (command.run gson jsonObject) d) := by
  cases command with
  | addWifi => exact addWifi_cases gson jsonObject d
  | queryWifis => exact Or.inl ⟨trivial, _, _, Or.inl rfl, call_queryWifis gson d⟩
  | deleteWifi => exact deleteWifi_cases gson jsonObject d
  | updateWifi => exact updateWifi_cases gson jsonObject d

end Cases

/-- `parseData` on an object that names a command is that command, with `JSONException`
caught. -/
theorem call_parseData_command {newJSONObject : NewJSONObject} {readData : JString} {jsonObject : JSONObject}
    {command : Command} (hobject : newJSONObject readData = some jsonObject) (hcmd : Names jsonObject command)
    (gson : Gson) (d : Device) : call (parseData newJSONObject gson readData) d =
      caught (call (command.run gson jsonObject) d) := by
  obtain ⟨cmd, hstring, htext⟩ := hcmd
  rw [call_parseData, hobject]
  simp only
  rw [runObject, call_bind, call_liftM, hstring]
  simp only [htext]

/-- A field that converts is there. -/
theorem not_missing_of_converts {jsonObject : JSONObject} (h : Converts jsonObject) :
    ∀ name ∈ ["ssid", "pwd", "macAddress", "penName", "type"], ¬ Missing jsonObject name := by
  have hstring {name : String} (hs : HasString jsonObject name) : ¬ Missing jsonObject name := by
    intro hm
    rw [HasString, hm] at hs
    cases hs
  have hint {name : String} (hs : HasInt jsonObject name) : ¬ Missing jsonObject name := by
    intro hm
    rw [HasInt, hm] at hs
    cases hs
  simp only [List.forall_mem_cons]
  exact ⟨hstring h.ssid, hstring h.pwd, hstring h.macAddress, hstring h.penName, hint h.type,
    fun _ hname => absurd hname List.not_mem_nil⟩

theorem converts_of_answerable {jsonObject : JSONObject} {list : List WifiInfo} {command : Command}
    (h : Answerable jsonObject list command) (hcommand : command = .addWifi ∨ command = .updateWifi) :
    Converts jsonObject := by
  rcases hcommand with rfl | rfl
  · exact h
  · exact h.1

theorem answeredOnce_iff_answerable {newJSONObject : NewJSONObject} {readData : JString}
    {jsonObject : JSONObject} {command : Command} (hobject : newJSONObject readData = some jsonObject)
    (hcmd : Names jsonObject command) (gson : Gson) {d : Device} (hd : d.connected = true) :
    AnsweredOnce gson (parseData newJSONObject gson readData) command jsonObject d ↔
      Answerable jsonObject d.file.list command := by
  have hparse := call_parseData_command hobject hcmd gson d
  rcases command_cases gson jsonObject d command with ⟨hans, d₀, response, hd₀, hrun⟩ | ⟨hans, e, hrun⟩
  · rw [hrun] at hparse
    have hreplies : replies (parseData newJSONObject gson readData) d = [response] := by
      rw [replies, hparse, caught_snd, handed_reply]
      rcases hd₀ with rfl | ⟨list, rfl⟩
      · exact List.drop_left
      · exact List.drop_left
    have hwrites : writes (parseData newJSONObject gson readData) d = [getBytes (gson.toJson response)] := by
      rw [writes, hparse, caught_snd]
      rcases hd₀ with rfl | ⟨list, rfl⟩
      · exact (congrArg _ (written_reply d₀ gson response hd)).trans List.drop_left
      · exact (congrArg _ (written_reply (d.save list) gson response hd)).trans List.drop_left
    refine iff_of_true ⟨⟨response, hreplies, hwrites⟩, ?_, ?_, ?_⟩ hans
    · rintro hcommand _ - ⟨name, hname, hmissing⟩
      exact absurd hmissing (not_missing_of_converts (converts_of_answerable hans hcommand) name hname)
    · intro hcommand _ _ hmissing
      exact absurd hmissing (not_missing_of_converts (converts_of_answerable hans hcommand) "ssid" (by simp))
    · intro hcommand _ _ hmissing
      exact absurd hmissing (not_missing_of_converts (converts_of_answerable hans hcommand) "pwd" (by simp))
  · refine iff_of_false ?_ hans
    rintro ⟨⟨response, hreplies, -⟩, -⟩
    have hdevice : (call (parseData newJSONObject gson readData) d).2 = d := by
      rw [hparse, caught_snd, hrun]
    rw [replies, hdevice, List.drop_length] at hreplies
    cases hreplies

/-- **A command is answered exactly for these requests and lists.** -/
theorem answeredOnce_iff (newJSONObject : NewJSONObject) (gson : Gson) (readData : JString)
    (jsonObject : JSONObject) (command : Command) (d : Device)
    (hobject : newJSONObject readData = some jsonObject) (hcmd : Names jsonObject command)
    (hd : d.connected = true) :
    AnsweredOnce gson (parseData newJSONObject gson readData) command jsonObject d ↔
      Answerable jsonObject d.file.list command :=
  answeredOnce_iff_answerable hobject hcmd gson hd

theorem answeredOnce_iff_add :
    AnsweredOnce plainGson
        (parseData (parserOf "add_wifi" "12345678" "bb" 3) plainGson (requestText "add_wifi" "12345678" "bb" 3))
        .addWifi (.ofFields (requestFields "add_wifi" "12345678" "bb" 3)) (deviceWith [homeFence]) ↔
      Answerable (.ofFields (requestFields "add_wifi" "12345678" "bb" 3)) [homeFence] .addWifi :=
  answeredOnce_iff _ _ _ _ _ _ (if_pos rfl) ⟨lit "add_wifi", rfl, by decide⟩ rfl

/-- An `add_wifi` with nothing but its `cmd` is not answered. -/
theorem not_answeredOnce_bare_add : ¬ ∀ (newJSONObject : NewJSONObject) (gson : Gson) (readData : JString)
    (jsonObject : JSONObject) (command : Command) (d : Device), newJSONObject readData = some jsonObject →
    Names jsonObject command → d.connected = true →
    AnsweredOnce gson (parseData newJSONObject gson readData) command jsonObject d := by
  intro h
  have hbare := h (fun _ => some (.ofFields [("cmd", textField "add_wifi")]))
    plainGson (lit "\x7b\"cmd\":\"add_wifi\"\x7d") _ .addWifi (deviceWith []) rfl
    ⟨lit "add_wifi", rfl, by decide⟩ rfl
  rw [answeredOnce_iff_answerable rfl ⟨lit "add_wifi", rfl, by decide⟩ _ rfl] at hbare
  exact absurd hbare.ssid (by decide)

end GpsTracker.Bluetooth
