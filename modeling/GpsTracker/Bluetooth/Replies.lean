import GpsTracker.Bluetooth.Commands

/-!
# Replies

What each command does to the device, one equation a command, and from these
what holds of every text: a command that is not answered with code 0 leaves the
stored fences as they were.
-/

namespace GpsTracker.Bluetooth

open GpsTracker.Java

/-! ### The commands, as equations -/

section Equations

variable (gson : Gson) (jsonObject : JSONObject) (d : Device)

theorem call_addWifi : call (addWifi gson jsonObject) d =
    match readWifiInfo jsonObject with
    | .error e => (.error e, d)
    | .ok wifiInfo =>
      let response := checkWifiInfo wifiInfo
      (.ok (), (if response.code = 0 then d.save (d.file.list ++ [wifiInfo]) else d).reply gson (.base response)) := by
  rw [addWifi, call_bind, call_liftM]
  cases readWifiInfo jsonObject with
  | error e => rfl
  | ok wifiInfo =>
    simp only
    split_ifs
    · rfl
    · rfl

theorem call_queryWifis : call (queryWifis gson) d =
    (.ok (), d.reply gson (.wifis { code := 0, wifiInfos := d.file.list })) := rfl

theorem call_deleteWifi : call (deleteWifi gson jsonObject) d =
    match jsonObject.getString "macAddressArray" with
    | .error e => (.error e, d)
    | .ok macAddressArray =>
      match needRemoveIndexList macAddressArray 0 d.file.list with
      | .error e => (.error e, d)
      | .ok indices =>
        match removeRounds indices.length 0 d.file.list with
        | .error e => (.error e, d)
        | .ok list => (.ok (), (d.save list).reply gson (.base (deleteResponse indices.length))) := by
  rw [deleteWifi, call_bind, call_liftM]
  cases jsonObject.getString "macAddressArray" with
  | error e => rfl
  | ok macAddressArray =>
    simp only [call_bind, call_readWifiInfoObjects, call_liftM]
    cases needRemoveIndexList macAddressArray 0 d.file.list with
    | error e => rfl
    | ok indices =>
      simp only
      cases removeRounds indices.length 0 d.file.list with
      | error e => rfl
      | ok list => rfl

theorem call_updateWifi : call (updateWifi gson jsonObject) d =
    match readWifiInfo jsonObject with
    | .error e => (.error e, d)
    | .ok wifiInfo =>
      let response := checkWifiInfo wifiInfo
      if response.code = 0 then
        match updateFirst wifiInfo d.file.list with
        | .error e => (.error e, d)
        | .ok (list, true) =>
          (.ok (), (d.save list).reply gson (.base { response with message := some (lit "success") }))
        | .ok (_, false) =>
          (.ok (), d.reply gson (.base { code := 3, message := some (lit "macaddress not exist") }))
      else (.ok (), d.reply gson (.base response)) := by
  rw [updateWifi, call_bind, call_liftM]
  cases readWifiInfo jsonObject with
  | error e => rfl
  | ok wifiInfo =>
    simp only
    split_ifs with h
    · simp only [call_bind, call_readWifiInfoObjects, call_liftM]
      obtain e | ⟨list, macAddressExit⟩ := updateFirst wifiInfo d.file.list
      · rfl
      · cases macAddressExit <;> rfl
    · rfl

end Equations

/-! ### A rejected command changes nothing -/

/-- The replies a method hands to `BluetoothUtil.sendMessage`. -/
def replies {α : Type} (method : Method α) (d : Device) : List Reply :=
  (call method d).2.handed.drop d.handed.length

/-- The text is an `add_wifi` request for this fence. -/
def AddRequest (newJSONObject : NewJSONObject) (readData : JString) (wifiInfo : WifiInfo) : Prop :=
  ∃ jsonObject, newJSONObject readData = some jsonObject ∧ Names jsonObject .addWifi ∧
    readWifiInfo jsonObject = .ok wifiInfo

/-- All that a call can do to the device, when it may add the fences of `Added`. -/
inductive Effect (gson : Gson) (Added : WifiInfo → Prop) (d : Device) : Device → Prop where
  /-- No reply. -/
  | silent : Effect gson Added d d
  /-- A reply alone. -/
  | answered (response : Reply) : Effect gson Added d (d.reply gson response)
  /-- A fence is added at the end. -/
  | added (wifiInfo : WifiInfo) (h : Added wifiInfo) (hcode : (checkWifiInfo wifiInfo).code = 0) :
    Effect gson Added d ((d.save (d.file.list ++ [wifiInfo])).reply gson (.base (checkWifiInfo wifiInfo)))
  /-- As many entries are removed as matched. -/
  | deleted (removed : ℕ) (list : List WifiInfo) (h : removeRounds removed 0 d.file.list = .ok list) :
    Effect gson Added d ((d.save list).reply gson (.base (deleteResponse removed)))
  /-- The first entry of an address is updated. -/
  | updated (wifiInfo : WifiInfo) (list : List WifiInfo) (h : updateFirst wifiInfo d.file.list = .ok (list, true))
    (hcode : (checkWifiInfo wifiInfo).code = 0) : Effect gson Added d
      ((d.save list).reply gson (.base { checkWifiInfo wifiInfo with message := some (lit "success") }))

theorem deleteResponse_code (removed : ℕ) : (deleteResponse removed).code ≠ 0 ↔ removed = 0 := by
  unfold deleteResponse
  split_ifs with h
  · exact ⟨fun _ => h, fun _ => Nat.one_ne_zero⟩
  · exact ⟨fun h0 => absurd rfl h0, fun h0 => absurd h0 h⟩

theorem effect_addWifi (gson : Gson) {Added : WifiInfo → Prop} {jsonObject : JSONObject}
    (hadded : ∀ wifiInfo, readWifiInfo jsonObject = .ok wifiInfo → Added wifiInfo) (d : Device) :
    Effect gson Added d (call (addWifi gson jsonObject) d).2 := by
  rw [call_addWifi]
  cases hread : readWifiInfo jsonObject with
  | error e => exact .silent
  | ok wifiInfo =>
    simp only
    split_ifs with h
    · exact .added wifiInfo (hadded wifiInfo hread) h
    · exact .answered _

theorem effect_deleteWifi (gson : Gson) (Added : WifiInfo → Prop) (jsonObject : JSONObject) (d : Device) :
    Effect gson Added d (call (deleteWifi gson jsonObject) d).2 := by
  rw [call_deleteWifi]
  cases jsonObject.getString "macAddressArray" with
  | error e => exact .silent
  | ok macAddressArray =>
    simp only
    cases needRemoveIndexList macAddressArray 0 d.file.list with
    | error e => exact .silent
    | ok indices =>
      simp only
      cases hrounds : removeRounds indices.length 0 d.file.list with
      | error e => exact .silent
      | ok list => exact .deleted _ _ hrounds

theorem effect_updateWifi (gson : Gson) (Added : WifiInfo → Prop) (jsonObject : JSONObject) (d : Device) :
    Effect gson Added d (call (updateWifi gson jsonObject) d).2 := by
  rw [call_updateWifi]
  cases readWifiInfo jsonObject with
  | error e => exact .silent
  | ok wifiInfo =>
    simp only
    split_ifs with h
    · cases hloop : updateFirst wifiInfo d.file.list with
      | error e => exact .silent
      | ok r =>
        obtain ⟨list, _ | _⟩ := r
        · exact .answered _
        · exact .updated wifiInfo list hloop h
    · exact .answered _

theorem effect_parseData (newJSONObject : NewJSONObject) (gson : Gson) (readData : JString) (d : Device) :
    Effect gson (AddRequest newJSONObject readData) d (call (parseData newJSONObject gson readData) d).2 := by
  rw [call_parseData]
  cases hobject : newJSONObject readData with
  | none => exact .silent
  | some jsonObject =>
    simp only [caught_snd]
    rw [runObject, call_bind, call_liftM]
    cases hcmd : jsonObject.getString "cmd" with
    | error e => exact .silent
    | ok cmd =>
      simp only
      cases htext : Command.ofText cmd with
      | none => exact .silent
      | some command =>
        cases command with
        | addWifi =>
          exact effect_addWifi gson (fun _ hread => ⟨jsonObject, hobject, ⟨cmd, hcmd, htext⟩, hread⟩) d
        | queryWifis => exact .answered _
        | deleteWifi => exact effect_deleteWifi gson _ jsonObject d
        | updateWifi => exact effect_updateWifi gson _ jsonObject d

/-- **A rejected command changes nothing**: unless `parseData` hands over a reply with code
0, the stored fences are the ones before the call. -/
theorem parseData_rejected (newJSONObject : NewJSONObject) (gson : Gson) (readData : JString) (d : Device)
    (hcode : ∀ response ∈ replies (parseData newJSONObject gson readData) d, response.code ≠ 0) :
    (call (parseData newJSONObject gson readData) d).2.file.list = d.file.list := by
  have heffect := effect_parseData newJSONObject gson readData d
  unfold replies at hcode
  generalize (call (parseData newJSONObject gson readData) d).2 = d' at heffect hcode
  have hreply (list : List WifiInfo) (response : Reply) (h : d' = (d.save list).reply gson response) :
      response.code ≠ 0 := by
    rw [h, handed_reply, handed_save, List.drop_left] at hcode
    exact hcode response (List.mem_singleton_self response)
  cases heffect with
  | silent => rfl
  | answered response => rw [file_reply]
  | added wifiInfo _ hzero => exact absurd hzero (hreply _ _ rfl)
  | deleted removed list hrounds =>
    -- the list is written back on the not-found path too, but no round has run
    rw [(deleteResponse_code removed).mp (hreply _ _ rfl)] at hrounds
    rw [file_reply, file_save]
    exact (Except.ok.inj hrounds).symm
  | updated wifiInfo list _ hzero => exact absurd hzero (hreply _ _ rfl)

/-- A fence, as the phone might have stored it. -/
def homeFence : WifiInfo :=
  { ssid := some (lit "home"), pwd := some (lit "12345678"), macAddress := some (lit "aa"), penName := some (lit "door"),
    type := 3 }

/-- A device on a connected link with these fences. -/
def deviceWith (list : List WifiInfo) : Device :=
  { file := .complete list, connected := true, handed := [], written := [] }

/-- The fields of an `add_wifi` or `update_wifi` request. -/
def requestFields (cmd pwd macAddress : String) (type : ℕ) : List (String × JSONField) :=
  [("cmd", textField cmd), ("ssid", textField "home"), ("pwd", textField pwd), ("macAddress", textField macAddress),
    ("penName", textField "door"), ("type", intField type)]

/-- The text of such a request. -/
def requestText (cmd pwd macAddress : String) (type : ℕ) : JString :=
  lit "\x7b\"cmd\":\"" ++ lit cmd ++ lit "\",\"ssid\":\"home\",\"pwd\":\"" ++ lit pwd ++ lit "\",\"macAddress\":\"" ++
    lit macAddress ++ lit "\",\"penName\":\"door\",\"type\":" ++ lit (toString type) ++ lit "\x7d"

/-- A parser that knows one request. -/
def parserOf (cmd pwd macAddress : String) (type : ℕ) : NewJSONObject := fun readData =>
  if readData = requestText cmd pwd macAddress type then some (.ofFields (requestFields cmd pwd macAddress type))
  else none

/-- A string field as gson prints it: a null is left out. -/
def printString (name : String) : Option JString → List JString
  | none => []
  | some text => [lit ("\"" ++ name ++ "\":\"") ++ text ++ lit "\""]

/-- A number as gson prints it. -/
def printInt (name : String) (i : ℤ) : List JString := [lit ("\"" ++ name ++ "\":" ++ toString i)]

/-- An object as gson prints it. -/
def printObject (fields : List JString) : JString := 0x7b :: (lit ",").intercalate fields ++ [0x7d]

/-- A fence as gson prints it. -/
def printWifiInfo (wifiInfo : WifiInfo) : JString :=
  printObject (printString "ssid" wifiInfo.ssid ++ printString "pwd" wifiInfo.pwd ++
    printString "macAddress" wifiInfo.macAddress ++ printString "penName" wifiInfo.penName ++
    printInt "type" wifiInfo.type.toInt)

/-- What gson prints, for texts that need no escapes. -/
def printReply : Reply → JString
  | .base response => printObject (printInt "code" response.code ++ printString "message" response.message)
  | .wifis response => printObject (printInt "code" response.code ++
      [lit "\"wifiInfos\":[" ++ (lit ",").intercalate (response.wifiInfos.map printWifiInfo) ++ lit "]"])

/-- A gson for texts that need no escapes. -/
def plainGson : Gson where
  toJson := printReply
  toJson_ne_nil := by
    rintro (response | response)
    · exact List.cons_ne_nil _ _
    · exact List.cons_ne_nil _ _

theorem parseData_rejected_type :
    (call (parseData (parserOf "add_wifi" "12345678" "bb" 9) plainGson (requestText "add_wifi" "12345678" "bb" 9))
      (deviceWith [homeFence])).2.file.list = [homeFence] :=
  parseData_rejected _ _ _ _ (by decide)

end GpsTracker.Bluetooth
