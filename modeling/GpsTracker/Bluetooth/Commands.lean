import GpsTracker.Java.Runtime
import GpsTracker.Java.Text

/-!
# The Bluetooth commands

`ProofDeviceparseData.parseData` answers a JSON command of the phone: it adds,
lists, deletes or updates the stored Wi-Fi fences and sends one reply. It can
also leave without one. `JSONException` is caught, and then nothing is sent;
every other exception leaves `parseData`.

A command runs in `Method`, where an exception keeps what was written to the
file and sent on the link before it. `org.json` is known by what its accessors
return: a JSON object is a map from names to fields, and a field is what
`getString` and `getInt` make of it. The parser is a parameter, and so is gson,
of which only one thing is known: it never prints an empty text.
-/

namespace GpsTracker.Bluetooth

open GpsTracker.Java

/-- A stored fence. The strings are references. -/
structure WifiInfo where
  /-- The network's name. -/
  ssid : Option JString
  /-- The network's password. -/
  pwd : Option JString
  /-- The address the phone names the fence by. -/
  macAddress : Option JString
  /-- The fence's name. -/
  penName : Option JString
  /-- The kind of fence. -/
  type : JInt
  deriving DecidableEq, Repr

/-- The reply to all commands but `query_wifis`. -/
structure BaseResponse where
  /-- Zero when the command succeeded. -/
  code : ℕ
  /-- What went wrong. -/
  message : Option JString
  deriving DecidableEq, Repr

/-- The reply to `query_wifis`. -/
structure QueryWifiResponse where
  /-- Never assigned. -/
  code : ℕ
  /-- The stored fences. -/
  wifiInfos : List WifiInfo
  deriving DecidableEq, Repr

/-- What is handed to gson. -/
inductive Reply where
  /-- A `BaseResponse`. -/
  | base (response : BaseResponse)
  /-- A `QueryWifiResponse`. -/
  | wifis (response : QueryWifiResponse)
  deriving DecidableEq, Repr

/-- The field `code` of a reply. -/
def Reply.code : Reply → ℕ
  | .base response => response.code
  | .wifis response => response.code

/-- `Gson.toJson` on the replies. -/
structure Gson where
  /-- The text of a reply. -/
  toJson : Reply → JString
  /-- An object is printed with its braces. -/
  toJson_ne_nil : ∀ response, toJson response ≠ []

/-- A field of a JSON object: what `getString` and `getInt` convert it to, if they can. -/
structure JSONField where
  /-- What `getString` returns. -/
  asString : Option JString
  /-- What `getInt` returns. -/
  asInt : Option JInt

/-- A `JSONObject`: its fields by name. -/
abbrev JSONObject := JString → Option JSONField

/-- The object with these fields. -/
def JSONObject.ofFields (fields : List (String × JSONField)) : JSONObject := fun name =>
  (fields.find? fun field => lit field.1 = name).map Prod.snd

/-- A field that holds a text, not a number. -/
def textField (s : String) : JSONField := { asString := some (lit s), asInt := none }

/-- A field that holds a number. -/
def intField (i : ℕ) : JSONField := { asString := some (lit (toString i)), asInt := some i }

/-- `getString`: a field that is missing or cannot be converted throws. -/
def JSONObject.getString (jsonObject : JSONObject) (name : String) : Except Exn JString :=
  match (jsonObject (lit name)).bind JSONField.asString with
  | some s => .ok s
  | none => .error .json

/-- `getInt`, likewise. -/
def JSONObject.getInt (jsonObject : JSONObject) (name : String) : Except Exn JInt :=
  match (jsonObject (lit name)).bind JSONField.asInt with
  | some i => .ok i
  | none => .error .json

/-! ### The device -/

/-- The file `wifiInfos.txt`. -/
inductive FenceFile where
  /-- Never written. -/
  | absent
  /-- A completely written list. -/
  | complete (list : List WifiInfo)
  /-- What cannot be read back. -/
  | damaged
  deriving DecidableEq, Repr

/-- What `readWifiInfoObjects` returns for a file. -/
def FenceFile.list : FenceFile → List WifiInfo
  | .absent => []
  | .complete list => list
  | .damaged => []

/-- The device as the commands see it. -/
structure Device where
  /-- The stored fences. -/
  file : FenceFile
  /-- Whether the link is in `STATE_CONNECTED`. -/
  connected : Bool
  /-- The replies handed to `BluetoothUtil.sendMessage`. -/
  handed : List Reply
  /-- What the link was given to write. -/
  written : List (List Byte)

/-- `BluetoothUtil.sendMessage`. -/
def Device.sendMessage (d : Device) (message : JString) : Device :=
  if d.connected = false then d
  else if 0 < message.length then { d with written := d.written ++ [getBytes message] } else d

/-- The device after `BluetoothUtil.getInstance(mContext).sendMessage(gson.toJson(response))`. -/
def Device.reply (gson : Gson) (response : Reply) (d : Device) : Device :=
  { d with handed := d.handed ++ [response] }.sendMessage (gson.toJson response)

/-- The device after a completed `StorageUtil.writeWifiInfoObjects`. -/
def Device.save (list : List WifiInfo) (d : Device) : Device := { d with file := .complete list }

/-- A method on the device. An exception keeps what was done before it. -/
abbrev Method := ExceptT Exn (StateM Device)

/-- `StorageUtil.readWifiInfoObjects`. -/
def readWifiInfoObjects : Method (List WifiInfo) := do return (← get).file.list

/-- `StorageUtil.writeWifiInfoObjects`, when the write succeeds. -/
def writeWifiInfoObjects (list : List WifiInfo) : Method Unit := modify (Device.save list)

/-- The reply of a command. -/
def answer (gson : Gson) (response : Reply) : Method Unit := modify (Device.reply gson response)

/-! ### The commands -/

/-- The fields of `add_wifi` and `update_wifi`, in the order they are read. -/
def readWifiInfo (jsonObject : JSONObject) : Except Exn WifiInfo := do
  let ssid ← jsonObject.getString "ssid"
  let pwd ← jsonObject.getString "pwd"
  let macAddress ← jsonObject.getString "macAddress"
  let penName ← jsonObject.getString "penName"
  let type ← jsonObject.getInt "type"
  return { ssid := some ssid, pwd := some pwd, macAddress := some macAddress, penName := some penName, type := type }

/-- The checks of `add_wifi` and `update_wifi`. -/
def checkWifiInfo (wifiInfo : WifiInfo) : BaseResponse :=
  let response : BaseResponse := { code := 0, message := none }
  let response := if wifiInfo.ssid = none then { code := 1, message := some (lit "Wifi name cannot be empty") }
    else response
  let response := if wifiInfo.pwd = none then
      { code := 2, message := some (lit "Please input password to connect the wifi") }
    else response
  if wifiInfo.type.toInt < 1 ∨ 3 < wifiInfo.type.toInt then { code := 4, message := some (lit "type is invaild") }
  else response

/-- `add_wifi`. -/
def addWifi (gson : Gson) (jsonObject : JSONObject) : Method Unit := do
  let wifiInfo ← readWifiInfo jsonObject
  let response := checkWifiInfo wifiInfo
  if response.code = 0 then do
    let list ← readWifiInfoObjects
    writeWifiInfoObjects (list ++ [wifiInfo])
    answer gson (.base response)
  else answer gson (.base response)

/-- `query_wifis`. -/
def queryWifis (gson : Gson) : Method Unit := do
  let list ← readWifiInfoObjects
  answer gson (.wifis { code := 0, wifiInfos := list })

/-- `s.contains(t)`. -/
def contains (s t : JString) : Bool := decide (t <:+: s)

/-- The indices of the entries whose address the request contains, counted from `i`. -/
def needRemoveIndexList (macAddressArray : JString) : ℕ → List WifiInfo → Except Exn (List ℕ)
  | _, [] => .ok []
  | i, wifiInfo :: list => do
    let macAddress ← deref wifiInfo.macAddress
    let rest ← needRemoveIndexList macAddressArray (i + 1) list
    return if contains macAddressArray macAddress then i :: rest else rest

/-- The loop `for (i = 0; i < needRemoveIndexList.size(); i++) list.remove(i)` with `m`
rounds to go. -/
def removeRounds : ℕ → ℕ → List WifiInfo → Except Exn (List WifiInfo)
  | 0, _, list => .ok list
  | m + 1, i, list => do
    let list ← removeAt list i
    removeRounds m (i + 1) list

/-- The reply to `delete_wifi` when `removed` entries matched. -/
def deleteResponse (removed : ℕ) : BaseResponse :=
  if removed = 0 then { code := 1, message := some (lit "macaddress not exist") }
  else { code := 0, message := some (lit "success") }

/-- `delete_wifi`. -/
def deleteWifi (gson : Gson) (jsonObject : JSONObject) : Method Unit := do
  let macAddressArray ← jsonObject.getString "macAddressArray"
  let list ← readWifiInfoObjects
  let indices ← needRemoveIndexList macAddressArray 0 list
  let list ← removeRounds indices.length 0 list
  writeWifiInfoObjects list
  answer gson (.base (deleteResponse indices.length))

/-- The four assignments to the entry that matches. -/
def WifiInfo.assign (item wifiInfo : WifiInfo) : WifiInfo :=
  { item with ssid := wifiInfo.ssid, pwd := wifiInfo.pwd, penName := wifiInfo.penName, type := wifiInfo.type }

/-- The loop of `update_wifi`: the list, and `macAddressExit`. -/
def updateFirst (wifiInfo : WifiInfo) : List WifiInfo → Except Exn (List WifiInfo × Bool)
  | [] => .ok ([], false)
  | item :: list => do
    let macAddress ← deref item.macAddress
    if some macAddress = wifiInfo.macAddress then return (item.assign wifiInfo :: list, true)
    else do
      let (list, macAddressExit) ← updateFirst wifiInfo list
      return (item :: list, macAddressExit)

/-- `update_wifi`. -/
def updateWifi (gson : Gson) (jsonObject : JSONObject) : Method Unit := do
  let wifiInfo ← readWifiInfo jsonObject
  let response := checkWifiInfo wifiInfo
  if response.code = 0 then do
    let list ← readWifiInfoObjects
    let (list, macAddressExit) ← updateFirst wifiInfo list
    if macAddressExit then do
      writeWifiInfoObjects list
      answer gson (.base { response with message := some (lit "success") })
    else answer gson (.base { code := 3, message := some (lit "macaddress not exist") })
  else answer gson (.base response)

/-- The commands of the `if` chain in `parseData`. -/
inductive Command where
  /-- `add_wifi`. -/
  | addWifi
  /-- `query_wifis`. -/
  | queryWifis
  /-- `delete_wifi`. -/
  | deleteWifi
  /-- `update_wifi`. -/
  | updateWifi
  deriving DecidableEq, Repr

/-- The command a text names. -/
def Command.ofText (cmd : JString) : Option Command :=
  if cmd = lit "add_wifi" then some .addWifi
  else if cmd = lit "query_wifis" then some .queryWifis
  else if cmd = lit "delete_wifi" then some .deleteWifi
  else if cmd = lit "update_wifi" then some .updateWifi
  else none

/-- The object's `cmd` is this command. -/
def Names (jsonObject : JSONObject) (command : Command) : Prop :=
  ∃ cmd, jsonObject.getString "cmd" = .ok cmd ∧ Command.ofText cmd = some command

/-- The branch of a command. -/
def Command.run (gson : Gson) (jsonObject : JSONObject) : Command → Method Unit
  | .addWifi => Bluetooth.addWifi gson jsonObject
  | .queryWifis => Bluetooth.queryWifis gson
  | .deleteWifi => Bluetooth.deleteWifi gson jsonObject
  | .updateWifi => Bluetooth.updateWifi gson jsonObject

/-- The body of the `try` block, once the text is parsed. -/
def runObject (gson : Gson) (jsonObject : JSONObject) : Method Unit := do
  let cmd ← jsonObject.getString "cmd"
  match Command.ofText cmd with
  | some command => command.run gson jsonObject
  | none => return ()

/-- `new JSONObject(readData)`, or `JSONException`. -/
abbrev NewJSONObject := JString → Option JSONObject

/-- `ProofDeviceparseData.parseData`. -/
def parseData (newJSONObject : NewJSONObject) (gson : Gson) (readData : JString) : Method Unit :=
  tryCatch
    (match newJSONObject readData with
    | some jsonObject => runObject gson jsonObject
    | none => throw .json)
    fun e => if e = .json then return () else throw e

/-! ### Running a method -/

/-- A call: how the method is left, and the device it leaves. -/
def call {α : Type} (method : Method α) (d : Device) : Except Exn α × Device := (ExceptT.run method).run d

section Call

variable {α β : Type} (d : Device)

@[simp] theorem file_save (list : List WifiInfo) : (d.save list).file.list = list := rfl

@[simp] theorem handed_save (list : List WifiInfo) : (d.save list).handed = d.handed := rfl

@[simp] theorem written_save (list : List WifiInfo) : (d.save list).written = d.written := rfl

@[simp] theorem connected_save (list : List WifiInfo) : (d.save list).connected = d.connected := rfl

@[simp] theorem file_reply (gson : Gson) (response : Reply) : (d.reply gson response).file = d.file := by
  unfold Device.reply Device.sendMessage
  split_ifs <;> rfl

@[simp] theorem handed_reply (gson : Gson) (response : Reply) :
    (d.reply gson response).handed = d.handed ++ [response] := by
  unfold Device.reply Device.sendMessage
  split_ifs <;> rfl

/-- On a connected link a reply is one write. -/
theorem written_reply (gson : Gson) (response : Reply) (hd : d.connected = true) :
    (d.reply gson response).written = d.written ++ [getBytes (gson.toJson response)] := by
  have hpos := List.length_pos_iff.mpr (gson.toJson_ne_nil response)
  simp only [Device.reply, Device.sendMessage, hd, Bool.true_eq_false, if_false, if_pos hpos]

@[simp] theorem call_pure (a : α) : call (pure a : Method α) d = (.ok a, d) := rfl

@[simp] theorem call_throw (e : Exn) : call (throw e : Method α) d = (.error e, d) := rfl

@[simp] theorem call_liftM (x : Except Exn α) : call (liftM x : Method α) d = (x, d) := by
  cases x <;> rfl

theorem call_bind (x : Method α) (f : α → Method β) : call (x >>= f) d =
    match call x d with
    | (.ok a, d') => call (f a) d'
    | (.error e, d') => (.error e, d') := by
  rw [call, ExceptT.run_bind, StateT.run_bind, call]
  generalize (ExceptT.run x).run d = r
  obtain ⟨r | r, d'⟩ := r <;> rfl

@[simp] theorem call_readWifiInfoObjects : call readWifiInfoObjects d = (.ok d.file.list, d) := rfl

@[simp] theorem call_writeWifiInfoObjects (list : List WifiInfo) :
    call (writeWifiInfoObjects list) d = (.ok (), d.save list) := rfl

@[simp] theorem call_answer (gson : Gson) (response : Reply) :
    call (answer gson response) d = (.ok (), d.reply gson response) := rfl

theorem call_tryCatch (x : Method α) (f : Exn → Method α) : call (tryCatch x f) d =
    match call x d with
    | (.ok a, d') => (.ok a, d')
    | (.error e, d') => call (f e) d' := by
  rw [call, ExceptT.run_tryCatch, StateT.run_bind, call]
  generalize (ExceptT.run x).run d = r
  obtain ⟨r | r, d'⟩ := r <;> rfl

/-- What `catch (JSONException e)` makes of a call. -/
def caught : Except Exn Unit × Device → Except Exn Unit × Device
  | (.error .json, d') => (.ok (), d')
  | r => r

theorem caught_snd (r : Except Exn Unit × Device) : (caught r).2 = r.2 := by
  obtain ⟨e | _, d'⟩ := r
  · cases e <;> rfl
  · rfl

theorem call_parseData (newJSONObject : NewJSONObject) (gson : Gson) (readData : JString) :
    call (parseData newJSONObject gson readData) d =
      match newJSONObject readData with
      | some jsonObject => caught (call (runObject gson jsonObject) d)
      | none => (.ok (), d) := by
  rw [parseData, call_tryCatch]
  cases newJSONObject readData with
  | none => rfl
  | some jsonObject =>
    simp only []
    generalize call (runObject gson jsonObject) d = r
    obtain ⟨e | _, d'⟩ := r
    · cases e <;> rfl
    · rfl

end Call

end GpsTracker.Bluetooth
