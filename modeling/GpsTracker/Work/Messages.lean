import GpsTracker.Upload.Selector
import GpsTracker.Work.LocationUtil

/-!
# What the device uploads

Uploads are made in five classes, each with a message type and a record of its own
choice: the check task reports a fence, the three listeners of `LocationUtil`
report a position, the activity logs in and uploads a position on a button. Each
listener builds its record from texts by position; `onLoacationChange` is the
three of them, as they are written.

A `double` is its bits, and `String.valueOf` of one is a parameter.
-/

namespace GpsTracker.Work

open GpsTracker.Java GpsTracker.Upload

/-- A `double`, by its bits. -/
abbrev JDouble := UInt64

/-- `AMapLocation`. -/
structure AMapLocation where
  /-- `getLongitude`. -/
  longitude : JDouble
  /-- `getLatitude`. -/
  latitude : JDouble
  /-- `getAltitude`. -/
  altitude : JDouble
  /-- `getErrorCode`. -/
  errorCode : JInt
  deriving DecidableEq, Repr

/-- `LocationInfo`. -/
structure LocationInfo where
  /-- `Global.devid`. -/
  devid : Option JString
  /-- The kind of position. -/
  loctype : JString
  /-- The longitude. -/
  lon : JString
  /-- The latitude. -/
  lat : JString
  /-- `createTimeStamp()`. -/
  datetime : JString
  deriving DecidableEq, Repr

/-- `new LocationInfo(lon, lat)`. -/
def newLocationInfo (devid : Option JString) (datetime lon lat : JString) : LocationInfo :=
  { devid := devid, loctype := lit "gps", lon := lon, lat := lat, datetime := datetime }

/-- `WifiConnectMessage`. -/
structure WifiConnectMessage where
  /-- `Global.devid`. -/
  devid : Option JString
  /-- The network's name. -/
  wifiname : Option JString
  /-- The address of the fence. -/
  wifimac : Option JString
  /-- The name of the fence. -/
  wifiinfo : Option JString
  /-- `createTimeStamp()`. -/
  datetime : JString
  deriving DecidableEq, Repr

/-- `new WifiConnectMessage(wifiname, wifimac, wifiinfo)`. -/
def newWifiConnectMessage (devid : Option JString) (datetime : JString)
    (wifiname wifimac wifiinfo : Option JString) :
    WifiConnectMessage :=
  { devid := devid, wifiname := wifiname, wifimac := wifimac, wifiinfo := wifiinfo, datetime := datetime }

/-- `LoginJson`. -/
structure LoginJson where
  /-- `Global.devid`. -/
  devid : Option JString
  /-- `createTimeStamp()`. -/
  datetime : JString
  deriving DecidableEq, Repr

/-- The record of an upload. -/
inductive Payload where
  /-- A position. -/
  | location (locationInfo : LocationInfo)
  /-- A fence. -/
  | wifi (wifiConnectMessage : WifiConnectMessage)
  /-- A login. -/
  | login (loginJson : LoginJson)
  deriving DecidableEq, Repr

/-- The class of the record. -/
inductive PayloadKind where
  /-- `LocationInfo`. -/
  | location
  /-- `WifiConnectMessage`. -/
  | wifi
  /-- `LoginJson`. -/
  | login
  deriving DecidableEq, Repr

/-- The class of a record. -/
def Payload.kind : Payload → PayloadKind
  | .location _ => .location
  | .wifi _ => .wifi
  | .login _ => .login

/-- The arguments of `createUploadData`, the record not yet printed. -/
structure UploadMessage where
  /-- The message type. -/
  type : MessageType
  /-- The record. -/
  payload : Payload
  deriving DecidableEq, Repr

/-- The type byte of its frame. -/
def UploadMessage.typeByte (upload : UploadMessage) : Byte := toByte upload.type.code

/-- Byte 4 of what `createUploadData` returns is the type byte. -/
theorem getElem?_frame_type {md5 : Digest} {r : Draw} {type : JInt} {text : JString}
    {frame channelIdArray : List Byte}
    (h : createUploadData md5 r type text = .ok (frame, channelIdArray)) : frame[4]? = some (toByte type) := by
  rw [createUploadData, creatEncryptKey_eq, ok_bind] at h
  simp only at h
  rw [← cipherBytes, selector, writeUploadFrame_eq _ _ _ _ _ (cipherBytes_ne_nil _ _), ok_bind] at h
  rw [← selector, creatDEncryptKey_selector, ok_bind] at h
  cases hdecrypt : XXTEA.decrypt (XXTEA.encrypt text (drawKey md5 r)) (drawKey md5 r) with
  | error e =>
    rw [hdecrypt] at h
    cases h
  | ok plain =>
    rw [hdecrypt, ok_bind] at h
    cases h
    rfl

/-! ### The listeners -/

variable (valueOf : JDouble → JString) (devid : Option JString) (datetime : JString)

/-- `onLoacationChange` of the listener: the upload it sends. -/
def ProofLocationListener.onLoacationChange (loc : AMapLocation) : ProofLocationListener → UploadMessage
  | .gpsMode =>
    { type := .wifiFailLocation
      payload := .location (newLocationInfo devid datetime (valueOf loc.longitude) (valueOf loc.altitude)) }
  | .fallback =>
    { type := .wifiFailLocation
      payload := .location (newLocationInfo devid datetime (valueOf loc.longitude) (valueOf loc.latitude)) }
  | .request =>
    { type := .singalRequestLocation
      payload := .location (newLocationInfo devid datetime (valueOf loc.longitude) (valueOf loc.latitude)) }

/-- `onLocationChanged` of `LocationUtil`: the listener and the fix it is given. -/
def LocationUtil.onLocationChanged (u : LocationUtil) (loc : Option AMapLocation) :
    Option (ProofLocationListener × AMapLocation) :=
  match loc, u.listener with
  | some loc, some listener => if loc.errorCode = 0 then some (listener, loc) else none
  | _, _ => none

/-- Who is given which fix. -/
theorem onLocationChanged_eq_some_iff {u : LocationUtil} {fix : Option AMapLocation}
    {r : ProofLocationListener × AMapLocation} :
    u.onLocationChanged fix = some r ↔ u.listener = some r.1 ∧ fix = some r.2 ∧ r.2.errorCode = 0 := by
  unfold LocationUtil.onLocationChanged
  cases fix with
  | none => simp
  | some loc =>
    cases u.listener with
    | none => simp
    | some listener =>
      by_cases herror : loc.errorCode = 0
      · simp only [herror, if_true, Option.some.injEq, Prod.ext_iff]
        constructor
        · rintro ⟨rfl, rfl⟩
          exact ⟨rfl, rfl, herror⟩
        · rintro ⟨hlistener, hloc, _⟩
          exact ⟨hlistener, hloc⟩
      · simp only [herror, if_false, Option.some.injEq, reduceCtorEq, false_iff, not_and]
        rintro _ rfl
        exact herror

/-- The position of the button. -/
def lowperUpload : UploadMessage :=
  { type := .lowperyLocation, payload := .location (newLocationInfo devid datetime (lit "113.56") (lit "22.48")) }

/-- The login of `onCreate`. -/
def loginUpload : UploadMessage :=
  { type := .serverLoginRquest, payload := .login { devid := devid, datetime := datetime } }

end GpsTracker.Work
