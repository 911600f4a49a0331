import GpsTracker.Work.Tracker

/-!
# What the uploads carry

The receiver of a frame chooses its parser by the type byte (`getElem?_frame_type`), and
reads a position by the names of its fields. Two slips break this at one place each.

The listener of the GPS mode gives `LocationInfo` the text of the altitude for the
latitude. So the uploaded positions are those of the fixes as long as every fix that
this listener is given has the same text for both (`positions_agree_iff`).

The report of a fence goes out as `WIFI_FAIL_LOCATION`. Every other site ties one
type to one record, so the type byte determines the record as long as no check finds
the flag set (`schema_iff`).
-/

namespace GpsTracker.Work.Tracker

open GpsTracker.Java GpsTracker.Upload GpsTracker.Runs GpsTracker.Bluetooth Function

variable {valueOf : JDouble → JString} {s s' : Tracker} {a : WorkAction}

/-! ### Positions -/

/-- What a listener uploads is the position of its fix. -/
def Agrees (valueOf : JDouble → JString) (m : Sent) : Prop :=
  ∀ listener loc, m.origin = .listener listener loc → ∃ locationInfo, m.upload.payload = .location locationInfo ∧
    locationInfo.lon = valueOf loc.longitude ∧ locationInfo.lat = valueOf loc.latitude

/-- A fix that the listener of the GPS mode is given has one text for altitude and latitude. -/
def Level (valueOf : JDouble → JString) (s : Tracker) : WorkAction → Prop
  | .fix fix _ => s.location.listener = some .gpsMode → ∀ loc, fix = some loc → loc.errorCode = 0 →
      valueOf loc.altitude = valueOf loc.latitude
  | _ => True

/-- What each listener uploads. -/
theorem agrees_onLoacationChange_iff (listener : ProofLocationListener) (devid : Option JString)
    (datetime : JString) (loc : AMapLocation) (network : Option JString) :
    Agrees valueOf ⟨.listener listener loc, listener.onLoacationChange valueOf devid datetime loc, network⟩ ↔
      (listener = .gpsMode → valueOf loc.altitude = valueOf loc.latitude) := by
  constructor
  · rintro h rfl
    obtain ⟨locationInfo, hpayload, _, hlat⟩ := h _ _ rfl
    obtain rfl := Payload.location.inj hpayload
    exact hlat
  · intro h k l horigin
    obtain ⟨rfl, rfl⟩ := Origin.listener.inj horigin
    cases listener with
    | gpsMode => exact ⟨_, rfl, rfl, h rfl⟩
    | fallback => exact ⟨_, rfl, rfl, rfl⟩
    | request => exact ⟨_, rfl, rfl, rfl⟩

theorem agrees_emitted_iff (valueOf : JDouble → JString) (s : Tracker) (a : WorkAction) :
    (∀ m ∈ s.emitted valueOf a, Agrees valueOf m) ↔ Level valueOf s a := by
  cases a with
  | fix fix datetime =>
    rw [Level]
    constructor
    · rintro h hlistener loc rfl herror
      have hgiven : s.location.onLocationChanged (some loc) = some (.gpsMode, loc) :=
        onLocationChanged_eq_some_iff.mpr ⟨hlistener, rfl, herror⟩
      have hagrees := h _ (mem_emitted_fix_iff.mpr ⟨_, _, hgiven, rfl⟩)
      exact (agrees_onLoacationChange_iff .gpsMode s.devid datetime loc s.network).mp hagrees rfl
    · intro h m hm
      obtain ⟨listener, loc, hgiven, rfl⟩ := mem_emitted_fix_iff.mp hm
      obtain ⟨hlistener, hfix, herror⟩ := onLocationChanged_eq_some_iff.mp hgiven
      exact (agrees_onLoacationChange_iff listener s.devid datetime loc s.network).mpr
        fun hmode => h (hlistener.trans (congrArg some hmode)) loc hfix herror
  | check t scan datetime =>
    refine iff_of_true (fun m hm listener loc horigin => ?_) trivial
    obtain ⟨_, _, _, _, rfl⟩ := mem_emitted_check_iff.mp hm
    cases horigin
  | lowper datetime | login datetime =>
    refine iff_of_true (fun m hm listener loc horigin => ?_) trivial
    obtain rfl := Option.some.inj hm
    cases horigin
  | changeWifiWordMode | changeGpsWordMode | changeDefalutWordMode | startRun | respond | join name | leave | receive
  | store fences => exact iff_of_true (fun m hm => by cases hm) trivial

/-- **The listeners upload the positions of their fixes in the runs whose fixes for the GPS mode
are all level, and in no others.** -/
theorem positions_agree_iff (valueOf : JDouble → JString) (devid : Option JString) (config : WorkConfig)
    (wifiEnabled : Bool) (network : Option JString) (fences : List WifiInfo) (as : List WorkAction) :
    Always (step valueOf) (fun s => ∀ m ∈ s.sent, Agrees valueOf m) (init devid config wifiEnabled network fences) as ↔
      Guarded (step valueOf) (Level valueOf) (init devid config wifiEnabled network fences) as := by
  rw [always_sent_iff (Agrees valueOf) as fun _ hm => absurd hm List.not_mem_nil]
  simp only [agrees_emitted_iff]

/-- `String.valueOf` of a positive whole number below ten million: its digits and `.0`. -/
def wholeText (d : JDouble) : JString :=
  lit (toString ((2 ^ 52 + d.toNat % 2 ^ 52) / 2 ^ (1075 - d.toNat / 2 ^ 52)) ++ ".0")

/-- A fix of longitude 113.0, latitude 22.0 and altitude 5.0. -/
def wholeFix : AMapLocation :=
  { longitude := 0x405C400000000000, latitude := 0x4036000000000000, altitude := 0x4014000000000000, errorCode := 0 }

example : [wholeFix.longitude, wholeFix.latitude, wholeFix.altitude].map wholeText =
    [lit "113.0", lit "22.0", lit "5.0"] := by decide

/-- That fix in the GPS mode. -/
theorem not_positions_agree_gps :
    ¬ Always (step wholeText) (fun s => ∀ m ∈ s.sent, Agrees wholeText m)
      (init none { wifiOpenCloseTimeInteval := 30, gpsLoacationTimeInteval := 2 } false none [])
      [.changeGpsWordMode, .fix (some wholeFix) []] := by
  intro h
  obtain ⟨locationInfo, hpayload, _, hlat⟩ := (h.after rfl) _ List.mem_cons_self _ _ rfl
  obtain rfl := Payload.location.inj hpayload
  exact absurd hlat (by decide)

/-! ### Records -/

/-- The type byte says which record a frame carries. -/
structure Schema (s : Tracker) : Prop where
  determined : ∀ m ∈ s.sent, ∀ m' ∈ s.sent, m.upload.typeByte = m'.upload.typeByte →
    m.upload.payload.kind = m'.upload.payload.kind
  wifiFail : ∀ m ∈ s.sent, m.upload.type = .wifiFailLocation → m.upload.payload.kind = .location
  wifiSuccess : ∀ m ∈ s.sent, m.upload.payload.kind = .wifi → m.upload.type = .wifiSuccessLocation
  singalRequest : ∀ m ∈ s.sent, ∀ loc, m.origin = .listener .request loc → m.upload.type = .singalRequestLocation

/-- No check finds the flag set. -/
def NoHit (s : Tracker) : WorkAction → Prop
  | .check t _ _ => ∀ wifiInfo rest, s.tasks t = .sleeping wifiInfo rest → s.isWifiConnected = false
  | _ => True

/-- What each site sends. -/
def Made (m : Sent) : Prop :=
  match m.origin with
  | .check _ => m.upload.type = .wifiFailLocation ∧ m.upload.payload.kind = .wifi
  | .listener .request _ => m.upload.type = .singalRequestLocation ∧ m.upload.payload.kind = .location
  | .listener _ _ => m.upload.type = .wifiFailLocation ∧ m.upload.payload.kind = .location
  | .lowper => m.upload.type = .lowperyLocation ∧ m.upload.payload.kind = .location
  | .login => m.upload.type = .serverLoginRquest ∧ m.upload.payload.kind = .login

/-- What the other sites send with a type. -/
def kindOf : MessageType → PayloadKind
  | .serverLoginRquest => .login
  | _ => .location

theorem typeByte_injective {type type' : MessageType} (h : toByte type.code = toByte type'.code) :
    type = type' := by
  cases type <;> cases type' <;> first | rfl | exact absurd h (by decide)

theorem made_onLoacationChange (valueOf : JDouble → JString) (listener : ProofLocationListener)
    (devid : Option JString) (datetime : JString) (loc : AMapLocation) (network : Option JString) :
    Made ⟨.listener listener loc, listener.onLoacationChange valueOf devid datetime loc, network⟩ := by
  cases listener with
  | gpsMode => exact ⟨rfl, rfl⟩
  | fallback => exact ⟨rfl, rfl⟩
  | request => exact ⟨rfl, rfl⟩

/-- Each step sends what its site sends, a fence only for a check that finds the flag set. -/
theorem made_emitted (valueOf : JDouble → JString) (s : Tracker) (a : WorkAction) {m : Sent}
    (hm : m ∈ s.emitted valueOf a) :
    Made m ∧ (m.upload.payload.kind = .wifi → ¬ NoHit s a) := by
  cases a with
  | check t scan datetime =>
    obtain ⟨wifiInfo, rest, htask, hflag, rfl⟩ := mem_emitted_check_iff.mp hm
    refine ⟨⟨rfl, rfl⟩, fun _ hnohit => ?_⟩
    cases hflag.symm.trans (hnohit wifiInfo rest htask)
  | fix fix datetime =>
    obtain ⟨listener, loc, _, rfl⟩ := mem_emitted_fix_iff.mp hm
    refine ⟨made_onLoacationChange valueOf listener s.devid datetime loc s.network, fun hwifi => ?_⟩
    cases listener <;> cases hwifi
  | lowper datetime | login datetime =>
    obtain rfl := Option.some.inj hm
    refine ⟨⟨rfl, rfl⟩, fun hwifi => ?_⟩
    cases hwifi
  | changeWifiWordMode | changeGpsWordMode | changeDefalutWordMode | startRun | respond | join name | leave | receive
  | store fences => cases hm

/-- A check that finds the flag set sends a fence. -/
theorem noHit_of_emitted (h : ∀ m ∈ s.emitted valueOf a, m.upload.payload.kind ≠ .wifi) : NoHit s a := by
  cases a with
  | check t scan datetime =>
    intro wifiInfo rest htask
    by_contra hflag
    rw [Bool.not_eq_false] at hflag
    exact h _ (mem_emitted_check_iff.mpr ⟨wifiInfo, rest, htask, hflag, rfl⟩) rfl
  | changeWifiWordMode | changeGpsWordMode | changeDefalutWordMode | startRun | respond | fix fix datetime
  | lowper datetime | login datetime | join name | leave | receive | store fences => trivial

/-- Fences apart, the type determines the record. -/
theorem Made.kind_eq {m : Sent} (hm : Made m) (hwifi : m.upload.payload.kind ≠ .wifi) :
    m.upload.payload.kind = kindOf m.upload.type := by
  obtain ⟨origin, upload, network⟩ := m
  cases origin with
  | check wifiInfo => exact absurd hm.2 hwifi
  | listener listener loc =>
    cases listener with
    | gpsMode | fallback | request => exact hm.2.trans (congrArg kindOf hm.1).symm
  | lowper | login => exact hm.2.trans (congrArg kindOf hm.1).symm

/-- A fence is sent with the wrong type. -/
theorem Made.type_eq {m : Sent} (hm : Made m) (hwifi : m.upload.payload.kind = .wifi) :
    m.upload.type = .wifiFailLocation := by
  obtain ⟨origin, upload, network⟩ := m
  cases origin with
  | check wifiInfo => exact hm.1
  | listener listener loc =>
    cases listener with
    | gpsMode | fallback | request => exact absurd (hwifi.symm.trans hm.2) (by decide)
  | lowper | login => exact absurd (hwifi.symm.trans hm.2) (by decide)

/-- Among what the sites send, the type byte determines the record exactly if no fence is sent. -/
theorem schema_iff_no_wifi (hs : ∀ m ∈ s.sent, Made m) :
    Schema s ↔ ∀ m ∈ s.sent, m.upload.payload.kind ≠ .wifi := by
  constructor
  · intro h m hm hwifi
    have hlocation := h.wifiFail m hm ((hs m hm).type_eq hwifi)
    rw [hwifi] at hlocation
    cases hlocation
  · intro h
    constructor
    · intro m hm m' hm' heq
      rw [(hs m hm).kind_eq (h m hm), (hs m' hm').kind_eq (h m' hm'), typeByte_injective heq]
    · intro m hm htype
      rw [(hs m hm).kind_eq (h m hm), htype]
      rfl
    · exact fun m hm hwifi => absurd hwifi (h m hm)
    · intro m hm loc horigin
      have hmade := hs m hm
      rw [Made, horigin] at hmade
      exact hmade.1

/-- **The type byte determines the record in the runs in which no check finds the flag set, and in
no others.** -/
theorem schema_iff (valueOf : JDouble → JString) (devid : Option JString) (config : WorkConfig)
    (wifiEnabled : Bool) (network : Option JString) (fences : List WifiInfo) (as : List WorkAction) :
    Always (step valueOf) Schema (init devid config wifiEnabled network fences) as ↔
      Guarded (step valueOf) NoHit (init devid config wifiEnabled network fences) as := by
  have hmem : ∀ {s s' : Tracker} {a : WorkAction}, step valueOf s a = some s' →
      ∀ m, m ∈ s'.sent ↔ m ∈ s.sent ∨ m ∈ s.emitted valueOf a := fun hstep m => by
    rw [sent_step hstep, List.mem_append, Option.mem_toList]
    rfl
  have hmade : ∀ s a s', (∀ m ∈ s.sent, Made m) → step valueOf s a = some s' → ∀ m ∈ s'.sent, Made m := by
    intro s a s' hs hstep m hm
    obtain hold | hnew := (hmem hstep m).mp hm
    · exact hs m hold
    · exact (made_emitted valueOf s a hnew).1
  refine always_iff_guarded (fun s => ∀ m ∈ s.sent, Made m) (fun s a s' hs _ hstep => hmade s a s' hs hstep)
    (fun s a s' hs hschema hstep => ?_) as _ (fun _ hm => absurd hm List.not_mem_nil)
    ((schema_iff_no_wifi fun _ hm => absurd hm List.not_mem_nil).mpr fun _ hm => absurd hm List.not_mem_nil)
  rw [schema_iff_no_wifi (hmade s a s' hs hstep)]
  rw [schema_iff_no_wifi hs] at hschema
  constructor
  · exact fun h => noHit_of_emitted fun m hm => h m ((hmem hstep m).mpr (.inr hm))
  · intro h m hm hwifi
    obtain hold | hnew := (hmem hstep m).mp hm
    · exact hschema m hold hwifi
    · exact (made_emitted valueOf s a hnew).2 hwifi h

/-- A check finds its network and reports it. -/
theorem not_schema_found :
    ¬ Always (step wholeText) Schema
      (init none { wifiOpenCloseTimeInteval := 30, gpsLoacationTimeInteval := 2 } false none
        [{ ssid := some (lit "home"), pwd := none, macAddress := none, penName := none, type := 1 }])
      [.changeWifiWordMode, .startRun, .check 0 { mWifiList := [], mWifiConfigurations := none } [],
        .join (quoted (some (lit "home"))), .receive, .check 0 { mWifiList := [], mWifiConfigurations := none } []] := by
  intro h
  have hkind := (h.after rfl).wifiFail _ List.mem_cons_self rfl
  cases hkind

end GpsTracker.Work.Tracker
