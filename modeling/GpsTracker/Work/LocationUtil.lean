import GpsTracker.Java.Runtime
import GpsTracker.Library.Calls
import Mathlib.Data.Option.Basic

/-!
# The location singleton

`LocationUtil` has one location client, one option object and one slot for a
listener. A user of it makes a few calls: it gets the instance, which makes the
client and the option if there are none, sets the option and the slot, and starts
the client. `onDestroy` takes the client and the option away; the slot stays as it
is.

The client and the option are made and taken away together, which the structure
keeps as a field. So the calls that dereference them throw together, and the three
sequences of calls that start a session do not throw (`leads_sessionCalls`).
-/

namespace GpsTracker.Work

open GpsTracker.Java

/-- The listeners that are registered. -/
inductive ProofLocationListener where
  /-- Of `ProofWorkModeManager.changeGpsWordMode`. -/
  | gpsMode
  /-- Of `WifiConnectCheckTask.run`. -/
  | fallback
  /-- Of `ResponseServerRequestTask.doInBackground`. -/
  | request
  deriving DecidableEq, Repr

/-- `AMapLocationClientOption`. -/
structure LocationOption where
  /-- The interval in milliseconds, if it was set. -/
  interval : Option JInt
  /-- `setOnceLocation`. -/
  onceLocation : Bool
  deriving DecidableEq, Repr

/-- `AMapLocationClient`. -/
structure LocationClient where
  /-- Whether `setLocationListener` was called. -/
  listening : Bool
  /-- The option it was given. -/
  option : Option LocationOption
  /-- Whether `startLocation` was called. -/
  running : Bool
  deriving DecidableEq, Repr

/-- `LocationUtil`. -/
structure LocationUtil where
  /-- `locationClient`. -/
  locationClient : Option LocationClient
  /-- `locationOption`. -/
  locationOption : Option LocationOption
  /-- `listener`. -/
  listener : Option ProofLocationListener
  /-- There is a client exactly when there is an option. -/
  paired : locationClient.isSome = locationOption.isSome

namespace LocationUtil

/-- The singleton before its first use. -/
def fresh : LocationUtil := { locationClient := none, locationOption := none, listener := none, paired := rfl }

variable (u : LocationUtil)

/-- `init`, and `getInstance`. -/
def init : LocationUtil :=
  match u.locationClient with
  | none =>
    { u with
      locationClient := some { listening := false, option := none, running := false }
      locationOption := some { interval := none, onceLocation := false }
      paired := rfl }
  | some _ => u

/-- `onDestroy`. -/
def onDestroy : LocationUtil :=
  match u.locationClient with
  | some _ => { u with locationClient := none, locationOption := none, paired := rfl }
  | none => u

/-- What the two option methods do: the option is set, and `this` listens to the client. -/
def setOption (set : LocationOption → LocationOption) : Except Exn LocationUtil := do
  let locationOption ← deref u.locationOption
  let locationClient ← deref u.locationClient
  return { u with
    locationOption := some (set locationOption)
    locationClient := some { locationClient with listening := true }
    paired := rfl }

/-- `gpsLocationOption`. -/
def gpsLocationOption (locationInterval : JInt) : Except Exn LocationUtil :=
  u.setOption fun _ => { interval := some (locationInterval * 1000 * 60), onceLocation := false }

/-- `gpsonceLocationOption`. -/
def gpsonceLocationOption : Except Exn LocationUtil :=
  u.setOption fun locationOption => { locationOption with onceLocation := true }

/-- `setProofLocationListener`. -/
def setProofLocationListener (listener : ProofLocationListener) : LocationUtil :=
  { u with listener := some listener }

/-- `startLocation`. -/
def startLocation : Except Exn LocationUtil :=
  match h : u.locationClient with
  | some locationClient =>
    .ok { u with
      locationClient := some { locationClient with option := u.locationOption, running := true }
      paired := by rw [← u.paired, h, Option.isSome_some, Option.isSome_some] }
  | none => .error .nullPointer

/-- The client is started and reports to `this`. -/
def Running : Prop :=
  ∃ locationClient, u.locationClient = some locationClient ∧ locationClient.listening = true ∧
    locationClient.running = true

instance : Decidable u.Running :=
  match h : u.locationClient with
  | none => isFalse fun ⟨_, hc, _⟩ => by rw [h] at hc; cases hc
  | some c => decidable_of_iff (c.listening = true ∧ c.running = true)
      ⟨fun hc => ⟨c, h, hc⟩, fun ⟨_, hc, hrunning⟩ => Option.some.inj (h.symm.trans hc) ▸ hrunning⟩

/-- The client was not started. -/
def Stopped : Prop := ∀ locationClient, u.locationClient = some locationClient → locationClient.running = false

end LocationUtil

/-! ### Calls -/

/-- A call on the singleton. -/
inductive LocationCall where
  /-- `getInstance`. -/
  | getInstance
  /-- `init`. -/
  | init
  /-- `onDestroy`. -/
  | onDestroy
  /-- `gpsLocationOption`. -/
  | gpsLocationOption (locationInterval : JInt)
  /-- `gpsonceLocationOption`. -/
  | gpsonceLocationOption
  /-- `setProofLocationListener`. -/
  | setProofLocationListener (listener : ProofLocationListener)
  /-- `startLocation`. -/
  | startLocation
  deriving DecidableEq, Repr

/-- What a call does. -/
def LocationCall.apply : LocationCall → LocationUtil → Except Exn LocationUtil
  | .getInstance, u => .ok u.init
  | .init, u => .ok u.init
  | .onDestroy, u => .ok u.onDestroy
  | .gpsLocationOption locationInterval, u => u.gpsLocationOption locationInterval
  | .gpsonceLocationOption, u => u.gpsonceLocationOption
  | .setProofLocationListener listener, u => .ok (u.setProofLocationListener listener)
  | .startLocation, u => u.startLocation

/-- Calls one after the other, up to the first that throws. -/
def runCalls : List LocationCall → LocationUtil → LocationUtil := Calls.run LocationCall.apply

/-- The calls that start a session: those of `changeGpsWordMode`, of the fallback of
`WifiConnectCheckTask.run` and of `ResponseServerRequestTask.doInBackground`. -/
def sessionCalls (locationInterval : JInt) : ProofLocationListener → List LocationCall
  | .gpsMode => [.getInstance, .gpsLocationOption locationInterval, .setProofLocationListener .gpsMode, .startLocation]
  | .fallback =>
    [.getInstance, .setProofLocationListener .fallback, .getInstance, .gpsLocationOption locationInterval,
      .getInstance, .startLocation]
  | .request =>
    [.getInstance, .onDestroy, .init, .gpsonceLocationOption, .setProofLocationListener .request, .startLocation]

/-- `LocationUtil.getInstance(mContext).onDestroy()`. -/
def destroyCalls : List LocationCall := [.getInstance, .onDestroy]

/-! ### Sessions -/

/-- A fix that arrives is given to this listener. -/
def Able (u : LocationUtil) (listener : ProofLocationListener) : Prop := u.listener = some listener ∧ u.Running

@[simp] theorem init_listener (u : LocationUtil) : u.init.listener = u.listener := by
  unfold LocationUtil.init
  split <;> rfl

@[simp] theorem onDestroy_listener (u : LocationUtil) : u.onDestroy.listener = u.listener := by
  unfold LocationUtil.onDestroy
  split <;> rfl

@[simp] theorem onDestroy_locationClient (u : LocationUtil) : u.onDestroy.locationClient = none := by
  unfold LocationUtil.onDestroy
  split
  · rfl
  · assumption

theorem init_of_some {u : LocationUtil} {locationClient : LocationClient}
    (h : u.locationClient = some locationClient) :
    u.init = u := by
  unfold LocationUtil.init
  rw [h]

theorem init_locationClient (u : LocationUtil) :
    ∃ locationClient, u.init.locationClient = some locationClient := by
  unfold LocationUtil.init
  split
  · exact ⟨_, rfl⟩
  · exact ⟨_, ‹_›⟩

/-- With a client there is an option to set. -/
theorem setOption_ok {u : LocationUtil} {locationClient : LocationClient}
    (h : u.locationClient = some locationClient)
    (set : LocationOption → LocationOption) : ∃ u', u.setOption set = .ok u' ∧ u'.listener = u.listener ∧
      u'.locationClient = some { locationClient with listening := true } := by
  have hsome : u.locationOption.isSome = true := by rw [← u.paired, h, Option.isSome_some]
  obtain ⟨locationOption, hoption⟩ := Option.isSome_iff_exists.mp hsome
  unfold LocationUtil.setOption
  rw [hoption, h, deref, ok_bind, deref, ok_bind]
  exact ⟨_, rfl, rfl, rfl⟩

theorem startLocation_ok {u : LocationUtil} {locationClient : LocationClient}
    (h : u.locationClient = some locationClient) :
    ∃ u', u.startLocation = .ok u' ∧ u'.listener = u.listener ∧
      u'.locationClient = some { locationClient with option := u.locationOption, running := true } := by
  unfold LocationUtil.startLocation
  split
  · rename_i c hc
    obtain rfl := Option.some.inj (h.symm.trans hc)
    exact ⟨_, rfl, rfl, rfl⟩
  · rename_i hnone
    rw [h] at hnone
    cases hnone

/-- The client listens, so starting it is all that is left. -/
theorem leads_startLocation {u : LocationUtil} {listener : ProofLocationListener}
    {locationClient : LocationClient} (h : u.locationClient = some locationClient)
    (hlistening : locationClient.listening = true)
    (hlistener : u.listener = some listener) : Calls.Leads LocationCall.apply (Able · listener) [.startLocation] u := by
  obtain ⟨u', happly, hsame, hclient⟩ := startLocation_ok h
  exact ⟨u', happly, hsame.trans hlistener, _, hclient, hlistening, rfl⟩

/-- **The calls that start a session do not throw, and a fix is then given to its listener.** -/
theorem leads_sessionCalls (locationInterval : JInt) (listener : ProofLocationListener) (u : LocationUtil) :
    Calls.Leads LocationCall.apply (Able · listener) (sessionCalls locationInterval listener) u := by
  cases listener with
  | gpsMode =>
    obtain ⟨client, hclient⟩ := init_locationClient u
    obtain ⟨u', happly, hsame, hclient'⟩ := setOption_ok hclient fun _ =>
      { interval := some (locationInterval * 1000 * 60), onceLocation := false }
    refine ⟨u.init, rfl, u', happly, u'.setProofLocationListener .gpsMode, rfl, ?_⟩
    exact leads_startLocation (u := u'.setProofLocationListener .gpsMode) hclient' rfl rfl
  | fallback =>
    obtain ⟨client, hclient⟩ := init_locationClient (u.init.setProofLocationListener .fallback)
    obtain ⟨u', happly, hsame, hclient'⟩ := setOption_ok hclient fun _ =>
      { interval := some (locationInterval * 1000 * 60), onceLocation := false }
    refine ⟨u.init, rfl, u.init.setProofLocationListener .fallback, rfl, _, rfl, u', happly, u'.init, rfl, ?_⟩
    rw [init_of_some hclient']
    refine leads_startLocation hclient' rfl (hsame.trans ?_)
    rw [init_listener]
    rfl
  | request =>
    obtain ⟨client, hclient⟩ := init_locationClient u.init.onDestroy
    obtain ⟨u', happly, hsame, hclient'⟩ := setOption_ok hclient fun locationOption =>
      { locationOption with onceLocation := true }
    refine ⟨u.init, rfl, u.init.onDestroy, rfl, u.init.onDestroy.init, rfl, u', happly,
      u'.setProofLocationListener .request, rfl, ?_⟩
    exact leads_startLocation (u := u'.setProofLocationListener .request) hclient' rfl rfl

/-- A call that neither registers a listener nor destroys the client leaves a session able. -/
theorem able_apply {u : LocationUtil} {listener : ProofLocationListener} {c : LocationCall}
    (h : Able u listener) (hdestroy : c ≠ .onDestroy)
    (hregister : ∀ k, c ≠ .setProofLocationListener k) :
    ∃ u', c.apply u = .ok u' ∧ Able u' listener := by
  obtain ⟨hlistener, client, hclient, hlistening, hrunning⟩ := h
  cases c with
  | getInstance | init =>
    exact ⟨u, congrArg Except.ok (init_of_some hclient), hlistener, client, hclient, hlistening, hrunning⟩
  | onDestroy => exact absurd rfl hdestroy
  | gpsLocationOption locationInterval =>
    obtain ⟨u', happly, hsame, hclient'⟩ := setOption_ok hclient fun _ =>
      { interval := some (locationInterval * 1000 * 60), onceLocation := false }
    exact ⟨u', happly, hsame.trans hlistener, _, hclient', rfl, hrunning⟩
  | gpsonceLocationOption =>
    obtain ⟨u', happly, hsame, hclient'⟩ := setOption_ok hclient fun locationOption =>
      { locationOption with onceLocation := true }
    exact ⟨u', happly, hsame.trans hlistener, _, hclient', rfl, hrunning⟩
  | setProofLocationListener k => exact absurd rfl (hregister k)
  | startLocation =>
    obtain ⟨u', happly, hsame, hclient'⟩ := startLocation_ok hclient
    exact ⟨u', happly, hsame.trans hlistener, _, hclient', hlistening, rfl⟩

/-- Without a client there is no option either. -/
theorem setOption_none {u : LocationUtil} (h : u.locationClient = none)
    (set : LocationOption → LocationOption) :
    u.setOption set = .error .nullPointer := by
  have hoption : u.locationOption.isSome = false := by rw [← u.paired, h, Option.isSome_none]
  rw [Option.isSome_eq_false_iff, Option.isNone_iff_eq_none] at hoption
  rw [LocationUtil.setOption, hoption]
  rfl

theorem startLocation_none {u : LocationUtil} (h : u.locationClient = none) :
    u.startLocation = .error .nullPointer := by
  unfold LocationUtil.startLocation
  split
  · rename_i hsome
    cases h.symm.trans hsome
  · rfl

/-- What the option methods leave as it is. -/
theorem setOption_eq_ok {u u' : LocationUtil} {set : LocationOption → LocationOption}
    (h : u.setOption set = .ok u') :
    u'.listener = u.listener ∧ ∃ locationClient, u.locationClient = some locationClient ∧
      u'.locationClient = some { locationClient with listening := true } := by
  cases hclient : u.locationClient with
  | none =>
    rw [setOption_none hclient] at h
    cases h
  | some client =>
    obtain ⟨v, hv, hlistener, hclient'⟩ := setOption_ok hclient set
    obtain rfl := Except.ok.inj (h.symm.trans hv)
    exact ⟨hlistener, client, rfl, hclient'⟩

/-- The client is there when it is started. -/
theorem startLocation_eq_ok {u u' : LocationUtil} (h : u.startLocation = .ok u') :
    u'.listener = u.listener ∧ ∃ locationClient, u.locationClient = some locationClient ∧
      u'.locationClient = some { locationClient with option := u.locationOption, running := true } := by
  cases hclient : u.locationClient with
  | none =>
    rw [startLocation_none hclient] at h
    cases h
  | some client =>
    obtain ⟨v, hv, hlistener, hclient'⟩ := startLocation_ok hclient
    obtain rfl := Except.ok.inj (h.symm.trans hv)
    exact ⟨hlistener, client, rfl, hclient'⟩

/-- Only `setProofLocationListener` changes the listener. -/
theorem listener_apply {u u' : LocationUtil} {c : LocationCall} (h : c.apply u = .ok u')
    (hregister : ∀ k, c ≠ .setProofLocationListener k) : u'.listener = u.listener := by
  cases c with
  | getInstance | init =>
    obtain rfl := Except.ok.inj h
    exact init_listener u
  | onDestroy =>
    obtain rfl := Except.ok.inj h
    exact onDestroy_listener u
  | gpsLocationOption | gpsonceLocationOption => exact (setOption_eq_ok h).1
  | setProofLocationListener k => exact absurd rfl (hregister k)
  | startLocation => exact (startLocation_eq_ok h).1

/-- Only `startLocation` starts the client. -/
theorem stopped_apply {u u' : LocationUtil} {c : LocationCall} (h : c.apply u = .ok u')
    (hstart : c ≠ .startLocation) (hu : u.Stopped) : u'.Stopped := by
  intro client' hclient'
  cases c with
  | getInstance | init =>
    obtain rfl := Except.ok.inj h
    cases hclient : u.locationClient with
    | none =>
      rw [LocationUtil.init, hclient] at hclient'
      obtain rfl := Option.some.inj hclient'
      rfl
    | some client =>
      rw [init_of_some hclient] at hclient'
      exact hu client' hclient'
  | onDestroy =>
    obtain rfl := Except.ok.inj h
    rw [onDestroy_locationClient] at hclient'
    cases hclient'
  | gpsLocationOption | gpsonceLocationOption =>
    obtain ⟨_, client, hclient, hset⟩ := setOption_eq_ok h
    obtain rfl := Option.some.inj (hset.symm.trans hclient')
    exact hu client hclient
  | setProofLocationListener k =>
    obtain rfl := Except.ok.inj h
    exact hu client' hclient'
  | startLocation => exact absurd rfl hstart

theorem locationClient_destroyCalls (u : LocationUtil) : (runCalls destroyCalls u).locationClient = none := by
  have hleads : Calls.Leads LocationCall.apply (·.locationClient = none) destroyCalls u :=
    ⟨u.init, rfl, u.init.onDestroy, rfl, onDestroy_locationClient u.init⟩
  exact hleads.run

end GpsTracker.Work
