import GpsTracker.Bluetooth.Commands
import GpsTracker.Library.Runs
import GpsTracker.Work.Messages
import GpsTracker.Work.WifiAdmin
import Mathlib.Logic.Function.Basic

/-!
# The device at work

The device works in one of three modes. In the Wi-Fi mode a scheduled executor
runs the check task: it tries the stored fences one after the other, waits three
seconds for each, and asks a global flag whether the Wi-Fi is connected. The flag is
set by a broadcast receiver. After enough failed checks the task turns to the
location client, which the GPS mode and the requests of the server use too.

A state is everything these share. An action is a mode change, a piece of a run of
the check task between two sleeps, a fix, a request or an upload, or something
Android does by itself. `shutdownNow` keeps an executor from starting another run; a
run in progress is only woken from its sleep, and a piece can come at any time. The
runs have numbers, since one of an executor that was shut down goes on beside those
of the next.

The last four fields record what was done, for the statements.
-/

namespace GpsTracker.Work

open GpsTracker.Java GpsTracker.Upload GpsTracker.Bluetooth Function

/-! ### The state -/

/-- The part of `Config` that the check task reads and writes. -/
structure WorkConfig where
  /-- `wifiOpenCloseTimeInteval`. -/
  wifiOpenCloseTimeInteval : JInt
  /-- `gpsLoacationTimeInteval`. -/
  gpsLoacationTimeInteval : JInt
  deriving DecidableEq, Repr

/-- Where a run of the check task stands. -/
inductive CheckTask where
  /-- Started by the executor. -/
  | starting
  /-- In `Thread.sleep(3000)` for this fence, with these to come. -/
  | sleeping (wifiInfo : WifiInfo) (rest : List WifiInfo)
  /-- Returned. -/
  | ended
  deriving DecidableEq, Repr

/-- `service` of `ProofWorkModeManager`. -/
inductive Service where
  /-- None, or shut down. -/
  | shutdown
  /-- An executor, with its run in progress, if any. -/
  | scheduled (running : Option ℕ)
  deriving DecidableEq, Repr

/-- What a check task does to the rest of the device. -/
inductive TaskAct where
  /-- It opens the Wi-Fi. -/
  | openWifi
  /-- It adds and enables a network. -/
  | addNetwork (configuration : WifiConfiguration)
  /-- It starts a location session. -/
  | startLocation
  /-- It uploads, itself or from its listener. -/
  | upload (upload : UploadMessage)
  deriving DecidableEq, Repr

/-- Where an upload comes from. -/
inductive Origin where
  /-- A check that found the network of this fence. -/
  | check (wifiInfo : WifiInfo)
  /-- A listener with its fix. -/
  | listener (listener : ProofLocationListener) (loc : AMapLocation)
  /-- The button. -/
  | lowper
  /-- `onCreate`. -/
  | login
  deriving DecidableEq, Repr

/-- An upload as it was made. -/
structure Sent where
  /-- Where it comes from. -/
  origin : Origin
  /-- What was uploaded. -/
  upload : UploadMessage
  /-- The network the device was connected to. -/
  network : Option JString
  deriving DecidableEq, Repr

/-- A check that has come to its end. -/
structure Check where
  /-- Whether it found no network. -/
  failed : Bool
  /-- Whether it started the fallback. -/
  fallback : Bool
  deriving DecidableEq, Repr

/-- The device. -/
structure Tracker where
  /-- `Global.devid`. -/
  devid : Option JString
  /-- `Global.isWifiConnected`. -/
  isWifiConnected : Bool
  /-- `Global.config`. -/
  config : WorkConfig
  /-- `WifiConnectCheckTask.count`. -/
  count : JInt
  /-- Whether the Wi-Fi is enabled. -/
  wifiEnabled : Bool
  /-- The network it is connected to, as Android reports its name. -/
  network : Option JString
  /-- What the last scan left. -/
  wifiAdmin : WifiAdmin
  /-- The stored fences. -/
  fences : List WifiInfo
  /-- `LocationUtil`. -/
  location : LocationUtil
  /-- The executor. -/
  service : Service
  /-- The runs of the check task by number. -/
  tasks : ℕ → CheckTask
  /-- How many were started. -/
  born : ℕ
  /-- The uploads. -/
  sent : List Sent
  /-- The checks that have come to their end, the last one first. -/
  checks : List Check
  /-- Whether `changeDefalutWordMode` has returned with no mode change or request since. -/
  quiet : Bool
  /-- What check tasks did, and whether it was quiet. -/
  acts : List (TaskAct × Bool)

/-- `MAX_TRY_CHECK_COUNT`. -/
def maxTryCheckCount : ℤ := 3

namespace Tracker

/-- The device when the app is started. -/
def init (devid : Option JString) (config : WorkConfig) (wifiEnabled : Bool) (network : Option JString)
    (fences : List WifiInfo) : Tracker where
  devid := devid
  isWifiConnected := false
  config := config
  count := 0
  wifiEnabled := wifiEnabled
  network := network
  wifiAdmin := { mWifiList := [], mWifiConfigurations := none }
  fences := fences
  location := .fresh
  service := .shutdown
  tasks _ := .ended
  born := 0
  sent := []
  checks := []
  quiet := false
  acts := []

variable (s : Tracker)

/-! ### The check task -/

/-- A check task does something. -/
def acted (act : TaskAct) : Tracker := { s with acts := s.acts ++ [(act, s.quiet)] }

/-- `sendMessage` of an upload. -/
def send (origin : Origin) (upload : UploadMessage) : Tracker :=
  { s with sent := s.sent ++ [{ origin := origin, upload := upload, network := s.network }] }

/-- `openWifi`. -/
def openWifi : Tracker :=
  if s.wifiEnabled = false then { s with wifiEnabled := true }.acted .openWifi else s

/-- `closeWifi`. -/
def closeWifi : Tracker := { s with wifiEnabled := false }

/-- `startScan`, with what it finds. -/
def startScan (scan : WifiAdmin) : Tracker := { s with wifiAdmin := scan }

/-- `addNetwork(createWifiInfo(...))`. -/
def addNetwork (wifiInfo : WifiInfo) : Tracker :=
  s.acted (.addNetwork (s.wifiAdmin.createWifiInfo wifiInfo.ssid wifiInfo.pwd wifiInfo.type).1)

/-- The calls on the location singleton. -/
def locate (calls : List LocationCall) : Tracker := { s with location := runCalls calls s.location }

/-- A run returns. -/
def endTask (t : ℕ) : Tracker :=
  { s with
    tasks := update s.tasks t .ended
    service := if s.service = .scheduled (some t) then .scheduled none else s.service }

/-- The fallback: `MobileNetUtil` and `startTcpConnect` apart. -/
def startFallback : Tracker :=
  (s.locate (sessionCalls s.config.gpsLoacationTimeInteval .fallback)).acted .startLocation

/-- The interval after a check with the flag down. -/
def adjustInterval : Tracker :=
  { s with
    config := if s.isWifiConnected = false then { s.config with wifiOpenCloseTimeInteval := 15 } else s.config }

/-- `count++`, and the interval. -/
def counted : Tracker := { s with count := s.count + 1 }.adjustInterval

/-- `run` from `count++` on. -/
def finish (t : ℕ) (failed : Bool) : Tracker :=
  if maxTryCheckCount ≤ s.counted.count.toInt then
    { s.counted.startFallback with checks := { failed := failed, fallback := true } :: s.checks }.endTask t
  else { s.counted with checks := { failed := failed, fallback := false } :: s.checks }.endTask t

/-- The upload of the branch that has found the network of a fence. -/
def fenceUpload (wifiInfo : WifiInfo) (datetime : JString) : UploadMessage :=
  { type := .wifiFailLocation
    payload := .wifi (newWifiConnectMessage s.devid datetime wifiInfo.ssid wifiInfo.macAddress wifiInfo.penName) }

/-- That branch. -/
def report (wifiInfo : WifiInfo) (datetime : JString) : Tracker :=
  let s := { s with count := 0, config := { s.config with wifiOpenCloseTimeInteval := 30 } }.locate destroyCalls
  (s.send (.check wifiInfo) (s.fenceUpload wifiInfo datetime)).acted (.upload (s.fenceUpload wifiInfo datetime))

/-- The loop over the fences, up to the next sleep. -/
def nextFence (t : ℕ) : List WifiInfo → Tracker
  | [] => s.finish t true
  | wifiInfo :: rest =>
    let s := s.addNetwork wifiInfo
    { s with tasks := update s.tasks t (.sleeping wifiInfo rest) }

/-- `run` up to its first sleep. -/
def beginCheck (t : ℕ) (scan : WifiAdmin) : Tracker :=
  if s.isWifiConnected = true ∧ s.wifiEnabled = true then s.closeWifi.endTask t
  else (s.openWifi.startScan scan).nextFence t s.fences

/-- `run` from a sleep to the next. -/
def wake (t : ℕ) (wifiInfo : WifiInfo) (rest : List WifiInfo) (datetime : JString) : Tracker :=
  if s.isWifiConnected = true then (s.report wifiInfo datetime).finish t false else s.nextFence t rest

/-! ### Modes -/

/-- `if (service != null) service.shutdownNow()`. -/
def shutdownNow : Tracker := { s with service := .shutdown }

/-- `changeWifiWordMode`. -/
def changeWifiWordMode : Tracker :=
  { s.shutdownNow.locate destroyCalls with service := .scheduled none, quiet := false }

/-- `changeGpsWordMode`. -/
def changeGpsWordMode : Tracker :=
  { s.shutdownNow.locate (sessionCalls s.config.gpsLoacationTimeInteval .gpsMode) with quiet := false }

/-- `changeDefalutWordMode`. -/
def changeDefalutWordMode : Tracker := { (s.shutdownNow.locate destroyCalls).closeWifi with quiet := true }

/-- `ResponseServerRequestTask.doInBackground`. -/
def respond : Tracker :=
  { s.locate (sessionCalls s.config.gpsLoacationTimeInteval .request) with quiet := false }

/-! ### Fixes -/

/-- What a check task's listener uploads is its act. -/
def actedBy (listener : ProofLocationListener) (upload : UploadMessage) : Tracker :=
  if listener = .fallback then s.acted (.upload upload) else s

/-- The client has a fix for `LocationUtil`. -/
def locationChanged (valueOf : JDouble → JString) (loc : Option AMapLocation) (datetime : JString) : Tracker :=
  match s.location.onLocationChanged loc with
  | some (listener, loc) =>
    let upload := listener.onLoacationChange valueOf s.devid datetime loc
    ((s.send (.listener listener loc) upload).actedBy listener upload).locate destroyCalls
  | none => s

end Tracker

/-! ### Steps -/

/-- What can happen. -/
inductive WorkAction where
  /-- `changeWifiWordMode`. -/
  | changeWifiWordMode
  /-- `changeGpsWordMode`. -/
  | changeGpsWordMode
  /-- `changeDefalutWordMode`. -/
  | changeDefalutWordMode
  /-- The executor starts a run. -/
  | startRun
  /-- The next piece of a run, with what a scan finds and the time. -/
  | check (t : ℕ) (scan : WifiAdmin) (datetime : JString)
  /-- A request of the server. -/
  | respond
  /-- The location client has a fix. -/
  | fix (loc : Option AMapLocation) (datetime : JString)
  /-- The button. -/
  | lowper (datetime : JString)
  /-- The login of `onCreate`. -/
  | login (datetime : JString)
  /-- Android connects the Wi-Fi to a network. -/
  | join (name : JString)
  /-- The Wi-Fi is disconnected. -/
  | leave
  /-- `ConnectionChangeReceiver.onReceive`. -/
  | receive
  /-- The phone changes the stored fences. -/
  | store (fences : List WifiInfo)

namespace Tracker

/-- The device after an action, if it is possible. -/
def step (valueOf : JDouble → JString) (s : Tracker) : WorkAction → Option Tracker
  | .changeWifiWordMode => some s.changeWifiWordMode
  | .changeGpsWordMode => some s.changeGpsWordMode
  | .changeDefalutWordMode => some s.changeDefalutWordMode
  | .startRun =>
    if s.service = .scheduled none then
      some { s with tasks := update s.tasks s.born .starting, born := s.born + 1, service := .scheduled (some s.born) }
    else none
  | .check t scan datetime =>
    match s.tasks t with
    | .starting => some (s.beginCheck t scan)
    | .sleeping wifiInfo rest => some (s.wake t wifiInfo rest datetime)
    | .ended => none
  | .respond => some s.respond
  | .fix loc datetime => if s.location.Running then some (s.locationChanged valueOf loc datetime) else none
  | .lowper datetime => some (s.send .lowper (lowperUpload s.devid datetime))
  | .login datetime => some (s.send .login (loginUpload s.devid datetime))
  | .join name => if s.wifiEnabled = true then some { s with network := some name } else none
  | .leave => some { s with network := none }
  | .receive => some { s with isWifiConnected := s.network.isSome }
  | .store fences => some { s with fences := fences }

/-! ### What the pieces do -/

section Pieces

variable {valueOf : JDouble → JString} {s s' : Tracker} {t : ℕ}

/-- The count after a check is the threshold for the fallback. -/
def AtThreshold (s : Tracker) : Prop := maxTryCheckCount ≤ (s.count + 1).toInt

instance (s : Tracker) : Decidable s.AtThreshold := inferInstanceAs (Decidable (_ ≤ _))

/-- All that the end of a check does. -/
theorem finish_eq (s : Tracker) (t : ℕ) (failed : Bool) : s.finish t failed =
    { s with
      config := if s.isWifiConnected = false then { s.config with wifiOpenCloseTimeInteval := 15 } else s.config
      count := s.count + 1
      location := if s.AtThreshold then
        runCalls (sessionCalls s.config.gpsLoacationTimeInteval .fallback) s.location else s.location
      service := if s.service = .scheduled (some t) then .scheduled none else s.service
      tasks := update s.tasks t .ended
      checks := { failed := failed, fallback := decide s.AtThreshold } :: s.checks
      acts := if s.AtThreshold then s.acts ++ [(.startLocation, s.quiet)] else s.acts } := by
  have hinterval : s.counted.config.gpsLoacationTimeInteval = s.config.gpsLoacationTimeInteval := by
    unfold counted adjustInterval
    dsimp only
    split_ifs <;> rfl
  unfold finish
  by_cases h : s.AtThreshold
  · have hcount : maxTryCheckCount ≤ s.counted.count.toInt := h
    rw [if_pos hcount, if_pos h, if_pos h, decide_eq_true h, startFallback, hinterval]
    rfl
  · have hcount : ¬ maxTryCheckCount ≤ s.counted.count.toInt := h
    rw [if_neg hcount, if_neg h, if_neg h, decide_eq_false h]
    rfl

/-- All that opening and scanning the Wi-Fi does. -/
theorem startScan_openWifi_eq (s : Tracker) (scan : WifiAdmin) : s.openWifi.startScan scan =
    { s with
      wifiEnabled := true
      wifiAdmin := scan
      acts := if s.wifiEnabled = false then s.acts ++ [(.openWifi, s.quiet)] else s.acts } := by
  unfold openWifi startScan
  cases h : s.wifiEnabled with
  | false => simp [acted]
  | true => simp [h]

/-- The pieces of a run. -/
inductive Piece (s : Tracker) (t : ℕ) (scan : WifiAdmin) (datetime : JString) : Tracker → Prop where
  | closes (htask : s.tasks t = .starting) (hflag : s.isWifiConnected = true) (henabled : s.wifiEnabled = true) :
      Piece s t scan datetime (s.closeWifi.endTask t)
  | tries (wifiInfo : WifiInfo) (rest : List WifiInfo) (htask : s.tasks t = .starting)
      (hopen : ¬ (s.isWifiConnected = true ∧ s.wifiEnabled = true)) (hfences : s.fences = wifiInfo :: rest) :
      Piece s t scan datetime ((s.openWifi.startScan scan).nextFence t (wifiInfo :: rest))
  | empty (htask : s.tasks t = .starting) (hopen : ¬ (s.isWifiConnected = true ∧ s.wifiEnabled = true))
      (hfences : s.fences = []) : Piece s t scan datetime ((s.openWifi.startScan scan).finish t true)
  | reports (wifiInfo : WifiInfo) (rest : List WifiInfo) (htask : s.tasks t = .sleeping wifiInfo rest)
      (hflag : s.isWifiConnected = true) : Piece s t scan datetime ((s.report wifiInfo datetime).finish t false)
  | goesOn (old wifiInfo : WifiInfo) (rest : List WifiInfo) (htask : s.tasks t = .sleeping old (wifiInfo :: rest))
      (hflag : s.isWifiConnected = false) : Piece s t scan datetime (s.nextFence t (wifiInfo :: rest))
  | fails (old : WifiInfo) (htask : s.tasks t = .sleeping old []) (hflag : s.isWifiConnected = false) :
      Piece s t scan datetime (s.finish t true)

/-- What a piece can do. -/
theorem piece_of_step {scan : WifiAdmin} {datetime : JString}
    (h : step valueOf s (.check t scan datetime) = some s') :
    Piece s t scan datetime s' := by
  rw [step] at h
  split at h
  · rename_i htask
    obtain rfl := Option.some.inj h
    unfold beginCheck
    split_ifs with hopen
    · exact .closes htask hopen.1 hopen.2
    · cases hfences : s.fences with
      | nil => exact .empty htask hopen hfences
      | cons wifiInfo rest => exact .tries wifiInfo rest htask hopen hfences
  · rename_i wifiInfo rest htask
    obtain rfl := Option.some.inj h
    unfold wake
    split_ifs with hflag
    · exact .reports wifiInfo rest htask hflag
    · rw [Bool.not_eq_true] at hflag
      cases rest with
      | nil => exact .fails wifiInfo htask hflag
      | cons next rest => exact .goesOn wifiInfo next rest htask hflag
  · cases h

/-- A fix goes nowhere, or the listener uploads it and the client is destroyed. -/
theorem fix_of_step {fix : Option AMapLocation} {datetime : JString}
    (h : step valueOf s (.fix fix datetime) = some s') :
    s.location.Running ∧ (s.location.onLocationChanged fix = none ∧ s' = s ∨
      ∃ listener loc, s.location.onLocationChanged fix = some (listener, loc) ∧
        s' = { s with
          location := runCalls destroyCalls s.location
          sent := s.sent ++ [⟨.listener listener loc, listener.onLoacationChange valueOf s.devid datetime loc, s.network⟩]
          acts :=
            if listener = .fallback then
              s.acts ++ [(.upload (listener.onLoacationChange valueOf s.devid datetime loc), s.quiet)]
            else s.acts }) := by
  obtain ⟨hrunning, hstep⟩ := Option.ite_none_right_eq_some.mp h
  obtain rfl := Option.some.inj hstep
  refine ⟨hrunning, ?_⟩
  unfold locationChanged
  cases hgiven : s.location.onLocationChanged fix with
  | none => exact .inl ⟨rfl, rfl⟩
  | some r =>
    refine .inr ⟨r.1, r.2, rfl, ?_⟩
    dsimp only
    unfold actedBy
    split_ifs
    · rfl
    · rfl

/-- What an action uploads. -/
def emitted (valueOf : JDouble → JString) (s : Tracker) : WorkAction → Option Sent
  | .check t _ datetime =>
    match s.tasks t with
    | .sleeping wifiInfo _ =>
      if s.isWifiConnected = true then
        some { origin := .check wifiInfo, upload := s.fenceUpload wifiInfo datetime, network := s.network }
      else none
    | _ => none
  | .fix loc datetime =>
    (s.location.onLocationChanged loc).map fun r =>
      { origin := .listener r.1 r.2, upload := r.1.onLoacationChange valueOf s.devid datetime r.2, network := s.network }
  | .lowper datetime => some { origin := .lowper, upload := lowperUpload s.devid datetime, network := s.network }
  | .login datetime => some { origin := .login, upload := loginUpload s.devid datetime, network := s.network }
  | _ => none

theorem mem_emitted_check_iff {scan : WifiAdmin} {datetime : JString} {m : Sent} :
    m ∈ s.emitted valueOf (.check t scan datetime) ↔ ∃ wifiInfo rest, s.tasks t = .sleeping wifiInfo rest ∧
      s.isWifiConnected = true ∧ m = ⟨.check wifiInfo, s.fenceUpload wifiInfo datetime, s.network⟩ := by
  rw [emitted]
  cases s.tasks t with
  | starting => simp
  | ended => simp
  | sleeping wifiInfo rest => cases s.isWifiConnected <;> simp [eq_comm]

theorem mem_emitted_fix_iff {fix : Option AMapLocation} {datetime : JString} {m : Sent} :
    m ∈ s.emitted valueOf (.fix fix datetime) ↔ ∃ listener loc, s.location.onLocationChanged fix = some (listener, loc) ∧
      m = ⟨.listener listener loc, listener.onLoacationChange valueOf s.devid datetime loc, s.network⟩ := by
  rw [emitted, Option.mem_map, Prod.exists]
  simp only [Option.mem_def, eq_comm]

/-- A step uploads this and nothing else. -/
theorem sent_step {a : WorkAction} (h : step valueOf s a = some s') :
    s'.sent = s.sent ++ (s.emitted valueOf a).toList := by
  cases a with
  | check t scan datetime =>
    cases piece_of_step h with
    | closes htask => simp [emitted, htask, endTask, closeWifi]
    | tries wifiInfo rest htask =>
      rw [startScan_openWifi_eq]
      simp [emitted, htask, nextFence, addNetwork, acted]
    | empty htask =>
      rw [startScan_openWifi_eq, finish_eq]
      simp [emitted, htask]
    | reports wifiInfo rest htask hflag =>
      rw [finish_eq]
      simp [emitted, htask, hflag, report, send, acted, locate, fenceUpload]
    | goesOn old wifiInfo rest htask hflag => simp [emitted, htask, hflag, nextFence, addNetwork, acted]
    | fails old htask hflag =>
      rw [finish_eq]
      simp [emitted, htask, hflag]
  | fix fix datetime =>
    obtain ⟨_, ⟨hnone, rfl⟩ | ⟨listener, loc, hgiven, rfl⟩⟩ := fix_of_step h
    · simp [emitted, hnone]
    · simp [emitted, hgiven]
  | startRun | join name =>
    obtain ⟨_, hs⟩ := Option.ite_none_right_eq_some.mp h
    obtain rfl := Option.some.inj hs
    exact (List.append_nil _).symm
  | changeWifiWordMode | changeGpsWordMode | changeDefalutWordMode | respond | leave | receive | store fences =>
    obtain rfl := Option.some.inj h
    exact (List.append_nil _).symm
  | lowper datetime | login datetime =>
    obtain rfl := Option.some.inj h
    rfl

/-- What holds of all uploads of a run holds of what each step uploads. -/
theorem always_sent_iff (Q : Sent → Prop) (as : List WorkAction) (hs : ∀ m ∈ s.sent, Q m) :
    Runs.Always (step valueOf) (fun s => ∀ m ∈ s.sent, Q m) s as ↔
      Runs.Guarded (step valueOf) (fun s a => ∀ m ∈ s.emitted valueOf a, Q m) s as := by
  refine Runs.always_iff_guarded (fun _ => True) (fun _ _ _ _ _ _ => trivial)
    (fun s a s' _ hold hstep => ?_) as s trivial hs
  rw [sent_step hstep]
  constructor
  · intro hall m hm
    exact hall m (List.mem_append_right _ (Option.mem_toList.mpr hm))
  · intro hnew m hm
    obtain hm | hm := List.mem_append.mp hm
    · exact hold m hm
    · exact hnew m (Option.mem_toList.mp hm)

end Pieces

end Tracker

end GpsTracker.Work
