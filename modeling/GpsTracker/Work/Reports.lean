import GpsTracker.Work.Tracker

/-!
# The fence that is reported

A check learns that the Wi-Fi is connected from the global flag, and reports the
fence it is waiting for. Nothing says that this is the network that was connected:
an earlier fence can connect late, Android joins networks of its own accord, and the
flag is set by a broadcast, which comes after the fact.

A report is right exactly if the check that makes it wakes on the network of its
fence (`Attributed`). `Punctual` is a condition on the events instead: Android joins
no network but that of the fence whose turn it is, a run starts unconnected, and the
broadcast has come when a check wakes. Then a sleeping check can be connected to no
network but that of its fence (`onTurn_step`), and every report is right
(`reports_named_iff`).
-/

namespace GpsTracker.Work.Tracker

open GpsTracker.Java GpsTracker.Runs GpsTracker.Bluetooth Function

variable {valueOf : JDouble → JString} {s s' : Tracker} {a : WorkAction}

/-- A report of a fence names the network that is connected. -/
def Named (m : Sent) : Prop :=
  ∀ message, m.upload.payload = .wifi message → m.network = some (quoted message.wifiname)

/-- A check that finds the flag set is connected to the network of its fence. -/
def Attributed (s : Tracker) : WorkAction → Prop
  | .check t _ _ => ∀ wifiInfo rest, s.tasks t = .sleeping wifiInfo rest → s.isWifiConnected = true →
      s.network = some (quoted wifiInfo.ssid)
  | _ => True

/-- Connections come in the turn of their fence, and the flag follows them in time. -/
def Punctual (s : Tracker) : WorkAction → Prop
  | .join name => ∀ t wifiInfo rest, s.tasks t = .sleeping wifiInfo rest → name = quoted wifiInfo.ssid
  | .check t _ _ =>
    match s.tasks t with
    | .starting => s.isWifiConnected = true ∧ s.wifiEnabled = true ∨ s.network = none
    | .sleeping _ _ => s.isWifiConnected = s.network.isSome
    | .ended => True
  | _ => True

/-! ### One report -/

theorem named_onLoacationChange (listener : ProofLocationListener) (devid : Option JString) (datetime : JString)
    (loc : AMapLocation) (message : WifiConnectMessage) :
    (listener.onLoacationChange valueOf devid datetime loc).payload ≠ .wifi message := by
  cases listener <;> simp [ProofLocationListener.onLoacationChange]

/-- The reports of a step are right exactly if it is attributed. -/
theorem named_emitted_iff (valueOf : JDouble → JString) (s : Tracker) (a : WorkAction) :
    (∀ m ∈ s.emitted valueOf a, Named m) ↔ Attributed s a := by
  cases a with
  | check t scan datetime =>
    rw [Attributed]
    constructor
    · intro h wifiInfo rest htask hflag
      exact h _ (mem_emitted_check_iff.mpr ⟨wifiInfo, rest, htask, hflag, rfl⟩) _ rfl
    · intro h m hm message hmessage
      obtain ⟨wifiInfo, rest, htask, hflag, rfl⟩ := mem_emitted_check_iff.mp hm
      obtain rfl := Payload.wifi.inj hmessage
      exact h wifiInfo rest htask hflag
  | fix fix datetime =>
    refine iff_of_true (fun m hm message hmessage => ?_) trivial
    obtain ⟨_, _, _, rfl⟩ := mem_emitted_fix_iff.mp hm
    exact absurd hmessage (named_onLoacationChange _ _ _ _ _)
  | lowper datetime | login datetime =>
    refine iff_of_true (fun m hm message hmessage => ?_) trivial
    obtain rfl := Option.some.inj hm
    cases hmessage
  | changeWifiWordMode | changeGpsWordMode | changeDefalutWordMode | startRun | respond | join name | leave | receive
  | store fences => exact iff_of_true (fun m hm => by cases hm) trivial

/-! ### Turns -/

/-- A check that sleeps is connected to the network of its fence, if to any. -/
def OnTurn (s : Tracker) : Prop :=
  ∀ t wifiInfo rest, s.tasks t = .sleeping wifiInfo rest → s.network = none ∨ s.network = some (quoted wifiInfo.ssid)

theorem OnTurn.of_eq (hs : s.OnTurn) (htasks : s'.tasks = s.tasks)
    (hnetwork : s'.network = s.network) : s'.OnTurn := by
  intro t wifiInfo rest ht
  rw [htasks] at ht
  rw [hnetwork]
  exact hs t wifiInfo rest ht

theorem OnTurn.of_none (hnetwork : s.network = none) : s.OnTurn := fun _ _ _ _ => .inl hnetwork

/-- A task that does not sleep is no matter. -/
theorem OnTurn.of_update (hs : s.OnTurn) {t : ℕ} {task : CheckTask} (htasks : s'.tasks = update s.tasks t task)
    (htask : ∀ wifiInfo rest, task ≠ .sleeping wifiInfo rest) (hnetwork : s'.network = s.network) : s'.OnTurn := by
  intro u wifiInfo rest hu
  rw [htasks] at hu
  obtain rfl | hne := eq_or_ne u t
  · rw [update_self] at hu
    exact absurd hu (htask wifiInfo rest)
  · rw [update_of_ne hne] at hu
    rw [hnetwork]
    exact hs u wifiInfo rest hu

theorem onTurn_step (hs : s.OnTurn) (hp : Punctual s a) (h : step valueOf s a = some s') : s'.OnTurn := by
  cases a with
  | check t scan datetime =>
    rw [Punctual] at hp
    cases piece_of_step h with
    | closes htask => exact hs.of_update rfl nofun rfl
    | tries wifiInfo rest htask hopen =>
      rw [htask] at hp
      rw [startScan_openWifi_eq]
      exact .of_none (hp.resolve_left hopen)
    | empty htask =>
      rw [startScan_openWifi_eq, finish_eq]
      exact hs.of_update rfl nofun rfl
    | reports wifiInfo rest htask =>
      rw [finish_eq]
      exact hs.of_update rfl nofun rfl
    | goesOn old wifiInfo rest htask hflag =>
      rw [htask, hflag] at hp
      have hunconnected : s.network.isSome = false := Eq.symm hp
      have hnone : s.network = none := by simpa using hunconnected
      exact .of_none (s := s.nextFence t (wifiInfo :: rest)) hnone
    | fails old htask =>
      rw [finish_eq]
      exact hs.of_update rfl nofun rfl
  | fix fix datetime =>
    obtain ⟨_, ⟨_, rfl⟩ | ⟨_, _, _, rfl⟩⟩ := fix_of_step h
    · exact hs
    · exact hs.of_eq rfl rfl
  | startRun =>
    obtain ⟨_, hstep⟩ := Option.ite_none_right_eq_some.mp h
    obtain rfl := Option.some.inj hstep
    exact hs.of_update rfl nofun rfl
  | join name =>
    obtain ⟨_, hstep⟩ := Option.ite_none_right_eq_some.mp h
    obtain rfl := Option.some.inj hstep
    intro t wifiInfo rest ht
    right
    exact congrArg some (hp t wifiInfo rest ht)
  | leave =>
    obtain rfl := Option.some.inj h
    exact .of_none rfl
  | changeWifiWordMode | changeGpsWordMode | changeDefalutWordMode | respond | lowper datetime | login datetime
  | receive | store fences =>
    obtain rfl := Option.some.inj h
    exact hs.of_eq rfl rfl

/-- On its turn, a check that has heard the broadcast is attributed. -/
theorem attributed_of_punctual (hs : s.OnTurn) (hp : Punctual s a) : Attributed s a := by
  cases a with
  | check t scan datetime =>
    intro wifiInfo rest htask hflag
    rw [Punctual, htask] at hp
    obtain hnone | hsome := hs t wifiInfo rest htask
    · rw [hflag, hnone] at hp
      cases hp
    · exact hsome
  | changeWifiWordMode | changeGpsWordMode | changeDefalutWordMode | startRun | respond | fix loc datetime
  | lowper datetime | login datetime | join name | leave | receive | store fences => trivial

/-! ### Runs -/

section Runs

variable (valueOf : JDouble → JString) (devid : Option JString) (config : WorkConfig) (wifiEnabled : Bool)
  (network : Option JString) (fences : List WifiInfo)

/-- **Every report names the network that is connected in the runs whose checks are all attributed,
and in no others; and it does where connections come in the turn of their fence and the flag
follows in time.** -/
theorem reports_named_iff (as : List WorkAction) :
    (Always (step valueOf) (fun s => ∀ m ∈ s.sent, Named m) (init devid config wifiEnabled network fences) as ↔
      Guarded (step valueOf) Attributed (init devid config wifiEnabled network fences) as) ∧
    (Guarded (step valueOf) Punctual (init devid config wifiEnabled network fences) as →
      Always (step valueOf) (fun s => ∀ m ∈ s.sent, Named m) (init devid config wifiEnabled network fences) as) := by
  have hiff : Always (step valueOf) (fun s => ∀ m ∈ s.sent, Named m) (init devid config wifiEnabled network fences) as ↔
      Guarded (step valueOf) Attributed (init devid config wifiEnabled network fences) as := by
    rw [always_sent_iff Named as fun _ hm => absurd hm List.not_mem_nil]
    simp only [named_emitted_iff]
  refine ⟨hiff, fun hpunctual => hiff.mpr ?_⟩
  exact Guarded.imp_of_invariant OnTurn
    (fun s a s' hs hp hstep => ⟨attributed_of_punctual hs hp, onTurn_step hs hp hstep⟩) as _ nofun hpunctual

end Runs

/-- The first fence connects when the check waits for the second. -/
theorem not_named_late :
    ¬ Always (step fun _ => []) (fun s => ∀ m ∈ s.sent, Named m)
      (init none { wifiOpenCloseTimeInteval := 30, gpsLoacationTimeInteval := 2 } false none
        [{ ssid := some (lit "home"), pwd := none, macAddress := none, penName := none, type := 1 },
          { ssid := some (lit "park"), pwd := none, macAddress := none, penName := none, type := 1 }])
      [.changeWifiWordMode, .startRun, .check 0 { mWifiList := [], mWifiConfigurations := none } [],
        .check 0 { mWifiList := [], mWifiConfigurations := none } [], .join (quoted (some (lit "home"))), .receive,
        .check 0 { mWifiList := [], mWifiConfigurations := none } []] := by
  intro h
  have hreport := (h.after rfl) _ List.mem_cons_self _ rfl
  exact absurd hreport (by decide)

end GpsTracker.Work.Tracker
