import GpsTracker.Work.Tracker

/-!
# The end of a mode

`changeDefalutWordMode` shuts the executor down, destroys the location client and
closes the Wi-Fi. A check task in progress is woken by an interrupt, which its loop
catches. It goes on with the next fence, or with the end of the check, and so it can
add a network, open the Wi-Fi again or start a location session when the mode has
ended.

A check task leaves the device alone exactly if its pieces after the mode change are
`Calm`: each wakes on the last fence, finds the flag down and leaves the count below
the threshold. As long as they are, the Wi-Fi stays closed and there is no location
client (`Settled`), so no listener of an earlier check has anything to upload either.
Where no check is in progress at the mode change there are no such pieces
(`undisturbed_iff`). The mode change is one step against the pieces.
-/

namespace GpsTracker.Work.Tracker

open GpsTracker.Java GpsTracker.Runs GpsTracker.Bluetooth Function

variable {valueOf : JDouble → JString} {s s' : Tracker} {a : WorkAction} {t : ℕ} {scan : WifiAdmin} {datetime : JString}

/-- No check task did anything in the default mode. -/
def Undisturbed (s : Tracker) : Prop := ∀ e ∈ s.acts, e.2 = false

/-- A piece of a check task in the default mode has nothing left to do. -/
def Calm (s : Tracker) : WorkAction → Prop
  | .check t _ _ => s.quiet = true →
      ∃ wifiInfo, s.tasks t = .sleeping wifiInfo [] ∧ s.isWifiConnected = false ∧ ¬ s.AtThreshold
  | _ => True

/-- No check is in progress when the default mode begins. -/
def AllEnded (s : Tracker) : WorkAction → Prop
  | .changeDefalutWordMode => ∀ t, s.tasks t = .ended
  | _ => True

/-! ### What is done -/

/-- What is done is recorded with the mode, so it disturbs in the default mode only. -/
theorem undisturbed_append_iff (hs : s.Undisturbed) {acts : List TaskAct}
    (h : s'.acts = s.acts ++ acts.map fun act => (act, s.quiet)) :
    s'.Undisturbed ↔ (s.quiet = true → acts = []) := by
  rw [Undisturbed, h]
  constructor
  · intro hall hquiet
    refine List.eq_nil_iff_forall_not_mem.mpr fun act hact => ?_
    have hnew := hall (act, s.quiet) (List.mem_append_right _ (List.mem_map_of_mem hact))
    rw [hquiet] at hnew
    cases hnew
  · intro hnil e he
    obtain he | he := List.mem_append.mp he
    · exact hs e he
    · obtain ⟨act, hact, rfl⟩ := List.mem_map.mp he
      refine Bool.eq_false_iff.mpr fun hquiet => ?_
      rw [hnil hquiet] at hact
      cases hact

/-- The session at the end of a check, if it starts one. -/
def fallbackActs (s : Tracker) : List TaskAct := if s.AtThreshold then [.startLocation] else []

theorem acts_finish (s : Tracker) (t : ℕ) (failed : Bool) :
    (s.finish t failed).acts = s.acts ++ s.fallbackActs.map fun act => (act, s.quiet) := by
  rw [finish_eq, fallbackActs]
  dsimp only
  split_ifs
  · rfl
  · exact (List.append_nil _).symm

theorem acts_startScan (s : Tracker) (scan : WifiAdmin) : (s.openWifi.startScan scan).acts =
    s.acts ++ (if s.wifiEnabled = false then [TaskAct.openWifi] else []).map fun act => (act, s.quiet) := by
  rw [startScan_openWifi_eq]
  dsimp only
  split_ifs
  · rfl
  · exact (List.append_nil _).symm

theorem quiet_piece (h : Piece s t scan datetime s') : s'.quiet = s.quiet := by
  cases h with
  | closes => rfl
  | tries =>
    rw [startScan_openWifi_eq]
    rfl
  | empty =>
    rw [startScan_openWifi_eq, finish_eq]
  | reports =>
    rw [finish_eq]
    rfl
  | fails => rw [finish_eq]
  | goesOn => rfl

/-! ### Pieces in the default mode -/

/-- In the default mode the Wi-Fi is closed and there is no location client. -/
def Settled (s : Tracker) : Prop := s.quiet = true → s.wifiEnabled = false ∧ s.location.locationClient = none

theorem Settled.of_eq (hs : s.Settled) (hquiet : s'.quiet = s.quiet) (henabled : s'.wifiEnabled = s.wifiEnabled)
    (hlocation : s'.location = s.location) : s'.Settled := by
  intro h
  rw [henabled, hlocation]
  exact hs (hquiet.symm.trans h)

theorem Settled.of_quiet (hquiet : s.quiet = false) : s.Settled :=
  fun h => absurd (hquiet.symm.trans h) Bool.false_ne_true

/-- A piece disturbs exactly if it is not calm. -/
theorem undisturbed_piece (hs : s.Settled) (hold : s.Undisturbed) (h : Piece s t scan datetime s') :
    s'.Undisturbed ↔ Calm s (.check t scan datetime) := by
  rw [Calm]
  cases h with
  | closes htask hflag henabled =>
    refine iff_of_true hold fun hquiet => ?_
    rw [(hs hquiet).1] at henabled
    cases henabled
  | tries wifiInfo rest htask =>
    have hacts : ((s.openWifi.startScan scan).nextFence t (wifiInfo :: rest)).acts = s.acts ++
        ((if s.wifiEnabled = false then [TaskAct.openWifi] else []) ++
          [TaskAct.addNetwork (scan.createWifiInfo wifiInfo.ssid wifiInfo.pwd wifiInfo.type).1]).map
            fun act => (act, s.quiet) := by
      rw [List.map_append, ← List.append_assoc, ← acts_startScan]
      rw [startScan_openWifi_eq]
      rfl
    rw [undisturbed_append_iff hold hacts]
    refine forall_congr' fun _ => iff_of_false (List.append_ne_nil_of_right_ne_nil _ (List.cons_ne_nil _ _)) ?_
    rintro ⟨w, hw, _⟩
    cases htask.symm.trans hw
  | empty htask =>
    have hacts : ((s.openWifi.startScan scan).finish t true).acts = s.acts ++
        ((if s.wifiEnabled = false then [TaskAct.openWifi] else []) ++ s.fallbackActs).map fun act => (act, s.quiet) := by
      rw [acts_finish, acts_startScan, List.map_append, List.append_assoc, startScan_openWifi_eq]
      rfl
    rw [undisturbed_append_iff hold hacts]
    refine forall_congr' fun hquiet => iff_of_false ?_ ?_
    · rw [if_pos (hs hquiet).1]
      exact List.cons_ne_nil _ _
    · rintro ⟨w, hw, _⟩
      cases htask.symm.trans hw
  | reports wifiInfo rest htask hflag =>
    have hacts : ((s.report wifiInfo datetime).finish t false).acts = s.acts ++
        (.upload (s.fenceUpload wifiInfo datetime) :: (s.report wifiInfo datetime).fallbackActs).map
          fun act => (act, s.quiet) := by
      rw [acts_finish, List.map_cons, List.append_cons]
      rfl
    rw [undisturbed_append_iff hold hacts]
    refine forall_congr' fun _ => iff_of_false (List.cons_ne_nil _ _) ?_
    rintro ⟨w, _, hdown, _⟩
    cases hflag.symm.trans hdown
  | goesOn old wifiInfo rest htask hflag =>
    have hacts : (s.nextFence t (wifiInfo :: rest)).acts = s.acts ++
        [TaskAct.addNetwork (s.wifiAdmin.createWifiInfo wifiInfo.ssid wifiInfo.pwd wifiInfo.type).1].map
          fun act => (act, s.quiet) := rfl
    rw [undisturbed_append_iff hold hacts]
    refine forall_congr' fun _ => iff_of_false (List.cons_ne_nil _ _) ?_
    rintro ⟨w, hw, _⟩
    cases htask.symm.trans hw
  | fails old htask hflag =>
    rw [undisturbed_append_iff hold (acts_finish s t true)]
    refine forall_congr' fun _ => ?_
    rw [fallbackActs, ite_eq_right_iff]
    constructor
    · exact fun hnil => ⟨old, htask, hflag, fun hcount => List.cons_ne_nil _ _ (hnil hcount)⟩
    · rintro ⟨_, _, _, hcount⟩ hcount'
      exact absurd hcount' hcount

/-- A calm piece changes neither the Wi-Fi nor the location client. -/
theorem settled_piece (hs : s.Settled) (hcalm : Calm s (.check t scan datetime))
    (h : Piece s t scan datetime s') :
    s'.Settled := by
  cases hquiet : s.quiet with
  | false => exact .of_quiet ((quiet_piece h).trans hquiet)
  | true =>
    obtain ⟨wifiInfo, htask, hflag, hcount⟩ := hcalm hquiet
    cases h with
    | closes htask' | tries _ _ htask' | empty htask' => cases htask.symm.trans htask'
    | reports _ _ _ hflag' => cases hflag.symm.trans hflag'
    | goesOn _ _ _ htask' => cases htask.symm.trans htask'
    | fails =>
      refine hs.of_eq ?_ ?_ ?_
      · rw [finish_eq]
      · rw [finish_eq]
      · rw [finish_eq, if_neg hcount]

/-! ### Steps -/

/-- A step disturbs exactly if it is not calm, and a calm one leaves the device settled. -/
theorem undisturbed_step (hs : s.Settled) (hold : s.Undisturbed) (h : step valueOf s a = some s') :
    (s'.Undisturbed ↔ Calm s a) ∧ (Calm s a → s'.Settled) := by
  cases a with
  | check t scan datetime =>
    have hpiece := piece_of_step h
    exact ⟨undisturbed_piece hs hold hpiece, fun hcalm => settled_piece hs hcalm hpiece⟩
  | fix fix datetime =>
    obtain ⟨⟨client, hclient, _⟩, ⟨_, rfl⟩ | ⟨listener, loc, _, rfl⟩⟩ := fix_of_step h
    · exact ⟨iff_of_true hold trivial, fun _ => hs⟩
    · have hquiet : s.quiet = false := by
        refine Bool.eq_false_iff.mpr fun hquiet => ?_
        rw [(hs hquiet).2] at hclient
        cases hclient
      refine ⟨iff_of_true ?_ trivial, fun _ => .of_quiet hquiet⟩
      intro e he
      dsimp only at he
      split_ifs at he
      · obtain he | he := List.mem_append.mp he
        · exact hold e he
        · obtain rfl := List.mem_singleton.mp he
          exact hquiet
      · exact hold e he
  | changeDefalutWordMode =>
    obtain rfl := Option.some.inj h
    exact ⟨iff_of_true hold trivial, fun _ _ => ⟨rfl, locationClient_destroyCalls s.location⟩⟩
  | changeWifiWordMode | changeGpsWordMode | respond =>
    obtain rfl := Option.some.inj h
    exact ⟨iff_of_true hold trivial, fun _ => .of_quiet rfl⟩
  | startRun | join name =>
    obtain ⟨_, hstep⟩ := Option.ite_none_right_eq_some.mp h
    obtain rfl := Option.some.inj hstep
    exact ⟨iff_of_true hold trivial, fun _ => hs.of_eq rfl rfl rfl⟩
  | lowper datetime | login datetime | leave | receive | store fences =>
    obtain rfl := Option.some.inj h
    exact ⟨iff_of_true hold trivial, fun _ => hs.of_eq rfl rfl rfl⟩

/-- In the default mode there is no executor, and all checks have ended. -/
def AtRest (s : Tracker) : Prop := s.quiet = true → s.service = .shutdown ∧ ∀ t, s.tasks t = .ended

theorem atRest_step (hs : s.AtRest) (hended : AllEnded s a) (h : step valueOf s a = some s') :
    Calm s a ∧ s'.AtRest := by
  cases a with
  | check t scan datetime =>
    have hquiet : s.quiet = false := by
      refine Bool.eq_false_iff.mpr fun hquiet => ?_
      rw [step, (hs hquiet).2 t] at h
      cases h
    refine ⟨fun hquiet' => absurd (hquiet.symm.trans hquiet') Bool.false_ne_true, fun hquiet' => ?_⟩
    exact absurd ((hquiet.symm.trans (quiet_piece (piece_of_step h)).symm).trans hquiet') Bool.false_ne_true
  | startRun =>
    obtain ⟨hservice, hstep⟩ := Option.ite_none_right_eq_some.mp h
    obtain rfl := Option.some.inj hstep
    refine ⟨trivial, fun hquiet => ?_⟩
    cases hservice.symm.trans (hs hquiet).1
  | fix fix datetime =>
    obtain ⟨_, ⟨_, rfl⟩ | ⟨_, _, _, rfl⟩⟩ := fix_of_step h
    · exact ⟨trivial, hs⟩
    · exact ⟨trivial, hs⟩
  | join name =>
    obtain ⟨_, hstep⟩ := Option.ite_none_right_eq_some.mp h
    obtain rfl := Option.some.inj hstep
    exact ⟨trivial, hs⟩
  | changeDefalutWordMode =>
    obtain rfl := Option.some.inj h
    exact ⟨trivial, fun _ => ⟨rfl, hended⟩⟩
  | changeWifiWordMode | changeGpsWordMode | respond =>
    obtain rfl := Option.some.inj h
    exact ⟨trivial, fun hquiet => absurd hquiet Bool.false_ne_true⟩
  | lowper datetime | login datetime | leave | receive | store fences =>
    obtain rfl := Option.some.inj h
    exact ⟨trivial, hs⟩

/-! ### Runs -/

/-- **No check task does anything in the default mode in the runs whose pieces are all calm, and in
no others; and none does where no check is in progress when the mode is changed.** A piece lies before
`changeDefalutWordMode` or after it, never between its calls. -/
theorem undisturbed_iff (valueOf : JDouble → JString) (devid : Option JString) (config : WorkConfig)
    (wifiEnabled : Bool) (network : Option JString) (fences : List WifiInfo) (as : List WorkAction) :
    (Always (step valueOf) Undisturbed (init devid config wifiEnabled network fences) as ↔
      Guarded (step valueOf) Calm (init devid config wifiEnabled network fences) as) ∧
    (Guarded (step valueOf) AllEnded (init devid config wifiEnabled network fences) as →
      Always (step valueOf) Undisturbed (init devid config wifiEnabled network fences) as) := by
  have hiff : Always (step valueOf) Undisturbed (init devid config wifiEnabled network fences) as ↔
      Guarded (step valueOf) Calm (init devid config wifiEnabled network fences) as := by
    refine always_iff_guarded (fun s => s.Undisturbed → s.Settled) (fun s a s' hs hold hstep hnew => ?_)
      (fun s a s' hs hold hstep => (undisturbed_step (hs hold) hold hstep).1) as
      (init devid config wifiEnabled network fences) (fun _ => .of_quiet rfl) (fun _ he => absurd he List.not_mem_nil)
    obtain ⟨hcalm, hsettled⟩ := undisturbed_step (hs hold) hold hstep
    exact hsettled (hcalm.mp hnew)
  refine ⟨hiff, fun hended => hiff.mpr ?_⟩
  exact Guarded.imp_of_invariant AtRest (fun s a s' hs ha hstep => atRest_step hs ha hstep) as _ nofun hended

/-- The mode is changed when the check waits for the first of two fences. -/
theorem not_undisturbed_woken :
    ¬ Always (step fun _ => []) Undisturbed
      (init none { wifiOpenCloseTimeInteval := 30, gpsLoacationTimeInteval := 2 } false none
        [{ ssid := some (lit "home"), pwd := none, macAddress := none, penName := none, type := 1 },
          { ssid := some (lit "park"), pwd := none, macAddress := none, penName := none, type := 1 }])
      [.changeWifiWordMode, .startRun, .check 0 { mWifiList := [], mWifiConfigurations := none } [],
        .changeDefalutWordMode, .check 0 { mWifiList := [], mWifiConfigurations := none } []] := by
  intro h
  have hact := (h.after rfl) _ (List.mem_append_right _ List.mem_cons_self)
  exact absurd hact (by decide)

end GpsTracker.Work.Tracker
