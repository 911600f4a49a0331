import GpsTracker.Library.Costs
import GpsTracker.Work.Tracker

/-!
# Reports and checks

A check reports a network when it finds one and only then, and a run of the task ends in
one check at most, also a run of an executor that was shut down. So the reports are as
many as the checks that have found a network, and the checks no more than the runs that
were started (`always_filed`). Both are counts over the whole device.
-/

namespace GpsTracker.Work.Tracker

open GpsTracker.Java GpsTracker.Upload GpsTracker.Bluetooth GpsTracker.Runs Function

/-- The upload reports a network. -/
def byCheck (m : Sent) : Bool :=
  match m.origin with
  | .check _ => true
  | _ => false

/-- The networks that were reported. -/
def reports (s : Tracker) : ℕ := s.sent.countP byCheck

/-- The checks that have found one. -/
def found (s : Tracker) : ℕ := s.checks.countP fun check => !check.failed

/-- Whether a run is in progress. -/
def unfinished : CheckTask → ℕ
  | .ended => 0
  | _ => 1

/-- A report for every check that has found its network, and a run for every check. -/
structure Filed (s : Tracker) : Prop where
  /-- The reports. -/
  reports_eq : s.reports = s.found
  /-- The runs that have ended in a check, and those in progress. -/
  checks_le : s.checks.length + total unfinished s.tasks s.born ≤ s.born
  /-- The numbers that are not given yet. -/
  ended : ∀ t, s.born ≤ t → s.tasks t = .ended

/-- What a step does to the runs and the checks. -/
inductive Filing (s s' : Tracker) : Prop where
  | same (htasks : s'.tasks = s.tasks) (hborn : s'.born = s.born) (hchecks : s'.checks = s.checks)
      (hreports : s'.reports = s.reports)
  | starts (htasks : s'.tasks = update s.tasks s.born .starting) (hborn : s'.born = s.born + 1)
      (hchecks : s'.checks = s.checks) (hreports : s'.reports = s.reports)
  | goesOn (t : ℕ) (task : CheckTask) (hbusy : s.tasks t ≠ .ended) (htasks : s'.tasks = update s.tasks t task)
      (hborn : s'.born = s.born) (hchecks : s'.checks = s.checks) (hreports : s'.reports = s.reports)
  | ends (t : ℕ) (check : Check) (hbusy : s.tasks t ≠ .ended) (htasks : s'.tasks = update s.tasks t .ended)
      (hborn : s'.born = s.born) (hchecks : s'.checks = check :: s.checks)
      (hreports : s'.reports = s.reports + (!check.failed).toNat)

section Filing

variable {valueOf : JDouble → JString} {s s' : Tracker} {a : WorkAction}

theorem reports_step (h : step valueOf s a = some s') :
    s'.reports = s.reports + (s.emitted valueOf a).toList.countP byCheck := by
  rw [reports, sent_step h, List.countP_append]
  rfl

/-- **A run that finds its network reports it as it ends.** -/
theorem filing_step (h : step valueOf s a = some s') : Filing s s' := by
  have hreports := reports_step h
  cases a with
  | check t scan datetime =>
    cases piece_of_step h with
    | closes htask hflag henabled =>
      rw [emitted, htask] at hreports
      exact .goesOn t .ended (by simp [htask]) rfl rfl rfl hreports
    | tries wifiInfo rest htask hopen hfences =>
      rw [emitted, htask, startScan_openWifi_eq] at hreports
      rw [startScan_openWifi_eq]
      exact .goesOn t (.sleeping wifiInfo rest) (by simp [htask]) rfl rfl rfl hreports
    | empty htask hopen hfences =>
      rw [emitted, htask, startScan_openWifi_eq, finish_eq] at hreports
      rw [startScan_openWifi_eq, finish_eq]
      exact .ends t _ (by simp [htask]) rfl rfl rfl hreports
    | reports wifiInfo rest htask hflag =>
      simp only [emitted, htask, hflag, if_true] at hreports
      rw [finish_eq] at hreports ⊢
      exact .ends t _ (by simp [htask]) rfl rfl rfl hreports
    | goesOn old wifiInfo rest htask hflag =>
      simp only [emitted, htask, hflag, Bool.false_eq_true, if_false] at hreports
      exact .goesOn t (.sleeping wifiInfo rest) (by simp [htask]) rfl rfl rfl hreports
    | fails old htask hflag =>
      simp only [emitted, htask, hflag, Bool.false_eq_true, if_false] at hreports
      rw [finish_eq] at hreports ⊢
      exact .ends t _ (by simp [htask]) rfl rfl rfl hreports
  | fix fix datetime =>
    have hnone : (s.emitted valueOf (.fix fix datetime)).toList.countP byCheck = 0 := by
      refine List.countP_eq_zero.mpr fun m hm => ?_
      obtain ⟨listener, loc, -, rfl⟩ := mem_emitted_fix_iff.mp (Option.mem_toList.mp hm)
      exact Bool.false_ne_true
    rw [hnone] at hreports
    obtain ⟨_, ⟨_, rfl⟩ | ⟨_, _, _, rfl⟩⟩ := fix_of_step h
    · exact .same rfl rfl rfl hreports
    · exact .same rfl rfl rfl hreports
  | startRun =>
    obtain ⟨_, hs⟩ := Option.ite_none_right_eq_some.mp h
    obtain rfl := Option.some.inj hs
    exact .starts rfl rfl rfl hreports
  | join name =>
    obtain ⟨_, hs⟩ := Option.ite_none_right_eq_some.mp h
    obtain rfl := Option.some.inj hs
    exact .same rfl rfl rfl hreports
  | changeWifiWordMode | changeGpsWordMode | changeDefalutWordMode | respond | lowper datetime | login datetime
  | leave | receive | store fences =>
    obtain rfl := Option.some.inj h
    exact .same rfl rfl rfl hreports

theorem Filed.init (devid : Option JString) (config : WorkConfig) (wifiEnabled : Bool)
    (network : Option JString) (fences : List WifiInfo) :
    Filed (init devid config wifiEnabled network fences) :=
  ⟨rfl, le_rfl, fun _ _ => rfl⟩

theorem Filed.step (hs : Filed s) (h : step valueOf s a = some s') : Filed s' := by
  have hlt {t : ℕ} (ht : s.tasks t ≠ .ended) : t < s.born := lt_of_not_ge fun hle => ht (hs.ended t hle)
  have hended {t : ℕ} (ht : s.tasks t ≠ .ended) (task : CheckTask) :
      ∀ u, s.born ≤ u → update s.tasks t task u = .ended := by
    intro u hu
    have hne : u ≠ t := ((hlt ht).trans_le hu).ne'
    rw [update_of_ne hne]
    exact hs.ended u hu
  have hbusy {t : ℕ} (ht : s.tasks t ≠ .ended) : unfinished (s.tasks t) = 1 := by
    cases htask : s.tasks t with
    | starting => rfl
    | sleeping wifiInfo rest => rfl
    | ended => exact absurd htask ht
  have hle := hs.checks_le
  cases filing_step h with
  | same htasks hborn hchecks hreports =>
    refine ⟨?_, ?_, ?_⟩
    · rw [hreports, hs.reports_eq, found, found, hchecks]
    · rwa [htasks, hborn, hchecks]
    · rw [htasks, hborn]
      exact hs.ended
  | starts htasks hborn hchecks hreports =>
    refine ⟨?_, ?_, fun t ht => ?_⟩
    · rw [hreports, hs.reports_eq, found, found, hchecks]
    · rw [htasks, hborn, hchecks, total_update_succ]
      simp only [unfinished]
      omega
    · rw [hborn] at ht
      rw [htasks, update_of_ne (Nat.lt_of_succ_le ht).ne']
      exact hs.ended t (Nat.le_of_succ_le ht)
  | goesOn t task ht htasks hborn hchecks hreports =>
    have htotal := total_update unfinished s.tasks (hlt ht) task
    have hone : unfinished task ≤ 1 := by cases task <;> simp [unfinished]
    rw [hbusy ht] at htotal
    refine ⟨?_, ?_, ?_⟩
    · rw [hreports, hs.reports_eq, found, found, hchecks]
    · rw [htasks, hborn, hchecks]
      omega
    · rw [htasks, hborn]
      exact hended ht task
  | ends t check ht htasks hborn hchecks hreports =>
    have htotal := total_update unfinished s.tasks (hlt ht) .ended
    rw [hbusy ht] at htotal
    refine ⟨?_, ?_, ?_⟩
    · rw [hreports, hs.reports_eq, found, found, hchecks, List.countP_cons]
      cases check.failed <;> rfl
    · rw [htasks, hborn, hchecks, List.length_cons]
      simp only [unfinished] at htotal
      omega
    · rw [htasks, hborn]
      exact hended ht .ended

end Filing

/-- **In every run the reports are as many as the checks that have found a network, and the checks no
more than the runs of the task.** -/
theorem always_filed (valueOf : JDouble → JString) (devid : Option JString) (config : WorkConfig)
    (wifiEnabled : Bool) (network : Option JString) (fences : List WifiInfo) (as : List WorkAction) :
    Always (step valueOf) (fun s => s.reports = s.found ∧ s.checks.length ≤ s.born)
      (init devid config wifiEnabled network fences) as := by
  have hfiled : Always (step valueOf) Filed (init devid config wifiEnabled network fences) as :=
    always_of_invariant Filed (fun _ _ _ hs h => hs.step h) as _ (.init devid config wifiEnabled network fences)
  exact hfiled.imp (fun s hs => ⟨hs.reports_eq, (Nat.le_add_right _ _).trans hs.checks_le⟩) as _

end GpsTracker.Work.Tracker
