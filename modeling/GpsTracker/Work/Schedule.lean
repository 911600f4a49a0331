import GpsTracker.Work.Tracker

/-!
# The schedule of the check task

`changeWifiWordMode` gives the executor a period, from `wifiOpenCloseTimeInteval`
as it is then. The check task changes that number, to 30 minutes when it finds a
network and to 15 when it fails, but nothing reads it until the next change of
mode. The delay of the next run is the period handed to `scheduleAtFixedRate`, which
counts from start to start. So it is the interval that a run leaves only where the
run leaves the interval of the schedule (`follows_iff`): with 30 minutes, after every
failed check it is not.
-/

namespace GpsTracker.Work

open GpsTracker.Java GpsTracker.Runs GpsTracker.Upload

/-- A run of the executor that has come to its end. -/
structure Finished where
  /-- The seconds from its start to the start that the next run is scheduled for. -/
  delay : ℤ
  /-- `wifiOpenCloseTimeInteval` as the run left it. -/
  left : JInt
  deriving DecidableEq, Repr

/-- The device with its schedule. -/
structure Schedule where
  /-- The device. -/
  tracker : Tracker
  /-- The period of the executor's task in seconds, if it has one. -/
  period : Option ℤ
  /-- The runs that have come to their end, the last one first. -/
  finished : List Finished

/-- The period that `scheduleAtFixedRate(..., wifiOpenCloseTimeInteval * 60, SECONDS)` takes; it takes
no period that is not positive. -/
def schedulePeriod (config : WorkConfig) : Option ℤ :=
  let period := (config.wifiOpenCloseTimeInteval * 60).toInt
  if 0 < period then some period else none

namespace Schedule

/-- The device before the first change of mode. -/
def init (tracker : Tracker) : Schedule := ⟨tracker, none, []⟩

/-- The executor notes a run when a piece of it is its last one. -/
def note (s : Schedule) (t : ℕ) (tracker : Tracker) : List Finished :=
  match s.period with
  | some period =>
    if s.tracker.service = .scheduled (some t) ∧ tracker.service = .scheduled none then
      ⟨period, tracker.config.wifiOpenCloseTimeInteval⟩ :: s.finished
    else s.finished
  | none => s.finished

/-- The schedule when an action has taken the device to `tracker`. -/
def advance (s : Schedule) (tracker : Tracker) : WorkAction → Schedule
  | .changeWifiWordMode => { s with tracker := tracker, period := schedulePeriod s.tracker.config }
  | .changeGpsWordMode | .changeDefalutWordMode => { s with tracker := tracker, period := none }
  | .check t _ _ => { s with tracker := tracker, finished := s.note t tracker }
  | _ => { s with tracker := tracker }

/-- The executor starts a run only where it has a task. -/
def starts (s : Schedule) : WorkAction → Bool
  | .startRun => s.period.isSome
  | _ => true

/-- The schedule after an action, if it is possible. -/
def step (valueOf : JDouble → JString) (s : Schedule) (a : WorkAction) : Option Schedule :=
  if s.starts a = true then (s.tracker.step valueOf a).map fun tracker => s.advance tracker a else none

/-- The delay after every run is the interval that it left, in minutes. -/
def Follows (s : Schedule) : Prop := ∀ run ∈ s.finished, run.delay = run.left.toInt * 60

/-! ### One run -/

/-- What the piece of a run leaves is the period, where the run ends with it: nothing changes where the run
closes the Wi-Fi or where the flag is up and no fence is stored; else it is 30 minutes after a connection and
15 after a failure. -/
def Leaves (s : Tracker) (t : ℕ) (period : ℤ) : Prop :=
  match s.tasks t with
  | .starting =>
    if s.isWifiConnected = true ∧ s.wifiEnabled = true then period = s.config.wifiOpenCloseTimeInteval.toInt * 60
    else s.fences = [] → period = if s.isWifiConnected = false then 900 else s.config.wifiOpenCloseTimeInteval.toInt * 60
  | .sleeping _ rest => if s.isWifiConnected = true then period = 1800 else rest = [] → period = 900
  | .ended => True

/-- The executor's run may end with this step, but then it leaves the interval of the schedule. -/
def Keeps (s : Schedule) : WorkAction → Prop
  | .check t _ _ =>
    s.tracker.service = .scheduled (some t) → ∀ period, s.period = some period → Leaves s.tracker t period
  | _ => True

variable {valueOf : JDouble → JString} {s s' : Schedule} {t : ℕ}

/-- A piece of the executor's run: where it ends the run, it leaves this interval. -/
theorem leaves_iff {tracker tracker' : Tracker} {scan : WifiAdmin} {datetime : JString} (period : ℤ)
    (hrun : tracker.service = .scheduled (some t)) (h : tracker.step valueOf (.check t scan datetime) = some tracker') :
    Leaves tracker t period ↔ (tracker'.service = .scheduled none →
      period = tracker'.config.wifiOpenCloseTimeInteval.toInt * 60) := by
  cases Tracker.piece_of_step h with
  | closes htask hflag henabled =>
    rw [Leaves, htask]
    simp [hflag, henabled, Tracker.endTask, Tracker.closeWifi, hrun]
  | tries wifiInfo rest htask hopen hfences =>
    rw [Leaves, htask, Tracker.startScan_openWifi_eq]
    simp [hopen, hfences, Tracker.nextFence, Tracker.addNetwork, Tracker.acted, hrun]
  | empty htask hopen hfences =>
    rw [Leaves, htask, Tracker.startScan_openWifi_eq, Tracker.finish_eq]
    simp only [if_neg hopen, hfences, if_pos hrun, forall_const]
    cases tracker.isWifiConnected <;> simp
  | reports wifiInfo rest htask hflag =>
    rw [Leaves, htask, Tracker.finish_eq]
    simp [hflag, Tracker.report, Tracker.send, Tracker.acted, Tracker.locate, hrun]
  | goesOn old wifiInfo rest htask hflag =>
    rw [Leaves, htask]
    simp [hflag, Tracker.nextFence, Tracker.addNetwork, Tracker.acted, hrun]
  | fails old htask hflag =>
    rw [Leaves, htask, Tracker.finish_eq]
    simp [hflag, hrun]

/-- The runs that a piece adds, each with what it should have as its delay. -/
theorem follows_note_iff {scan : WifiAdmin} {datetime : JString} {tracker' : Tracker} (hs : s.Follows)
    (h : s.tracker.step valueOf (.check t scan datetime) = some tracker') :
    (∀ run ∈ s.note t tracker', run.delay = run.left.toInt * 60) ↔ s.Keeps (.check t scan datetime) := by
  rw [note, Keeps]
  cases hperiod : s.period with
  | none => exact iff_of_true hs fun _ _ hsome => by cases hsome
  | some period =>
    dsimp only
    by_cases hrun : s.tracker.service = .scheduled (some t)
    · have hleaves := leaves_iff period hrun h
      by_cases hend : tracker'.service = .scheduled none
      · have hold : ∀ run ∈ s.finished, run.delay = run.left.toInt * 60 := hs
        rw [if_pos ⟨hrun, hend⟩, List.forall_mem_cons, and_iff_left hold]
        constructor
        · rintro hdelay _ _ ⟨⟩
          exact hleaves.mpr fun _ => hdelay
        · intro hkeeps
          exact hleaves.mp (hkeeps hrun period rfl) hend
      · rw [if_neg fun hboth => hend hboth.2]
        refine iff_of_true hs ?_
        rintro _ _ ⟨⟩
        exact hleaves.mpr fun hnone => absurd hnone hend
    · rw [if_neg fun hboth => hrun hboth.1]
      exact iff_of_true hs fun hsome => absurd hsome hrun

theorem follows_step_iff {a : WorkAction} (hs : s.Follows) (h : step valueOf s a = some s') :
    s'.Follows ↔ s.Keeps a := by
  obtain ⟨-, hstep⟩ := Option.ite_none_right_eq_some.mp h
  obtain ⟨tracker', htracker, rfl⟩ := Option.map_eq_some_iff.mp hstep
  cases a with
  | check t scan datetime => exact follows_note_iff hs htracker
  | _ => exact iff_of_true hs trivial

/-! ### Histories -/

/-- **The delay follows the last result in the histories whose runs all leave the interval of the schedule,
and in no others.** -/
theorem follows_iff (valueOf : JDouble → JString) (tracker : Tracker) (as : List WorkAction) :
    Always (step valueOf) Follows (init tracker) as ↔ Guarded (step valueOf) Keeps (init tracker) as :=
  always_iff_guarded (fun _ => True) (fun _ _ _ _ _ _ => trivial) (fun _ _ _ _ hs hstep => follows_step_iff hs hstep) as _
    trivial (fun _ hrun => by cases hrun)

/-- A device with the default interval and no stored fence: the first check fails and leaves 15 minutes, and
the next one is scheduled after 30. -/
theorem not_follows_failed_check :
    ¬ Always (step fun _ => []) Follows
      (init (Tracker.init none { wifiOpenCloseTimeInteval := 30, gpsLoacationTimeInteval := 2 } false none []))
      [.changeWifiWordMode, .startRun, .check 0 { mWifiList := [], mWifiConfigurations := none } []] := by
  intro h
  have hdelay := (h.after rfl) _ List.mem_cons_self
  exact absurd hdelay (by decide)

end Schedule

end GpsTracker.Work
