import GpsTracker.Work.Tracker

/-!
# When a check turns to the location client

A check counts itself whether it found a network or not, and one that found a
network sets the count to zero before. So the count is the number of failures in a
row until a check has found a network, and one more from then on
(`count_eq`): after a success the fallback comes one failure early. It is an `int`,
so a row of about 2³¹ failures turns it over.

`Timely` is what is left of the claim on the code: of a check about to fail, that
the count agrees with the row. The runs in which the fallback starts with the third
failure in a row, and with every later one, and with no other check are those
whose steps are all timely (`fallback_consecutive_iff`).
-/

namespace GpsTracker.Work.Tracker

open GpsTracker.Java GpsTracker.Runs GpsTracker.Bluetooth Function

variable {valueOf : JDouble → JString} {s s' : Tracker} {a : WorkAction}

/-- How many checks have failed in a row, up to the last one. -/
def row : List Check → ℕ
  | [] => 0
  | check :: older => if check.failed = true then row older + 1 else 0

/-- What a check that found a network adds to the count, once and for all. -/
def extra : List Check → ℕ
  | [] => 0
  | check :: older => if check.failed = true then extra older else 1

/-- The last check started the fallback exactly if it failed with enough failures in a row. -/
def Consecutive (s : Tracker) : Prop :=
  ∀ check older, s.checks = check :: older →
    (check.fallback = true ↔ check.failed = true ∧ maxTryCheckCount ≤ row s.checks)

/-- The piece comes to the end of a check without a network. -/
def EndsFailed (s : Tracker) : WorkAction → Prop
  | .check t _ _ =>
    match s.tasks t with
    | .starting => ¬ (s.isWifiConnected = true ∧ s.wifiEnabled = true) ∧ s.fences = []
    | .sleeping _ rest => s.isWifiConnected = false ∧ rest = []
    | .ended => False
  | _ => False

/-- A check fails that is not the second in a row after one that found a network, nor one that
turns the count over. -/
def Timely (s : Tracker) (a : WorkAction) : Prop :=
  EndsFailed s a → (row s.checks = 1 → ∀ check ∈ s.checks, check.failed = true) ∧
    (2 ≤ row s.checks → 3 ≤ (row s.checks + 1 + extra s.checks) % 2 ^ 32 ∧
      (row s.checks + 1 + extra s.checks) % 2 ^ 32 < 2 ^ 31)

/-! ### The count -/

theorem extra_le (checks : List Check) : extra checks ≤ 1 := by
  induction checks with
  | nil => exact Nat.zero_le _
  | cons check older ih =>
    rw [extra]
    split
    · exact ih
    · exact le_rfl

theorem extra_eq_zero_iff (checks : List Check) : extra checks = 0 ↔ ∀ check ∈ checks, check.failed = true := by
  induction checks with
  | nil => simp [extra]
  | cons check older ih =>
    rw [extra, List.forall_mem_cons]
    cases hfailed : check.failed with
    | true => simpa using ih
    | false => simp

/-- The count is the row, and one more once a check has found a network. -/
def Counted (s : Tracker) : Prop := s.count = BitVec.ofNat 32 (row s.checks + extra s.checks)

/-- What a step does to the count and the checks. -/
theorem step_checks (h : step valueOf s a = some s') :
    (¬ EndsFailed s a ∧ s'.checks = s.checks ∧ s'.count = s.count) ∨
      (¬ EndsFailed s a ∧ s'.checks = { failed := false, fallback := false } :: s.checks ∧ s'.count = 1) ∨
      (EndsFailed s a ∧ s'.checks = { failed := true, fallback := decide s.AtThreshold } :: s.checks ∧
        s'.count = s.count + 1) := by
  cases a with
  | check t scan datetime =>
    cases piece_of_step h with
    | closes htask hflag henabled =>
      refine .inl ⟨?_, rfl, rfl⟩
      rw [EndsFailed, htask]
      exact fun hends => hends.1 ⟨hflag, henabled⟩
    | tries wifiInfo rest htask hopen hfences =>
      rw [startScan_openWifi_eq]
      refine .inl ⟨?_, rfl, rfl⟩
      rw [EndsFailed, htask, hfences]
      exact fun hends => List.cons_ne_nil _ _ hends.2
    | empty htask hopen hfences =>
      rw [startScan_openWifi_eq, finish_eq]
      refine .inr (.inr ⟨?_, rfl, rfl⟩)
      rw [EndsFailed, htask]
      exact ⟨hopen, hfences⟩
    | reports wifiInfo rest htask hflag =>
      rw [finish_eq]
      refine .inr (.inl ⟨?_, ?_, rfl⟩)
      · rw [EndsFailed, htask]
        intro hends
        rw [hflag] at hends
        cases hends.1
      · rfl
    | goesOn old wifiInfo rest htask hflag =>
      refine .inl ⟨?_, rfl, rfl⟩
      rw [EndsFailed, htask]
      exact fun hends => List.cons_ne_nil _ _ hends.2
    | fails old htask hflag =>
      rw [finish_eq]
      refine .inr (.inr ⟨?_, rfl, rfl⟩)
      rw [EndsFailed, htask]
      exact ⟨hflag, rfl⟩
  | fix loc datetime =>
    obtain ⟨_, ⟨_, rfl⟩ | ⟨_, _, _, rfl⟩⟩ := fix_of_step h
    · exact .inl ⟨id, rfl, rfl⟩
    · exact .inl ⟨id, rfl, rfl⟩
  | startRun | join name =>
    obtain ⟨_, hs⟩ := Option.ite_none_right_eq_some.mp h
    obtain rfl := Option.some.inj hs
    exact .inl ⟨id, rfl, rfl⟩
  | changeWifiWordMode | changeGpsWordMode | changeDefalutWordMode | respond | lowper datetime | login datetime
  | leave | receive | store fences =>
    obtain rfl := Option.some.inj h
    exact .inl ⟨id, rfl, rfl⟩

theorem counted_step (hs : s.Counted) (h : step valueOf s a = some s') : s'.Counted := by
  unfold Counted at hs ⊢
  obtain ⟨_, hchecks, hcount⟩ | ⟨_, hchecks, hcount⟩ | ⟨_, hchecks, hcount⟩ := step_checks h
  · rw [hchecks, hcount, hs]
  · rw [hchecks, hcount]
    rfl
  · rw [hchecks, hcount, hs, row, extra, if_pos rfl, if_pos rfl, Nat.add_right_comm]
    exact (BitVec.ofNat_add _ 1).symm

/-- A count of the right sign and size. -/
theorem threshold_ofNat (n : ℕ) :
    maxTryCheckCount ≤ (BitVec.ofNat 32 n).toInt ↔ 3 ≤ n % 2 ^ 32 ∧ n % 2 ^ 32 < 2 ^ 31 := by
  have hlt : n % 2 ^ 32 < 2 ^ 32 := Nat.mod_lt _ (by decide)
  rw [maxTryCheckCount, BitVec.toInt_eq_toNat_cond, BitVec.toNat_ofNat]
  split
  · omega
  · omega

/-- A check that fails is at the threshold. -/
theorem atThreshold_iff (hs : s.Counted) :
    s.AtThreshold ↔ 3 ≤ (row s.checks + 1 + extra s.checks) % 2 ^ 32 ∧
      (row s.checks + 1 + extra s.checks) % 2 ^ 32 < 2 ^ 31 := by
  have hcount : s.count + 1 = BitVec.ofNat 32 (row s.checks + 1 + extra s.checks) := by
    rw [hs, Nat.add_right_comm]
    exact (BitVec.ofNat_add _ 1).symm
  rw [AtThreshold, hcount]
  exact threshold_ofNat _

/-- The threshold agrees with the row exactly for a timely check. -/
theorem atThreshold_agrees_iff (hs : s.Counted) :
    (s.AtThreshold ↔ maxTryCheckCount ≤ (row s.checks + 1 : ℕ)) ↔
      (row s.checks = 1 → ∀ check ∈ s.checks, check.failed = true) ∧
        (2 ≤ row s.checks → 3 ≤ (row s.checks + 1 + extra s.checks) % 2 ^ 32 ∧
          (row s.checks + 1 + extra s.checks) % 2 ^ 32 < 2 ^ 31) := by
  rw [atThreshold_iff hs, ← extra_eq_zero_iff, maxTryCheckCount]
  have hle := extra_le s.checks
  constructor
  · intro hiff
    refine ⟨fun hone => ?_, fun htwo => hiff.mpr (by omega)⟩
    by_contra hne
    have hextra : extra s.checks = 1 := by omega
    rw [hone, hextra] at hiff
    have := hiff.mp ⟨by decide, by decide⟩
    omega
  · rintro ⟨hone, htwo⟩
    constructor
    · rintro ⟨hlow, hhigh⟩
      by_contra hfew
      obtain hzero | hrow : row s.checks = 0 ∨ row s.checks = 1 := by omega
      · rw [hzero, Nat.mod_eq_of_lt (by omega)] at hlow
        omega
      · rw [hrow, hone hrow] at hlow
        omega
    · intro henough
      exact htwo (by omega)

/-! ### Runs -/

theorem consecutive_step_iff (hs : s.Counted) (hc : s.Consecutive) (h : step valueOf s a = some s') :
    s'.Consecutive ↔ Timely s a := by
  unfold Consecutive at hc ⊢
  obtain ⟨hends, hchecks, _⟩ | ⟨hends, hchecks, _⟩ | ⟨hends, hchecks, _⟩ := step_checks h
  · rw [hchecks]
    exact iff_of_true hc fun h => absurd h hends
  · refine iff_of_true (fun check older heq => ?_) fun h => absurd h hends
    rw [hchecks] at heq
    obtain ⟨rfl, _⟩ := List.cons.inj heq
    simp
  · rw [Timely, forall_prop_of_true hends, ← atThreshold_agrees_iff hs]
    constructor
    · intro hall
      have hlast := hall _ _ hchecks
      rw [hchecks, row, if_pos rfl] at hlast
      simpa using hlast
    · intro hiff check older heq
      rw [hchecks] at heq
      obtain ⟨rfl, _⟩ := List.cons.inj heq
      rw [hchecks, row, if_pos rfl]
      simpa using hiff

/-- **The fallback counts consecutive failures in the runs whose failing checks are all timely,
and in no others.** -/
theorem fallback_consecutive_iff (valueOf : JDouble → JString) (devid : Option JString) (config : WorkConfig)
    (wifiEnabled : Bool) (network : Option JString) (fences : List WifiInfo) (as : List WorkAction) :
    Always (step valueOf) Consecutive (init devid config wifiEnabled network fences) as ↔
      Guarded (step valueOf) Timely (init devid config wifiEnabled network fences) as :=
  always_iff_guarded Counted (fun _ _ _ hs _ hstep => counted_step hs hstep)
    (fun _ _ _ hs hc hstep => consecutive_step_iff hs hc hstep) as _ rfl nofun

/-- A run that tries one fence in vain. -/
def vainRun (t : ℕ) : List WorkAction :=
  [.startRun, .check t { mWifiList := [], mWifiConfigurations := none } [],
    .check t { mWifiList := [], mWifiConfigurations := none } []]

/-- A check finds its network, which is then lost: two more checks fail, and the second starts the
fallback. -/
theorem not_consecutive_second_failure :
    ¬ Always (step fun _ => []) Consecutive
      (init none { wifiOpenCloseTimeInteval := 30, gpsLoacationTimeInteval := 2 } false none
        [{ ssid := some (lit "home"), pwd := none, macAddress := none, penName := none, type := 1 }])
      ([.changeWifiWordMode, .startRun, .check 0 { mWifiList := [], mWifiConfigurations := none } [],
        .join (quoted (some (lit "home"))), .receive, .check 0 { mWifiList := [], mWifiConfigurations := none } [],
        .leave, .receive] ++ vainRun 1 ++ vainRun 2) := by
  intro h
  have hlast := (h.after rfl) { failed := true, fallback := true }
    [{ failed := true, fallback := false }, { failed := false, fallback := false }] rfl
  exact absurd (hlast.mp rfl).2 (by decide)

end GpsTracker.Work.Tracker
