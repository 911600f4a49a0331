import GpsTracker.Java.Dates

/-!
# Timestamps

The device and the server stamp their messages with the local time, each under a
pattern of its own. The server's pattern has `MM`, the month, where the device's
has `mm`, the minute. The device's stamps are in the order of time; the server's
are the device's only in the minute whose number is that of the month
(`server_eq_device_iff`).
-/

namespace GpsTracker.Upload

open GpsTracker.Java Digits

/-- The device's `createTimeStamp` at an instant. -/
def deviceCreateTimeStamp (zone now : ℤ) : JString :=
  formatDate (lit "yyyy-MM-dd HH:mm:ss") (dateFields zone now)

/-- The server's `createTimeStamp` at an instant. -/
def serverCreateTimeStamp (zone now : ℤ) : JString :=
  formatDate (lit "yyyy-MM-dd HH:MM:ss") (dateFields zone now)

/-- An instant whose year has at most four digits. -/
def HasYear (zone now : ℤ) : Prop := FourDigits (dateFields zone now)

instance (zone now : ℤ) : Decidable (HasYear zone now) := inferInstanceAs (Decidable (_ ∧ _))

/-- The stamps of an instant and of a later one: the same text from both, and both in order. -/
structure StampsFaithful (zone t t' : ℤ) : Prop where
  /-- The earlier instant. -/
  same : serverCreateTimeStamp zone t = deviceCreateTimeStamp zone t
  /-- The later instant. -/
  sameLater : serverCreateTimeStamp zone t' = deviceCreateTimeStamp zone t'
  /-- The device's stamps. -/
  deviceOrder : deviceCreateTimeStamp zone t < deviceCreateTimeStamp zone t'
  /-- The server's stamps. -/
  serverOrder : serverCreateTimeStamp zone t < serverCreateTimeStamp zone t'

/-- The number of the minute is that of the month. -/
def MinuteIsMonth (zone t : ℤ) : Prop := (dateFields zone t).minute = (dateFields zone t).month

instance (zone t : ℤ) : Decidable (MinuteIsMonth zone t) := inferInstanceAs (Decidable (_ = _))

/-! ### The texts -/

/-- What both patterns have in common: the widths and the separators. -/
def stampTemplate : List (ℕ × JString) :=
  [(4, [0x2D]), (2, [0x2D]), (2, [0x20]), (2, [0x3A]), (2, [0x3A]), (2, [])]

theorem yearOfEra_lt {f : DateFields} (h : FourDigits f) : f.yearOfEra < 10 ^ 4 := by
  have hlow := h.1
  have hhigh := h.2
  rw [DateFields.yearOfEra, if_neg (by omega)]
  omega

/-- The runs of a pattern, the fifth field being open. -/
def stampRuns (letter : UInt16) : List (UInt16 × ℕ) := [
  (0x79, 4), (0x2D, 1), (0x4D, 2), (0x2D, 1), (0x64, 2), (0x20, 1), (0x48, 2), (0x3A, 1),
  (letter, 2), (0x3A, 1), (0x73, 2)]

/-- The text of such a pattern. -/
theorem flatMap_stampRuns {zone now : ℤ} (h : HasYear zone now) {letter : UInt16} {n : ℕ} (hn : n < 100)
    (hletter : formatRun (dateFields zone now) (letter, 2) = zeroPad 2 n) :
    (stampRuns letter).flatMap (formatRun (dateFields zone now)) = render decUnit stampTemplate
      [(dateFields zone now).yearOfEra, (dateFields zone now).month, (dateFields zone now).day,
        (dateFields zone now).hour, n, (dateFields zone now).second] := by
  obtain ⟨hmonth, hday, hhour, -, hsecond⟩ := dateFields_bounds zone now
  have hyear := zeroPad_of_lt (by decide) (yearOfEra_lt h)
  have hpad : ∀ n < 100, zeroPad 2 n = (digits 2 n).map decUnit := fun n hn => zeroPad_of_lt (by decide) hn
  simp only [stampRuns, List.flatMap_cons, List.flatMap_nil, hletter]
  simp [formatRun, stampTemplate, render, hyear, hpad, hmonth, hday, hhour, hsecond, hn]

theorem deviceCreateTimeStamp_eq {zone now : ℤ} (h : HasYear zone now) :
    deviceCreateTimeStamp zone now = render decUnit stampTemplate (fieldList (dateFields zone now)) := by
  have hruns : letterRuns (lit "yyyy-MM-dd HH:mm:ss") = stampRuns 0x6D := by decide
  rw [deviceCreateTimeStamp, formatDate, hruns, flatMap_stampRuns h (dateFields_bounds zone now).2.2.2.1 rfl]
  rfl

/-- The numbers of a text of the server. -/
def serverList (f : DateFields) : List ℕ := [f.yearOfEra, f.month, f.day, f.hour, f.month, f.second]

theorem serverCreateTimeStamp_eq {zone now : ℤ} (h : HasYear zone now) :
    serverCreateTimeStamp zone now = render decUnit stampTemplate (serverList (dateFields zone now)) := by
  have hruns : letterRuns (lit "yyyy-MM-dd HH:MM:ss") = stampRuns 0x4D := by decide
  rw [serverCreateTimeStamp, formatDate, hruns, flatMap_stampRuns h (dateFields_bounds zone now).1 rfl]
  rfl

theorem fitting_fieldList {zone now : ℤ} (h : HasYear zone now) :
    Fitting stampTemplate (fieldList (dateFields zone now)) := by
  obtain ⟨hmonth, hday, hhour, hminute, hsecond⟩ := dateFields_bounds zone now
  exact .cons (yearOfEra_lt h) (.cons hmonth (.cons hday (.cons hhour (.cons hminute (.cons hsecond .nil)))))

theorem fitting_serverList {zone now : ℤ} (h : HasYear zone now) :
    Fitting stampTemplate (serverList (dateFields zone now)) := by
  obtain ⟨hmonth, hday, hhour, -, hsecond⟩ := dateFields_bounds zone now
  exact .cons (yearOfEra_lt h) (.cons hmonth (.cons hday (.cons hhour (.cons hmonth (.cons hsecond .nil)))))

/-! ### Comparing them -/

/-- The two stamps of an instant are the same text in the minute whose number is that of the month. -/
theorem server_eq_device_iff {zone now : ℤ} (h : HasYear zone now) :
    serverCreateTimeStamp zone now = deviceCreateTimeStamp zone now ↔ MinuteIsMonth zone now := by
  rw [serverCreateTimeStamp_eq h, deviceCreateTimeStamp_eq h]
  constructor
  · intro heq
    have hlists := render_inj growing_decUnit (fitting_serverList h) (fitting_fieldList h) heq
    simp only [serverList, fieldList, List.cons.injEq, and_true, true_and] at hlists
    exact hlists.symm
  · intro hminute
    rw [serverList, fieldList, hminute]

/-- The device's stamps are in the order of time. -/
theorem device_lt {zone t t' : ℤ} (h : HasYear zone t) (h' : HasYear zone t') (hlater : t + 1000 ≤ t') :
    deviceCreateTimeStamp zone t < deviceCreateTimeStamp zone t' := by
  rw [deviceCreateTimeStamp_eq h, deviceCreateTimeStamp_eq h']
  exact render_lt growing_decUnit (fitting_fieldList h) (fitting_fieldList h') (fieldList_lt h h' hlater)

/-- **When the stamps are faithful.** -/
theorem stampsFaithful_iff {zone t t' : ℤ} (h : HasYear zone t) (h' : HasYear zone t')
    (hlater : t + 1000 ≤ t') :
    StampsFaithful zone t t' ↔ MinuteIsMonth zone t ∧ MinuteIsMonth zone t' := by
  constructor
  · intro hfaithful
    exact ⟨(server_eq_device_iff h).mp hfaithful.same, (server_eq_device_iff h').mp hfaithful.sameLater⟩
  · rintro ⟨hminute, hminute'⟩
    have hsame := (server_eq_device_iff h).mpr hminute
    have hsame' := (server_eq_device_iff h').mpr hminute'
    have hdevice := device_lt h h' hlater
    exact ⟨hsame, hsame', hdevice, by rw [hsame, hsame']; exact hdevice⟩

/-- Two seconds of 1 July 2016, 00:07 in UTC. -/
theorem stampsFaithful_july : StampsFaithful 0 1467331620000 1467331621000 :=
  (stampsFaithful_iff (by decide) (by decide) (by decide)).mpr (by decide)

/-- The first two seconds of 1 July 2016 in UTC: the server has `00:07` for `00:00`. -/
theorem not_stampsFaithful_midnight : ¬ StampsFaithful 0 1467331200000 1467331201000 := by
  intro h
  have hyear : HasYear 0 1467331200000 := by decide
  have hminute := (server_eq_device_iff hyear).mp h.same
  revert hminute
  decide

end GpsTracker.Upload
