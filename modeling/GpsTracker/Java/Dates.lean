import GpsTracker.Java.Text
import GpsTracker.Library.Calendar
import GpsTracker.Library.Digits

/-!
# Dates and their texts

The fields of an instant in a zone of fixed offset, as `GregorianCalendar` has
them, and their text under a pattern of `SimpleDateFormat`. The local dates
before 15 October 1582 are Julian. Within the years 1 to 9999 a later second has
greater fields (`fieldList_lt`).
-/

namespace GpsTracker.Java

open Dates Digits

/-! ### Fields -/

/-- The fields of an instant. -/
structure DateFields where
  /-- The year, 0 and the negative ones being before the common era. -/
  year : ℤ
  /-- The month, from 1 on. -/
  month : ℕ
  /-- The day of the month. -/
  day : ℕ
  /-- The hour. -/
  hour : ℕ
  /-- The minute. -/
  minute : ℕ
  /-- The second. -/
  second : ℕ

/-- The milliseconds of a day. -/
def oneDay : ℤ := 86400000

/-- The number of 1 January 1970. -/
def epochOffset : ℤ := 719163

/-- The number of the first Gregorian day. -/
def gregorianCutover : ℤ := 577736

/-- The local day of an instant. -/
def fixedDate (zone time : ℤ) : ℤ := (time + zone) / oneDay + epochOffset

/-- The milliseconds since the local day began. -/
def timeOfDay (zone time : ℤ) : ℕ := ((time + zone) % oneDay).toNat

/-- The local date of an instant. -/
def localDate (zone time : ℤ) : Date := spliced julian gregorian gregorianCutover (fixedDate zone time)

/-- The fields of an instant, both in milliseconds. -/
def dateFields (zone time : ℤ) : DateFields where
  year := (ofLex (localDate zone time)).1
  month := (ofLex (ofLex (localDate zone time)).2).1
  day := (ofLex (ofLex (localDate zone time)).2).2
  hour := timeOfDay zone time / 3600000
  minute := timeOfDay zone time % 3600000 / 60000
  second := timeOfDay zone time % 60000 / 1000

/-! ### Texts -/

/-- A decimal digit. -/
def decUnit (d : ℕ) : UInt16 := UInt16.ofNat (0x30 + d)

/-- A number in at least so many digits. -/
def zeroPad (w n : ℕ) : JString := (digits (max w (Nat.log 10 n + 1)) n).map decUnit

/-- The letters of a pattern, each with how often it is repeated. -/
def letterRuns (pattern : JString) : List (UInt16 × ℕ) :=
  (pattern.splitBy fun u v => u == v).map fun run => (run.headD 0, run.length)

/-- The year of the era. -/
def DateFields.yearOfEra (f : DateFields) : ℕ := (if f.year ≤ 0 then 1 - f.year else f.year).toNat

/-- The text of a repeated letter. The shorter year of `yy` and the names of `MMM` are left out. -/
def formatRun (f : DateFields) (run : UInt16 × ℕ) : JString :=
  if run.1 = 0x79 then zeroPad run.2 f.yearOfEra
  else if run.1 = 0x4D then zeroPad run.2 f.month
  else if run.1 = 0x64 then zeroPad run.2 f.day
  else if run.1 = 0x48 then zeroPad run.2 f.hour
  else if run.1 = 0x6D then zeroPad run.2 f.minute
  else if run.1 = 0x73 then zeroPad run.2 f.second
  else List.replicate run.2 run.1

/-- `new SimpleDateFormat(pattern).format(...)`. -/
def formatDate (pattern : JString) (f : DateFields) : JString := (letterRuns pattern).flatMap (formatRun f)

/-- A number that has its width is not longer. -/
theorem zeroPad_of_lt {w n : ℕ} (hw : 0 < w) (h : n < 10 ^ w) : zeroPad w n = (digits w n).map decUnit := by
  have hlog : Nat.log 10 n + 1 ≤ w := by
    by_cases hn : n = 0
    · rw [hn, Nat.log_zero_right]
      omega
    · exact Nat.log_lt_of_lt_pow hn h
  rw [zeroPad, Nat.max_eq_left hlog]

theorem growing_decUnit : Growing decUnit := by
  intro d e hlt he
  rw [decUnit, decUnit, UInt16.lt_iff_toNat_lt, UInt16.toNat_ofNat', UInt16.toNat_ofNat']
  omega

/-! ### Order -/

/-- A year of at most four digits in the common era. -/
def FourDigits (f : DateFields) : Prop := 1 ≤ f.year ∧ f.year ≤ 9999

instance (f : DateFields) : Decidable (FourDigits f) := inferInstanceAs (Decidable (_ ∧ _))

theorem localDate_lt {zone t t' : ℤ} (h : fixedDate zone t < fixedDate zone t') :
    localDate zone t < localDate zone t' :=
  spliced_lt (by decide) h

theorem dateFields_bounds (zone t : ℤ) : (dateFields zone t).month < 100 ∧ (dateFields zone t).day < 100 ∧
    (dateFields zone t).hour < 100 ∧ (dateFields zone t).minute < 100 ∧ (dateFields zone t).second < 100 := by
  obtain ⟨hmonth, hday⟩ := spliced_bounds julian gregorian gregorianCutover (fixedDate zone t)
  have hday' : timeOfDay zone t < 86400000 := by
    rw [timeOfDay, oneDay]
    omega
  refine ⟨Nat.lt_of_le_of_lt hmonth (by decide), Nat.lt_of_le_of_lt hday (by decide), ?_, ?_, ?_⟩
  · change timeOfDay zone t / 3600000 < 100
    omega
  · change timeOfDay zone t % 3600000 / 60000 < 100
    omega
  · change timeOfDay zone t % 60000 / 1000 < 100
    omega

/-- The numbers of a text, the greater ones first. -/
def fieldList (f : DateFields) : List ℕ := [f.yearOfEra, f.month, f.day, f.hour, f.minute, f.second]

/-- A later second of the same day. -/
theorem clock_lt {n n' : ℕ} (h : n + 1000 ≤ n') :
    [n / 3600000, n % 3600000 / 60000, n % 60000 / 1000] < [n' / 3600000, n' % 3600000 / 60000, n' % 60000 / 1000] := by
  simp only [List.cons_lt_cons_iff]
  omega

/-- A later date. -/
theorem dateList_lt {zone t t' : ℤ} (h : FourDigits (dateFields zone t)) (h' : FourDigits (dateFields zone t'))
    (hlater : localDate zone t < localDate zone t') :
    fieldList (dateFields zone t) < fieldList (dateFields zone t') := by
  have hyear : ∀ t, FourDigits (dateFields zone t) →
      ((dateFields zone t).yearOfEra : ℤ) = (ofLex (localDate zone t)).1 := by
    intro t h
    rw [DateFields.yearOfEra, if_neg (by have := h.1; omega), Int.toNat_of_nonneg (by have := h.1; omega)]
    rfl
  have hyear₁ := hyear t h
  have hyear₂ := hyear t' h'
  simp only [fieldList, List.cons_lt_cons_iff]
  rcases Prod.Lex.lt_iff.mp hlater with hy | ⟨hy, hrest⟩
  · exact Or.inl (by omega)
  · refine Or.inr ⟨by omega, ?_⟩
    rcases Prod.Lex.lt_iff.mp hrest with hm | ⟨hm, hd⟩
    · exact Or.inl hm
    · exact Or.inr ⟨hm, Or.inl hd⟩

/-- **A later second has greater fields.** -/
theorem fieldList_lt {zone t t' : ℤ} (h : FourDigits (dateFields zone t)) (h' : FourDigits (dateFields zone t'))
    (hlater : t + 1000 ≤ t') : fieldList (dateFields zone t) < fieldList (dateFields zone t') := by
  have hday : fixedDate zone t ≤ fixedDate zone t' := by
    rw [fixedDate, fixedDate, oneDay]
    omega
  rcases lt_or_eq_of_le hday with hlt | heq
  · exact dateList_lt h h' (localDate_lt hlt)
  · have hclock : timeOfDay zone t + 1000 ≤ timeOfDay zone t' := by
      rw [fixedDate, fixedDate, oneDay] at heq
      rw [timeOfDay, timeOfDay, oneDay]
      omega
    have hdate : localDate zone t = localDate zone t' := by rw [localDate, localDate, heq]
    rw [fieldList, fieldList, DateFields.yearOfEra, DateFields.yearOfEra]
    simp only [dateFields, hdate]
    exact List.cons_lt_cons_iff.mpr (Or.inr ⟨rfl, List.cons_lt_cons_iff.mpr (Or.inr ⟨rfl,
      List.cons_lt_cons_iff.mpr (Or.inr ⟨rfl, clock_lt hclock⟩)⟩)⟩)

end GpsTracker.Java
