import Mathlib.Data.Prod.Lex
import Mathlib.Order.Monotone.Basic
import Mathlib.Algebra.Order.Ring.Int

/-!
# Calendars

Days are numbered, day 1 being 1 January of the year 1 of the Gregorian
calendar. A calendar says on which day a year starts and in which year a day
lies; the months follow from the length of the year. Later days have later
dates, in the order of year, month and day (`date_lt`), also where one calendar
is given up for another (`spliced_lt`).
-/

namespace GpsTracker.Dates

/-- A date: year, month and day, in this order. -/
abbrev Date := ℤ ×ₗ ℕ ×ₗ ℕ

/-! ### Months -/

/-- The lengths of the months. -/
def monthLengths (leap : Bool) : List ℕ := [31, if leap then 29 else 28, 31, 30, 31, 30, 31, 31, 30, 31, 30, 31]

theorem sum_monthLengths (leap : Bool) : (monthLengths leap).sum = if leap = true then 366 else 365 := by
  cases leap <;> rfl

/-- The month and the day of month of a day, the first one being 0, from month `m` on. -/
def splitDay : List ℕ → ℕ → ℕ → ℕ ×ₗ ℕ
  | [], m, d => toLex (m, d + 1)
  | len :: lens, m, d => if d < len then toLex (m, d + 1) else splitDay lens (m + 1) (d - len)

theorem le_month_splitDay (lens : List ℕ) (m d : ℕ) : m ≤ (ofLex (splitDay lens m d)).1 := by
  induction lens generalizing m d with
  | nil => exact Nat.le_refl m
  | cons len lens ih =>
    rw [splitDay]
    split_ifs
    · exact Nat.le_refl m
    · exact Nat.le_of_succ_le (ih (m + 1) (d - len))

/-- Later days are later in the order of month and day. -/
theorem splitDay_strictMono (lens : List ℕ) (m : ℕ) : StrictMono (splitDay lens m) := by
  induction lens generalizing m with
  | nil =>
    intro d d' h
    exact Prod.Lex.toLex_lt_toLex.mpr (Or.inr ⟨rfl, Nat.succ_lt_succ h⟩)
  | cons len lens ih =>
    intro d d' h
    rw [splitDay, splitDay]
    split_ifs with hd hd'
    · exact Prod.Lex.toLex_lt_toLex.mpr (Or.inr ⟨rfl, Nat.succ_lt_succ h⟩)
    · exact Prod.Lex.toLex_lt_toLex.mpr (Or.inl (le_month_splitDay lens (m + 1) (d' - len)))
    · omega
    · exact ih (m + 1) (by omega)

/-- Within the months, a month is one of them and a day is no larger than the longest. -/
theorem splitDay_bounds {k : ℕ} (lens : List ℕ) (m d : ℕ) (hlens : ∀ len ∈ lens, len ≤ k) (h : d < lens.sum) :
    (ofLex (splitDay lens m d)).1 < m + lens.length ∧ (ofLex (splitDay lens m d)).2 ≤ k := by
  induction lens generalizing m d with
  | nil => simp at h
  | cons len lens ih =>
    rw [splitDay]
    split_ifs with hd
    · have := hlens len List.mem_cons_self
      exact ⟨by simp, by simp; omega⟩
    · rw [List.sum_cons] at h
      obtain ⟨hmonth, hday⟩ := ih (m + 1) (d - len) (fun l hl => hlens l (List.mem_cons_of_mem _ hl)) (by omega)
      exact ⟨by rw [List.length_cons]; omega, hday⟩

/-! ### Years -/

/-- A calendar. -/
structure Calendar where
  /-- The first day of a year. -/
  start : ℤ → ℤ
  /-- The years of 366 days. -/
  leap : ℤ → Bool
  /-- The year of a day. -/
  yearOf : ℤ → ℤ
  /-- A year is followed by the next. -/
  start_succ : ∀ y, start (y + 1) = start y + (monthLengths (leap y)).sum
  /-- A day is in its year. -/
  start_yearOf : ∀ n, start (yearOf n) ≤ n ∧ n < start (yearOf n + 1)

namespace Calendar

variable (cal : Calendar)

/-- The date of a day. -/
def date (n : ℤ) : Date :=
  toLex (cal.yearOf n, splitDay (monthLengths (cal.leap (cal.yearOf n))) 1 (n - cal.start (cal.yearOf n)).toNat)

theorem start_lt {y y' : ℤ} (h : y < y') : cal.start y < cal.start y' := by
  refine strictMono_int_of_lt_succ (fun y => ?_) h
  rw [cal.start_succ, sum_monthLengths]
  split_ifs <;> omega

/-- Later days are in no earlier year. -/
theorem yearOf_le {n n' : ℤ} (h : n < n') : cal.yearOf n ≤ cal.yearOf n' := by
  by_contra hlt
  have hn := (cal.start_yearOf n).1
  have hn' := (cal.start_yearOf n').2
  rcases Int.lt_or_eq_of_le (by omega : cal.yearOf n' + 1 ≤ cal.yearOf n) with hyear | hyear
  · have := cal.start_lt hyear
    omega
  · rw [← hyear] at hn
    omega

/-- **Later days have later dates.** -/
theorem date_lt {n n' : ℤ} (h : n < n') : cal.date n < cal.date n' := by
  rw [date, date, Prod.Lex.toLex_lt_toLex]
  rcases lt_or_eq_of_le (cal.yearOf_le h) with hyear | hyear
  · exact Or.inl hyear
  · have hn := (cal.start_yearOf n).1
    rw [hyear] at hn ⊢
    exact Or.inr ⟨rfl, splitDay_strictMono _ _ (by omega)⟩

theorem date_bounds (n : ℤ) :
    (ofLex (ofLex (cal.date n)).2).1 ≤ 12 ∧ (ofLex (ofLex (cal.date n)).2).2 ≤ 31 := by
  obtain ⟨hstart, hend⟩ := cal.start_yearOf n
  rw [cal.start_succ] at hend
  have hlens : ∀ leap, ∀ len ∈ monthLengths leap, len ≤ 31 := by decide
  obtain ⟨hmonth, hday⟩ := splitDay_bounds (monthLengths (cal.leap (cal.yearOf n))) 1
    (n - cal.start (cal.yearOf n)).toNat (hlens _) (by omega)
  exact ⟨Nat.le_of_lt_succ hmonth, hday⟩

end Calendar

/-! ### Two calendars -/

/-- The first day of a year of the Gregorian calendar. -/
def gregorianStart (y : ℤ) : ℤ := 365 * (y - 1) + (y - 1) / 4 - (y - 1) / 100 + (y - 1) / 400 + 1

/-- A leap year of the Gregorian calendar. -/
def gregorianLeap (y : ℤ) : Bool := y % 4 = 0 ∧ (y % 100 ≠ 0 ∨ y % 400 = 0)

/-- The Gregorian year of a day: the day in its 400, 100 and 4 years. -/
def gregorianYear (n : ℤ) : ℤ :=
  let d0 := n - 1
  let n400 := d0 / 146097
  let d1 := d0 % 146097
  let n100 := d1 / 36524
  let d2 := d1 % 36524
  let n4 := d2 / 1461
  let d3 := d2 % 1461
  let n1 := d3 / 365
  let year := 400 * n400 + 100 * n100 + 4 * n4 + n1
  if n100 = 4 ∨ n1 = 4 then year else year + 1

theorem gregorianStart_succ (y : ℤ) :
    gregorianStart (y + 1) = gregorianStart y + (monthLengths (gregorianLeap y)).sum := by
  rw [gregorianStart, gregorianStart, gregorianLeap, sum_monthLengths]
  simp only [decide_eq_true_eq]
  split_ifs <;> omega

/-- A year in its 400, 100 and 4 years. -/
theorem gregorianStart_of_cycles {a b c e : ℤ} (hb : 0 ≤ b ∧ b ≤ 3) (hc : 0 ≤ c ∧ c ≤ 24) (he : 0 ≤ e ∧ e ≤ 3) :
    gregorianStart (400 * a + 100 * b + 4 * c + e + 1) = 146097 * a + 36524 * b + 1461 * c + 365 * e + 1 := by
  have h4 : (400 * a + 100 * b + 4 * c + e) / 4 = 100 * a + 25 * b + c := by omega
  have h100 : (400 * a + 100 * b + 4 * c + e) / 100 = 4 * a + b := by omega
  have h400 : (400 * a + 100 * b + 4 * c + e) / 400 = a := by omega
  rw [gregorianStart, Int.add_sub_cancel, h4, h100, h400]
  omega

/-- The last day of a leap year, and any other day. -/
theorem gregorianStart_gregorianYear (n : ℤ) :
    gregorianStart (gregorianYear n) ≤ n ∧ n < gregorianStart (gregorianYear n + 1) := by
  rw [gregorianStart_succ, gregorianYear]
  generalize ha : (n - 1) / 146097 = a
  generalize hd1 : (n - 1) % 146097 = d1
  generalize hb : d1 / 36524 = b
  generalize hd2 : d1 % 36524 = d2
  generalize hc : d2 / 1461 = c
  generalize hd3 : d2 % 1461 = d3
  generalize he : d3 / 365 = e
  split_ifs with h
  · rcases h with hlast | hlast
    · -- the last day of 400 years
      have hyear : 400 * a + 100 * b + 4 * c + e = 400 * a + 100 * 3 + 4 * 24 + 3 + 1 := by omega
      have hleap : gregorianLeap (400 * a + 100 * 3 + 4 * 24 + 3 + 1) = true := by
        rw [gregorianLeap, decide_eq_true_iff]
        omega
      rw [hyear, gregorianStart_of_cycles (by decide) (by decide) (by decide), hleap,
        sum_monthLengths, if_pos rfl]
      omega
    · -- the last day of four years
      have hyear : 400 * a + 100 * b + 4 * c + e = 400 * a + 100 * b + 4 * c + 3 + 1 := by omega
      have hleap : gregorianLeap (400 * a + 100 * b + 4 * c + 3 + 1) = true := by
        rw [gregorianLeap, decide_eq_true_iff]
        omega
      rw [hyear, gregorianStart_of_cycles (by omega) (by omega) (by decide), hleap, sum_monthLengths,
        if_pos rfl]
      omega
  · rw [gregorianStart_of_cycles (by omega) (by omega) (by omega), sum_monthLengths]
    split_ifs <;> omega

/-- The Gregorian calendar. -/
def gregorian : Calendar where
  start := gregorianStart
  leap := gregorianLeap
  yearOf := gregorianYear
  start_succ := gregorianStart_succ
  start_yearOf := gregorianStart_gregorianYear

/-- The Julian calendar. -/
def julian : Calendar where
  start y := 365 * (y - 1) + (y - 1) / 4 - 1
  leap y := y % 4 = 0
  yearOf n := (4 * (n + 1) + 1464) / 1461
  start_succ y := by
    rw [sum_monthLengths]
    simp only [decide_eq_true_eq]
    split_ifs <;> omega
  start_yearOf n := by omega

/-- One calendar before a day and another from it on. -/
def spliced (before after : Calendar) (cutover n : ℤ) : Date :=
  if n < cutover then before.date n else after.date n

/-- **The dates still grow**, where the day of the change has a later date than the day before. -/
theorem spliced_lt {before after : Calendar} {cutover : ℤ}
    (hchange : before.date (cutover - 1) < after.date cutover) {n n' : ℤ}
    (h : n < n') : spliced before after cutover n < spliced before after cutover n' := by
  rw [spliced, spliced]
  split_ifs with hn hn'
  · exact before.date_lt h
  · calc before.date n ≤ before.date (cutover - 1) := by
          rcases Int.lt_or_eq_of_le (by omega : n ≤ cutover - 1) with hlt | rfl
          · exact (before.date_lt hlt).le
          · exact le_refl _
      _ < after.date cutover := hchange
      _ ≤ after.date n' := by
          rcases Int.lt_or_eq_of_le (by omega : cutover ≤ n') with hlt | rfl
          · exact (after.date_lt hlt).le
          · exact le_refl _
  · omega
  · exact after.date_lt h

theorem spliced_bounds (before after : Calendar) (cutover n : ℤ) :
    (ofLex (ofLex (spliced before after cutover n)).2).1 ≤ 12 ∧
      (ofLex (ofLex (spliced before after cutover n)).2).2 ≤ 31 := by
  rw [spliced]
  split_ifs
  · exact before.date_bounds n
  · exact after.date_bounds n

/-- The last day of the Julian calendar and the first of the Gregorian. -/
example : (ofLex (julian.date 577735)).1 = 1582 ∧ ofLex (ofLex (julian.date 577735)).2 = (10, 4) ∧
    (ofLex (gregorian.date 577736)).1 = 1582 ∧ ofLex (ofLex (gregorian.date 577736)).2 = (10, 15) := by
  decide

end GpsTracker.Dates
