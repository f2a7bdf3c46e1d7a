import IndexQuery.Calendar.Date
import Mathlib.Data.Int.LeastGreatest
import Mathlib.Data.Nat.Find
import Mathlib.Order.Monotone.Basic
set_option autoImplicit false

/-! # Days and their numbers

Years follow each other without a gap (`daysBeforeYear_succ`), and so do the months of a year
(`daysBeforeMonth_succ`), which fill it (`daysBeforeMonth_end`). Therefore the number of a day grows
with its date (`Date.dayNumber_lt_iff`), and every number between those of the first and the last
day that can be represented is the number of exactly one date (`Date.exists_dayNumber`). -/

namespace IndexQuery

namespace Calendar

variable {year year' : Int} {month month' day : Nat}

/-! ## Years -/

/-- The days of a year. -/
def yearLength (year : Int) : Nat := if isLeap year then 366 else 365

theorem isLeap_iff :
    isLeap year = true ↔ year % 4 = 0 ∧ (year % 100 ≠ 0 ∨ year % 400 = 0) := by
  simp [isLeap]

/-- A year begins where the year before it ends. -/
theorem daysBeforeYear_succ (year : Int) :
    daysBeforeYear (year + 1) = daysBeforeYear year + yearLength year := by
  unfold daysBeforeYear yearLength
  by_cases hleap : isLeap year = true
  · rw [if_pos hleap]
    rw [isLeap_iff] at hleap
    omega
  · rw [if_neg hleap]
    rw [isLeap_iff] at hleap
    omega

theorem daysBeforeYear_mono (h : year ≤ year') : daysBeforeYear year ≤ daysBeforeYear year' := by
  unfold daysBeforeYear
  omega

/-- Every day between the starts of two years lies in one of the years between them. -/
theorem exists_year {n first last : Int} (hfirst : daysBeforeYear first ≤ n)
    (hlast : n < daysBeforeYear (last + 1)) :
    ∃ year, ∃ place : Nat, first ≤ year ∧ year ≤ last ∧ place < yearLength year ∧
      n = daysBeforeYear year + place := by
  have hbounded (y : Int) (hy : daysBeforeYear y ≤ n) : y ≤ last := by
    by_contra hbeyond
    have hyears := daysBeforeYear_mono (show last + 1 ≤ y by omega)
    omega
  -- the last year that begins before the day, or with it
  obtain ⟨year, hyear, hgreatest⟩ := Int.exists_greatest_of_bdd ⟨last, hbounded⟩ ⟨first, hfirst⟩
  have hnext : n < daysBeforeYear (year + 1) := by
    by_contra hlater
    have := hgreatest (year + 1) (by omega)
    omega
  rw [daysBeforeYear_succ] at hnext
  exact ⟨year, (n - daysBeforeYear year).toNat, hgreatest first hfirst, hbounded year hyear,
    by omega, by omega⟩

/-! ## Months -/

/-- The days of a month. -/
def monthLength (year : Int) (month : Nat) : Nat := ((monthLengths year)[month - 1]?).getD 0

theorem isDay_iff : isDay year month day = true ↔
    firstYear ≤ year ∧ year ≤ lastYear ∧ 1 ≤ month ∧ 1 ≤ day ∧ day ≤ monthLength year month := by
  simp [isDay, monthLength, and_assoc]

/-- A month begins where the month before it ends. -/
theorem daysBeforeMonth_succ (year : Int) (hmonth : 1 ≤ month) :
    daysBeforeMonth year (month + 1) = daysBeforeMonth year month + monthLength year month := by
  obtain ⟨k, rfl⟩ : ∃ k, month = k + 1 := ⟨month - 1, by omega⟩
  unfold daysBeforeMonth monthLength
  rw [Nat.add_sub_cancel, Nat.add_sub_cancel, List.take_add_one, List.foldl_append]
  cases (monthLengths year)[k]? <;> rfl

theorem daysBeforeMonth_first (year : Int) : daysBeforeMonth year 1 = 0 := rfl

/-- The months fill the year. -/
theorem daysBeforeMonth_end (year : Int) : daysBeforeMonth year 13 = yearLength year := by
  unfold daysBeforeMonth yearLength monthLengths
  cases isLeap year <;> rfl

theorem daysBeforeMonth_mono (hmonth : 1 ≤ month) (h : month ≤ month') :
    daysBeforeMonth year month ≤ daysBeforeMonth year month' := by
  induction h with
  | refl => exact Nat.le_refl _
  | step h ih =>
      rw [daysBeforeMonth_succ year (Nat.le_trans hmonth h)]
      omega

/-- There are twelve months. -/
theorem month_le_of_monthLength_pos (h : 0 < monthLength year month) : month ≤ 12 := by
  unfold monthLength at h
  by_contra hbeyond
  have hnone : (monthLengths year)[month - 1]? = none :=
    List.getElem?_eq_none (by show 12 ≤ month - 1; omega)
  rw [hnone] at h
  exact absurd h (by decide)

/-- Every day of a year lies in one of its months. -/
theorem exists_month {place : Nat} (h : place < yearLength year) :
    ∃ month, 1 ≤ month ∧ daysBeforeMonth year month ≤ place ∧
      place < daysBeforeMonth year (month + 1) := by
  have hend : ∃ month, place < daysBeforeMonth year (month + 1) := by
    refine ⟨12, ?_⟩
    rw [daysBeforeMonth_end]
    exact h
  -- the first month that ends behind the place; the one before it does not
  have hspec : place < daysBeforeMonth year (Nat.find hend + 1) := Nat.find_spec hend
  have hpos : 1 ≤ Nat.find hend := by
    by_contra hzero
    have hfirst : Nat.find hend = 0 := by omega
    rw [hfirst, Nat.zero_add, daysBeforeMonth_first] at hspec
    omega
  have hbefore : ¬ place < daysBeforeMonth year (Nat.find hend - 1 + 1) :=
    Nat.find_min hend (by omega)
  rw [Nat.sub_add_cancel hpos] at hbefore
  exact ⟨Nat.find hend, hpos, by omega, hspec⟩

/-! ## The first and the last day -/

/-- The number of the first day that can be represented. -/
def firstDay : Int := dayNumber firstYear 1 1

/-- The number of the last day that can be represented. -/
def lastDay : Int := dayNumber lastYear 12 31

theorem firstDay_eq : firstDay = daysBeforeYear firstYear - daysBeforeYear 1970 := by decide

theorem lastDay_eq : lastDay + 1 = daysBeforeYear (lastYear + 1) - daysBeforeYear 1970 := by decide

end Calendar

namespace Date

open Calendar

/-! ## The order of dates -/

/-- Dates are ordered by year, month and day of the month. -/
def Before (d e : Date) : Prop :=
  d.year < e.year ∨ d.year = e.year ∧ (d.month < e.month ∨ d.month = e.month ∧ d.day < e.day)

variable {d e : Date}

/-- The place of a date in its year, counted from 1. -/
def dayOfYear (d : Date) : Nat := daysBeforeMonth d.year d.month + d.day

theorem dayNumber_eq (d : Date) :
    d.dayNumber = daysBeforeYear d.year - daysBeforeYear 1970 + d.dayOfYear - 1 := by
  unfold dayNumber Calendar.dayNumber dayOfYear
  omega

theorem dayOfYear_pos (d : Date) : 0 < d.dayOfYear := by
  obtain ⟨-, -, -, hday, -⟩ := isDay_iff.mp d.exists_day
  unfold dayOfYear
  omega

/-- A date does not lie behind its month. -/
theorem dayOfYear_le_month (d : Date) : d.dayOfYear ≤ daysBeforeMonth d.year (d.month + 1) := by
  obtain ⟨-, -, hmonth, -, hday⟩ := isDay_iff.mp d.exists_day
  rw [daysBeforeMonth_succ d.year hmonth]
  exact Nat.add_le_add_left hday _

/-- A date does not lie behind its year. -/
theorem dayOfYear_le_year (d : Date) : d.dayOfYear ≤ yearLength d.year := by
  obtain ⟨-, -, -, hpos, hday⟩ := isDay_iff.mp d.exists_day
  have hmonth : d.month ≤ 12 := month_le_of_monthLength_pos (Nat.lt_of_lt_of_le hpos hday)
  calc d.dayOfYear
      ≤ daysBeforeMonth d.year (d.month + 1) := d.dayOfYear_le_month
    _ ≤ daysBeforeMonth d.year 13 := daysBeforeMonth_mono (by omega) (by omega)
    _ = yearLength d.year := daysBeforeMonth_end d.year

theorem dayNumber_lt_of_before (h : d.Before e) : d.dayNumber < e.dayNumber := by
  have hd := d.dayOfYear_le_year
  have he := e.dayOfYear_pos
  rw [dayNumber_eq d, dayNumber_eq e]
  rcases h with hyear | ⟨hyear, hplace⟩
  · have hsucc := daysBeforeYear_succ d.year
    have hyears := daysBeforeYear_mono (show d.year + 1 ≤ e.year by omega)
    omega
  · have hplaces : d.dayOfYear < e.dayOfYear := by
      obtain ⟨-, -, -, hday, -⟩ := isDay_iff.mp e.exists_day
      rcases hplace with hmonth | ⟨hmonth, hday'⟩
      · calc d.dayOfYear
            ≤ daysBeforeMonth d.year (d.month + 1) := d.dayOfYear_le_month
          _ ≤ daysBeforeMonth d.year e.month := daysBeforeMonth_mono (by omega) (by omega)
          _ = daysBeforeMonth e.year e.month := by rw [hyear]
          _ < e.dayOfYear := by unfold dayOfYear; omega
      · unfold dayOfYear
        rw [hyear, hmonth]
        omega
    rw [hyear]
    omega

theorem before_or_eq_or_before (d e : Date) : d.Before e ∨ d = e ∨ e.Before d := by
  have hequal : d.year = e.year → d.month = e.month → d.day = e.day → d = e := by
    obtain ⟨year, month, day, hd⟩ := d
    obtain ⟨year', month', day', he⟩ := e
    rintro rfl rfl rfl
    rfl
  unfold Before
  by_cases hsame : d.year = e.year ∧ d.month = e.month ∧ d.day = e.day
  · exact .inr (.inl (hequal hsame.1 hsame.2.1 hsame.2.2))
  · omega

/-- Dates are ordered as their numbers. -/
theorem dayNumber_lt_iff : d.dayNumber < e.dayNumber ↔ d.Before e := by
  refine ⟨fun h => ?_, dayNumber_lt_of_before⟩
  rcases before_or_eq_or_before d e with hbefore | rfl | hafter
  · exact hbefore
  · omega
  · have := dayNumber_lt_of_before hafter
    omega

theorem dayNumber_inj (h : d.dayNumber = e.dayNumber) : d = e := by
  rcases before_or_eq_or_before d e with hbefore | heq | hafter
  · have := dayNumber_lt_of_before hbefore
    omega
  · exact heq
  · have := dayNumber_lt_of_before hafter
    omega

/-! ## The range of dates -/

theorem firstDay_le_dayNumber (d : Date) : firstDay ≤ d.dayNumber := by
  obtain ⟨hyear, -⟩ := isDay_iff.mp d.exists_day
  have hyears := daysBeforeYear_mono hyear
  have hpos := d.dayOfYear_pos
  rw [dayNumber_eq, firstDay_eq]
  omega

theorem dayNumber_le_lastDay (d : Date) : d.dayNumber ≤ lastDay := by
  obtain ⟨-, hyear, -⟩ := isDay_iff.mp d.exists_day
  have hsucc := daysBeforeYear_succ d.year
  have hyears := daysBeforeYear_mono (show d.year + 1 ≤ lastYear + 1 by omega)
  have hplace := d.dayOfYear_le_year
  have hlast := lastDay_eq
  rw [dayNumber_eq]
  omega

/-- Every number between those of the first and the last day is the number of a date. -/
theorem exists_dayNumber {n : Int} (hfirst : firstDay ≤ n) (hlast : n ≤ lastDay) :
    ∃ d : Date, d.dayNumber = n := by
  have hstart := firstDay_eq
  have hend := lastDay_eq
  have hafterFirst : daysBeforeYear firstYear ≤ n + daysBeforeYear 1970 := by omega
  have hbeforeEnd : n + daysBeforeYear 1970 < daysBeforeYear (lastYear + 1) := by omega
  obtain ⟨year, place, hfirstYear, hlastYear, hwithin, hplace⟩ := exists_year hafterFirst hbeforeEnd
  obtain ⟨month, hmonth, hbefore, hafter⟩ := exists_month hwithin
  rw [daysBeforeMonth_succ year hmonth] at hafter
  have hday : isDay year month (place - daysBeforeMonth year month + 1) = true :=
    isDay_iff.mpr ⟨hfirstYear, hlastYear, hmonth, by omega, by omega⟩
  refine ⟨⟨year, month, _, hday⟩, ?_⟩
  show Calendar.dayNumber year month (place - daysBeforeMonth year month + 1) = n
  unfold Calendar.dayNumber
  omega

end Date

end IndexQuery
