import Mathlib.Logic.Function.Iterate
import Mathlib.Tactic.IntervalCases
import Mathlib.Tactic.Ring
import Mathlib.Tactic.SplitIfs

/-!
# The proleptic Gregorian calendar

Days as year, month and day of the month, numbered from the first of January of year 1 (`ordinal`,
day 1). The number goes up by one from a day to the `next`, and every number is a day's
(`exists_ordinal`), since the calendar repeats every 146097 days.
-/

namespace RustyBacnet.Gregorian

def isLeap (year : ℤ) : Bool := year % 4 == 0 && (year % 100 != 0 || year % 400 == 0)

theorem isLeap_iff {year : ℤ} :
    isLeap year = true ↔ year % 4 = 0 ∧ (year % 100 ≠ 0 ∨ year % 400 = 0) := by
  simp [isLeap]

/-- The days of a month, none for a number that names no month. -/
def monthLength (year : ℤ) : ℕ → ℕ
  | 1 => 31
  | 2 => if isLeap year then 29 else 28
  | 3 => 31
  | 4 => 30
  | 5 => 31
  | 6 => 30
  | 7 => 31
  | 8 => 31
  | 9 => 30
  | 10 => 31
  | 11 => 30
  | 12 => 31
  | _ => 0

structure Day where
  year : ℤ
  month : ℕ
  day : ℕ
  deriving DecidableEq

/-- The day exists. -/
structure Day.Valid (date : Day) : Prop where
  month_pos : 1 ≤ date.month
  month_le : date.month ≤ 12
  day_pos : 1 ≤ date.day
  day_le : date.day ≤ monthLength date.year date.month

def daysBefore (year : ℤ) : ℕ → ℤ
  | 0 => 0
  | month + 1 => daysBefore year month + monthLength year month

/-- The number of a day, counted from the first of January of year 1. -/
def Day.ordinal (date : Day) : ℤ :=
  365 * (date.year - 1) + (date.year - 1) / 4 - (date.year - 1) / 100 + (date.year - 1) / 400
    + daysBefore date.year date.month + date.day

def Day.next (date : Day) : Day :=
  if date.day < monthLength date.year date.month then ⟨date.year, date.month, date.day + 1⟩
  else if date.month < 12 then ⟨date.year, date.month + 1, 1⟩
  else ⟨date.year + 1, 1, 1⟩

theorem monthLength_pos {year : ℤ} {month : ℕ} (hpos : 1 ≤ month) (hle : month ≤ 12) :
    28 ≤ monthLength year month ∧ monthLength year month ≤ 31 := by
  interval_cases month <;> simp only [monthLength] <;> (try split_ifs) <;> omega

variable {month : ℕ} (year : ℤ)

theorem daysBefore_eq (hpos : 1 ≤ month) (hle : month ≤ 12) :
    daysBefore year month = if month ≤ 2 then 31 * (month - 1)
      else (153 * (month - 3) + 2) / 5 + 59 + if isLeap year then 1 else 0 := by
  by_cases hleap : isLeap year = true
  · interval_cases month <;> simp [daysBefore, monthLength, hleap]
  · interval_cases month <;> simp [daysBefore, monthLength, hleap]

@[simp] theorem daysBefore_one : daysBefore year 1 = 0 := rfl

theorem Day.valid_first : (⟨year, 1, 1⟩ : Day).Valid where
  month_pos := le_refl 1
  month_le := Nat.one_le_iff_ne_zero.mpr (by omega)
  day_pos := le_refl 1
  day_le := Nat.le_of_ble_eq_true rfl

variable {date : Day}

theorem Day.valid_next (h : date.Valid) : date.next.Valid := by
  obtain ⟨hpos, hle, hday, hlast⟩ := h
  unfold next
  split_ifs with hinside hmonth
  · exact ⟨hpos, hle, Nat.le_add_left _ _, hinside⟩
  · refine ⟨Nat.le_add_left _ _, hmonth, le_refl _, ?_⟩
    have := (@monthLength_pos date.year _ (Nat.le_add_left 1 date.month) hmonth).1
    dsimp only
    omega
  · exact valid_first _

theorem Day.ordinal_next (h : date.Valid) : date.next.ordinal = date.ordinal + 1 := by
  obtain ⟨hpos, hle, hday, hlast⟩ := h
  unfold next
  split_ifs with hinside hmonth
  · unfold ordinal
    push_cast
    ring
  · unfold ordinal
    have hwhole : date.day = monthLength date.year date.month := by omega
    rw [daysBefore, hwhole]
    push_cast
    ring
  · have hdecember : date.month = 12 := by omega
    have hwhole : date.day = 31 := by
      rw [hdecember] at hlast hinside
      simp only [monthLength] at hlast hinside
      omega
    unfold ordinal
    have hbefore : daysBefore date.year 12 = 334 + if isLeap date.year then 1 else 0 := by
      rw [daysBefore_eq date.year (by decide) (by decide), if_neg (by decide)]
      split_ifs <;> rfl
    rw [hdecember, hwhole, hbefore]
    have hleap := @isLeap_iff date.year
    by_cases hyear : isLeap date.year = true
    · have := hleap.mp hyear
      simp only [hyear, daysBefore_one, if_true]
      omega
    · have hcommon : ¬(date.year % 4 = 0 ∧ (date.year % 100 ≠ 0 ∨ date.year % 400 = 0)) :=
        fun h => hyear (hleap.mpr h)
      simp only [hyear, daysBefore_one, if_false, Bool.false_eq_true]
      omega

theorem Day.valid_iterate (h : date.Valid) (days : ℕ) : (next^[days] date).Valid ∧
    (next^[days] date).ordinal = date.ordinal + days := by
  induction days with
  | zero => exact ⟨h, (add_zero _).symm⟩
  | succ days ih =>
    rw [Function.iterate_succ_apply']
    refine ⟨valid_next ih.1, ?_⟩
    rw [ordinal_next ih.1, ih.2]
    push_cast
    ring

theorem exists_ordinal (number : ℤ) : ∃ date : Day, date.Valid ∧ date.ordinal = number := by
  set cycle := (number - 1) / 146097
  have hfirst : (⟨400 * cycle + 1, 1, 1⟩ : Day).Valid := Day.valid_first _
  have hnumber : (⟨400 * cycle + 1, 1, 1⟩ : Day).ordinal = 146097 * cycle + 1 := by
    unfold Day.ordinal
    simp only [daysBefore_one]
    omega
  obtain ⟨hvalid, hordinal⟩ := Day.valid_iterate hfirst (number - (146097 * cycle + 1)).toNat
  refine ⟨_, hvalid, ?_⟩
  rw [hordinal, hnumber]
  omega

/-- The day of the week, Monday 1 to Sunday 7: the first of January of year 1 was a Monday. -/
def Day.weekday (date : Day) : ℕ := ((date.ordinal - 1) % 7).toNat + 1

theorem daysBefore_bounds (hpos : 1 ≤ month) (hle : month ≤ 12) :
    0 ≤ daysBefore year month ∧ daysBefore year month ≤ 335 := by
  rw [daysBefore_eq year hpos hle]
  constructor
  · exact Int.natCast_nonneg _
  · split_ifs <;> push_cast <;> omega

theorem daysBefore_succ_le (hpos : 1 ≤ month) (hle : month ≤ 12) :
    daysBefore year (month + 1) ≤ 365 + if isLeap year then 1 else 0 := by
  by_cases hlast : month = 12
  · rw [hlast, daysBefore, daysBefore_eq year (by decide) (by decide), if_neg (by decide)]
    simp only [monthLength]
    split_ifs <;> norm_num
  · rw [daysBefore_eq year (Nat.le_add_left 1 month) (by omega)]
    split_ifs <;> push_cast <;> omega

theorem Day.ordinal_bounds (h : date.Valid) :
    365 * (date.year - 1) + (date.year - 1) / 4 - (date.year - 1) / 100 + (date.year - 1) / 400
        < date.ordinal ∧
      date.ordinal ≤ 365 * date.year + date.year / 4 - date.year / 100 + date.year / 400 := by
  have hbefore := (daysBefore_bounds date.year h.month_pos h.month_le).1
  have hthrough := daysBefore_succ_le date.year h.month_pos h.month_le
  have hleap := @isLeap_iff date.year
  have hpos := h.day_pos
  have hle := h.day_le
  rw [daysBefore] at hthrough
  unfold ordinal
  constructor
  · omega
  · by_cases hyear : isLeap date.year = true
    · have := hleap.mp hyear
      rw [if_pos hyear] at hthrough
      omega
    · rw [if_neg hyear] at hthrough
      omega

/-- A day of a year is before the first of January of a later one, and no other is. -/
theorem Day.ordinal_lt_first (h : date.Valid) (year : ℤ) :
    date.ordinal < (⟨year, 1, 1⟩ : Day).ordinal ↔ date.year < year := by
  have hbounds := ordinal_bounds h
  have hfirst : (⟨year, 1, 1⟩ : Day).ordinal
      = 365 * (year - 1) + (year - 1) / 4 - (year - 1) / 100 + (year - 1) / 400 + 1 := by
    unfold ordinal
    rw [daysBefore_one]
    norm_num
  rw [hfirst]
  constructor <;> intro hlt <;> omega

end RustyBacnet.Gregorian
