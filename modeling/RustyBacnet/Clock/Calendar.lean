import RustyBacnet.Clock.Synced
import RustyBacnet.Lib.Gregorian

/-!
# The 32-bit calendar

Between 1970-01-01 and a day lie its ordinal less 719163 days, and the two conversions of the source
go back and forth between a day and that number without a step overflowing.

A year that starts in March has its leap day at the end, so 400 of them come apart as centuries,
groups of four and years of 365 days (`yearOfEra_eq`), and its months as `(153 * month + 2) / 5`
days.
-/

namespace RustyBacnet.Clock

open Gregorian

variable {value : ℤ}

theorem i32_eq (h : -2147483648 ≤ value ∧ value ≤ 2147483647) : i32 value = some value :=
  if_pos h

theorem u32_eq (h : 0 ≤ value ∧ value ≤ 4294967295) : u32 value = some value := if_pos h

variable {α : Type}

theorem i32_bind {rest : ℤ → Option α} (h : -2147483648 ≤ value ∧ value ≤ 2147483647) :
    (i32 value >>= rest) = rest value := by
  rw [i32_eq h]
  rfl

theorem u32_bind {rest : ℤ → Option α} (h : 0 ≤ value ∧ value ≤ 4294967295) :
    (u32 value >>= rest) = rest value := by
  rw [u32_eq h]
  rfl

/-! ## From a day to its number -/

/-- A day's year as March years count it, and how many days of it have passed. -/
structure MarchDay where
  year : ℤ
  month : ℤ
  day : ℤ

def marchDay (date : Day) : MarchDay where
  year := date.year - if date.month ≤ 2 then 1 else 0
  month := if 2 < date.month then date.month - 3 else date.month + 9
  day := date.day

def MarchDay.dayOfYear (march : MarchDay) : ℤ := (153 * march.month + 2) / 5 + march.day - 1

structure MarchDay.Bounds (march : MarchDay) : Prop where
  month_nonneg : 0 ≤ march.month
  month_le : march.month ≤ 11
  day_pos : 1 ≤ march.day
  month_end : (153 * march.month + 2) / 5 + march.day ≤ (153 * (march.month + 1) + 2) / 5
  year_end : march.dayOfYear ≤ 364 ∨ march.dayOfYear = 365 ∧ isLeap (march.year + 1) = true

variable {date : Day}

theorem marchDay_bounds (h : date.Valid) : (marchDay date).Bounds := by
  obtain ⟨year, month, day⟩ := date
  obtain ⟨hpos, hle, hday, hlast⟩ := h
  dsimp only at hpos hle hday hlast
  unfold marchDay
  refine ⟨?_, ?_, ?_, ?_, ?_⟩
  · dsimp only
    split_ifs <;> omega
  · dsimp only
    split_ifs <;> omega
  · show (1 : ℤ) ≤ (day : ℤ)
    exact_mod_cast hday
  · have hfebruary : monthLength year 2 ≤ 29 := by
      simp only [monthLength]
      split_ifs <;> decide
    interval_cases month <;> simp only [monthLength] at hlast hfebruary <;> norm_num <;> omega
  · unfold MarchDay.dayOfYear
    dsimp only
    by_cases hleapDay : month = 2 ∧ day = 29
    · obtain ⟨rfl, rfl⟩ := hleapDay
      refine .inr ⟨rfl, ?_⟩
      rw [if_pos (le_refl 2), Int.sub_add_cancel]
      simp only [monthLength] at hlast
      split_ifs at hlast with hleap
      · exact hleap
      · omega
    · left
      interval_cases month <;> simp only [monthLength] at hlast <;> norm_num <;>
        (try split_ifs at hlast) <;> omega

theorem ordinal_march (h : date.Valid) :
    date.ordinal - 719163 = 365 * (marchDay date).year + (marchDay date).year / 4
      - (marchDay date).year / 100 + (marchDay date).year / 400 + (marchDay date).dayOfYear
      - 719468 := by
  obtain ⟨year, month, day⟩ := date
  obtain ⟨hpos, hle, -, -⟩ := h
  dsimp only at hpos hle
  have hyear := @isLeap_iff year
  unfold Day.ordinal marchDay MarchDay.dayOfYear
  dsimp only
  rw [daysBefore_eq year hpos hle]
  by_cases hearly : month ≤ 2
  · rw [if_pos hearly, if_pos hearly, if_neg (Nat.not_lt.mpr hearly)]
    interval_cases month
    · norm_num
      omega
    · norm_num
      omega
  · rw [if_neg hearly, if_neg hearly, if_pos (Nat.lt_of_not_le hearly)]
    by_cases hleap : isLeap year = true
    · have hcommon := hyear.mp hleap
      rw [if_pos hleap]
      push_cast [Nat.cast_sub (Nat.le_of_lt (Nat.lt_of_not_le hearly))]
      omega
    · have hcommon : ¬(year % 4 = 0 ∧ (year % 100 ≠ 0 ∨ year % 400 = 0)) :=
        fun h => hleap (hyear.mpr h)
      rw [if_neg hleap]
      omega

/-- A date's year as the source numbers it, within which no step overflows. -/
def InYears (date : Day) : Prop := -5000000 ≤ date.year ∧ date.year ≤ 5000000

theorem toNat_ofNat_month {month : ℕ} (h : month ≤ 12) : (UInt8.ofNat month).toNat = month :=
  Nat.mod_eq_of_lt (by omega)

theorem monthLength_le (year : ℤ) (month : ℕ) : monthLength year month ≤ 31 := by
  by_cases hmonth : 1 ≤ month ∧ month ≤ 12
  · exact (monthLength_pos hmonth.1 hmonth.2).2
  · unfold monthLength
    split <;> omega

/-- The number of a day. -/
theorem daysFromCivil_eq (h : date.Valid) (hyears : InYears date) :
    daysFromCivil date.year (UInt8.ofNat date.month) (UInt8.ofNat date.day)
      = some (date.ordinal - 719163) := by
  have hbounds := marchDay_bounds h
  have hordinal := ordinal_march h
  obtain ⟨year, month, day⟩ := date
  obtain ⟨hpos, hle, hday, hlast⟩ := h
  dsimp only at hpos hle hday hlast
  have hmonth : (UInt8.ofNat month).toNat = month := toNat_ofNat_month hle
  have hdays : (UInt8.ofNat day).toNat = day := by
    have := monthLength_le year month
    exact Nat.mod_eq_of_lt (by omega)
  have hearly : (UInt8.ofNat month ≤ 2) ↔ month ≤ 2 := by
    rw [UInt8.le_iff_toNat_le, hmonth]
    rfl
  have hlate : (UInt8.ofNat month > 2) ↔ 2 < month := by
    rw [gt_iff_lt, UInt8.lt_iff_toNat_lt, hmonth]
    rfl
  set march := marchDay ⟨year, month, day⟩ with hmarch
  obtain ⟨hm0, hm11, hd1, hend, hyearEnd⟩ := hbounds
  have hyear : year - (if month ≤ 2 then 1 else 0) = march.year := rfl
  have hshift : (if 2 < month then (month : ℤ) - 3 else month + 9) = march.month := rfl
  have hthrough : (day : ℤ) = march.day := rfl
  have hy : -5000001 ≤ march.year ∧ march.year ≤ 5000000 := by
    unfold InYears at hyears
    dsimp only at hyears
    rw [← hyear]
    split_ifs <;> omega
  have hfirst : march.dayOfYear = (153 * march.month + 2) / 5 + march.day - 1 := rfl
  have hleap := @isLeap_iff (march.year + 1)
  have hscaled : (153 * march.month + 2).tdiv 5 = (153 * march.month + 2) / 5 :=
    Int.tdiv_eq_ediv_of_nonneg (by omega)
  have hfours : (march.year - march.year / 400 * 400).tdiv 4
      = (march.year - march.year / 400 * 400) / 4 := Int.tdiv_eq_ediv_of_nonneg (by omega)
  have hcenturies : (march.year - march.year / 400 * 400).tdiv 100
      = (march.year - march.year / 400 * 400) / 100 := Int.tdiv_eq_ediv_of_nonneg (by omega)
  rw [hordinal]
  unfold daysFromCivil
  simp only [hearly, hlate, hmonth, hdays, hyear, hshift, hthrough]
  have hday365 : 0 ≤ march.dayOfYear ∧ march.dayOfYear ≤ 365 := by omega
  rw [hfirst] at hday365 ⊢
  clear_value march
  obtain ⟨y, m, d⟩ := march
  refine (i32_bind (by omega)).trans ?_
  refine (i32_bind (by omega)).trans ?_
  refine (i32_bind (by omega)).trans ?_
  refine (i32_bind (by omega)).trans ?_
  refine (i32_bind (by omega)).trans ?_
  refine (i32_bind (by omega)).trans ?_
  rw [hscaled]
  refine (i32_bind (by omega)).trans ?_
  refine (i32_bind (by omega)).trans ?_
  refine (i32_bind (by omega)).trans ?_
  rw [hfours]
  refine (i32_bind (by omega)).trans ?_
  rw [hcenturies]
  refine (i32_bind (by omega)).trans ?_
  refine (i32_bind (by omega)).trans ?_
  refine (i32_bind (by omega)).trans ?_
  refine (i32_bind (by omega)).trans ?_
  rw [i32_eq (by omega)]
  congr 1
  omega

/-! ## From a number to its day -/

variable {years : ℤ}

/-- The year of 400 that a day of it is in. -/
theorem yearOfEra_eq {dayOfYear dayOfEra : ℤ} (hpos : 0 ≤ years) (hlt : years < 400)
    (hday : 0 ≤ dayOfYear) (hlast : dayOfYear ≤ 364 ∨ dayOfYear = 365 ∧ (years + 1) % 4 = 0 ∧
      ((years + 1) % 100 ≠ 0 ∨ (years + 1) % 400 = 0))
    (hera : dayOfEra = 365 * years + years / 4 - years / 100 + dayOfYear) :
    (dayOfEra - dayOfEra / 1460 + dayOfEra / 36524 - dayOfEra / 146096) / 365 = years := by
  -- centuries, groups of four years and single years
  obtain ⟨century, hcentury⟩ : ∃ century, century = years / 100 := ⟨_, rfl⟩
  obtain ⟨group, hgroup⟩ : ∃ group, group = years % 100 / 4 := ⟨_, rfl⟩
  obtain ⟨single, hsingle⟩ : ∃ single, single = years % 4 := ⟨_, rfl⟩
  have hyears : years = 100 * century + 4 * group + single := by omega
  have hdays : dayOfEra = 36524 * century + 1461 * group + 365 * single + dayOfYear := by omega
  have hcenturies : dayOfEra / 36524 - dayOfEra / 146096 = century := by
    have hlong : dayOfEra - 36524 * century ≤ 36523 ∨ century = 3 ∧ dayOfEra = 146096 := by
      rcases hlast with hshort | ⟨hlong, hfour, hcommon⟩
      · exact .inl (by omega)
      · by_cases hlastYear : group = 24 ∧ single = 3
        · exact .inr (by omega)
        · exact .inl (by omega)
    rcases hlong with hbelow | ⟨hfourth, hend⟩
    · have hnone : dayOfEra / 146096 = 0 := by omega
      omega
    · rw [hfourth, hend]
      rfl
  have hextra : ∃ extra, (extra = 0 ∨ extra = 1) ∧
      dayOfEra / 1460 = 25 * century + group + extra ∧
      0 ≤ dayOfYear - extra ∧ dayOfYear - extra ≤ 364 := by
    by_cases hfull : 24 * century + group + 365 * single + dayOfYear < 1460
    · exact ⟨0, .inl rfl, by omega, by omega, by omega⟩
    · exact ⟨1, .inr rfl, by omega, by omega, by omega⟩
  obtain ⟨extra, -, hfours, hnonneg, hbelow⟩ := hextra
  have hsum : dayOfEra - dayOfEra / 1460 + dayOfEra / 36524 - dayOfEra / 146096
      = 365 * years + (dayOfYear - extra) := by omega
  rw [hsum]
  omega

theorem era_split (year : ℤ) : 365 * year + year / 4 - year / 100 + year / 400
    = year / 400 * 146097 + (365 * (year - year / 400 * 400) + (year - year / 400 * 400) / 4
      - (year - year / 400 * 400) / 100) := by
  omega

theorem dayOfEra_le {dayOfYear : ℤ} (hpos : 0 ≤ years) (hlt : years < 400)
    (hday : 0 ≤ dayOfYear ∧ dayOfYear ≤ 365) :
    0 ≤ 365 * years + years / 4 - years / 100 + dayOfYear ∧
      365 * years + years / 4 - years / 100 + dayOfYear ≤ 146096 := by
  omega

theorem shiftedMonth_eq {month day : ℤ} (hday : 1 ≤ day)
    (hend : (153 * month + 2) / 5 + day ≤ (153 * (month + 1) + 2) / 5) :
    (5 * ((153 * month + 2) / 5 + day - 1) + 2) / 153 = month := by
  omega

/-- The day of a number. -/
theorem civil_eq (h : date.Valid) (hyears : InYears date) :
    civil (date.ordinal - 719163)
      = some (date.year, UInt8.ofNat date.month, UInt8.ofNat date.day) := by
  have hbounds := marchDay_bounds h
  have hordinal := ordinal_march h
  obtain ⟨year, month, day⟩ := date
  obtain ⟨hpos, hle, hday, hlast⟩ := h
  set march := marchDay ⟨year, month, day⟩ with hmarch
  obtain ⟨hm0, hm11, hd1, hend, hyearEnd⟩ := hbounds
  have hyear : march.year = year - (if month ≤ 2 then 1 else 0) := rfl
  have hshift : march.month = (if 2 < month then (month : ℤ) - 3 else month + 9) := rfl
  have hthrough : march.day = (day : ℤ) := rfl
  have hy : -5000001 ≤ march.year ∧ march.year ≤ 5000000 := by
    unfold InYears at hyears
    dsimp only at hyears
    rw [hyear]
    split_ifs <;> omega
  have hfirst : march.dayOfYear = (153 * march.month + 2) / 5 + march.day - 1 := rfl
  have hleap := @isLeap_iff (march.year + 1)
  have hmonth := shiftedMonth_eq hd1 hend
  rw [hordinal]
  clear_value march
  obtain ⟨y, m, d⟩ := march
  dsimp only at *
  obtain ⟨era, hera⟩ : ∃ era, era = y / 400 := ⟨_, rfl⟩
  obtain ⟨years, hyearsEq⟩ : ∃ years, years = y - era * 400 := ⟨_, rfl⟩
  obtain ⟨passed, hpassed⟩ : ∃ passed, passed = MarchDay.dayOfYear ⟨y, m, d⟩ := ⟨_, rfl⟩
  rw [← hpassed] at hfirst hyearEnd ⊢
  obtain ⟨dayOfEra, hdayOfEra⟩ : ∃ dayOfEra,
      dayOfEra = 365 * years + years / 4 - years / 100 + passed := ⟨_, rfl⟩
  have hpassed0 : 0 ≤ passed := by omega
  have hpassedEnd : passed ≤ 364 ∨ passed = 365 ∧ (years + 1) % 4 = 0 ∧
      ((years + 1) % 100 ≠ 0 ∨ (years + 1) % 400 = 0) := by
    rcases hyearEnd with hshort | ⟨hlong, hleaps⟩
    · exact .inl hshort
    · have := hleap.mp hleaps
      omega
  have hyears0 : 0 ≤ years ∧ years < 400 := by omega
  have hdays : 0 ≤ dayOfEra ∧ dayOfEra ≤ 146096 := by
    rw [hdayOfEra]
    exact dayOfEra_le hyears0.1 hyears0.2 ⟨hpassed0, by omega⟩
  have hwhole := yearOfEra_eq hyears0.1 hyears0.2 hpassed0 hpassedEnd hdayOfEra
  have hnumber : 365 * y + y / 4 - y / 100 + y / 400 + passed - 719468
      = era * 146097 + dayOfEra - 719468 := by
    rw [era_split, ← hera, ← hyearsEq, hdayOfEra]
    ring
  rw [hnumber]
  have heraBound : -12501 ≤ era ∧ era ≤ 12500 := by omega
  have hcycle : (era * 146097 + dayOfEra - 719468 + 719468) / 146097 = era := by omega
  have hin : era * 146097 + dayOfEra - 719468 + 719468 - era * 146097 = dayOfEra := by omega
  have hdiv : ∀ {a : ℤ} (b : ℤ), 0 ≤ a → a.tdiv b = a / b :=
    fun b ha => Int.tdiv_eq_ediv_of_nonneg ha
  refine (i32_bind (by omega)).trans ?_
  dsimp only
  rw [hcycle]
  refine (i32_bind (by omega)).trans ?_
  rw [hin]
  refine (i32_bind (by omega)).trans ?_
  rw [hdiv 1460 hdays.1, hdiv 36524 hdays.1, hdiv 146096 hdays.1]
  have hquotients : (0 ≤ dayOfEra / 1460 ∧ dayOfEra / 1460 ≤ 101) ∧
      (0 ≤ dayOfEra / 36524 ∧ dayOfEra / 36524 ≤ 4) ∧
      0 ≤ dayOfEra / 146096 ∧ dayOfEra / 146096 ≤ 1 := by
    clear hwhole
    omega
  refine (i32_bind (by clear hwhole; omega)).trans ?_
  refine (i32_bind (by clear hwhole; omega)).trans ?_
  refine (i32_bind (by clear hwhole; omega)).trans ?_
  rw [hdiv 365 (by clear hwhole; omega), hwhole]
  clear hwhole hquotients hcycle hin hnumber hleap
  rw [hdiv 4 hyears0.1, hdiv 100 hyears0.1]
  refine (i32_bind (by omega)).trans ?_
  refine (i32_bind (by omega)).trans ?_
  refine (i32_bind (by omega)).trans ?_
  have hrest : dayOfEra - (365 * years + years / 4 - years / 100) = passed := by omega
  rw [hrest]
  refine (i32_bind (by omega)).trans ?_
  refine (i32_bind (by omega)).trans ?_
  refine (i32_bind (by omega)).trans ?_
  rw [hdiv 153 (by omega), hfirst, hmonth, ← hfirst]
  refine (i32_bind (by omega)).trans ?_
  refine (i32_bind (by omega)).trans ?_
  rw [hdiv 5 (by omega)]
  have hback : passed - (153 * m + 2) / 5 + 1 = day := by omega
  refine (i32_bind (by omega)).trans ?_
  rw [hback]
  refine (i32_bind (by omega)).trans ?_
  have hnamed : (if m < 10 then m + 3 else m - 9) = (month : ℤ) := by
    rw [hshift]
    split_ifs <;> omega
  rw [hnamed]
  refine (i32_bind (by omega)).trans ?_
  refine (i32_bind (by omega)).trans ?_
  refine (i32_bind (by omega)).trans ?_
  have hshort : ((month : ℤ) ≤ 2) ↔ month ≤ 2 := by omega
  have hfinal : years + era * 400 + (if (month : ℤ) ≤ 2 then 1 else 0) = year := by
    rw [if_congr hshort rfl rfl]
    split_ifs at hyear ⊢ <;> omega
  refine (i32_bind (by rw [hfinal]; unfold InYears at hyears; dsimp only at hyears; omega)).trans ?_
  rw [hfinal]
  have hcast : ∀ n : ℕ, n ≤ 31 → asU8 (n : ℤ) = UInt8.ofNat n := by
    intro n hn
    unfold asU8
    congr 1
    omega
  have hdayLe := monthLength_le year month
  rw [hcast month (by omega), hcast day (by omega)]

/-- The day numbers that no conversion overflows on. -/
def InNumbers (number : ℤ) : Prop := -1800000000 ≤ number ∧ number ≤ 1800000000

theorem inYears_of_ordinal (h : date.Valid) (hnumber : InNumbers (date.ordinal - 719163)) :
    InYears date := by
  have hbounds := Day.ordinal_bounds h
  unfold InNumbers at hnumber
  unfold InYears
  omega

/-- Every number in range is a day's, and the conversions go from one to the other. -/
theorem civil_inverse {number : ℤ} (h : InNumbers number) :
    ∃ date : Day, date.Valid ∧ date.ordinal = number + 719163 ∧
      civil number = some (date.year, UInt8.ofNat date.month, UInt8.ofNat date.day) ∧
      daysFromCivil date.year (UInt8.ofNat date.month) (UInt8.ofNat date.day) = some number := by
  obtain ⟨date, hvalid, hordinal⟩ := exists_ordinal (number + 719163)
  have hnumber : date.ordinal - 719163 = number := by omega
  have hyears := inYears_of_ordinal hvalid (hnumber.symm ▸ h)
  refine ⟨date, hvalid, hordinal, ?_, ?_⟩
  · rw [← hnumber]
    exact civil_eq hvalid hyears
  · rw [← hnumber]
    exact daysFromCivil_eq hvalid hyears

theorem weekday_eq (h : InNumbers (date.ordinal - 719163)) :
    weekday (date.ordinal - 719163) = some (UInt8.ofNat date.weekday) := by
  unfold InNumbers at h
  unfold weekday
  refine (i32_bind (by omega)).trans ?_
  have hshift : (date.ordinal - 719163 + 3) % 7 = (date.ordinal - 1) % 7 := by omega
  unfold Day.weekday asU8
  rw [hshift]
  have hlow : ((date.ordinal - 1) % 7 % 256).toNat = ((date.ordinal - 1) % 7).toNat := by omega
  rw [hlow, UInt8.ofNat_add]
  rfl

end RustyBacnet.Clock
