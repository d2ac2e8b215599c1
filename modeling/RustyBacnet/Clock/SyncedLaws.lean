import RustyBacnet.Clock.Calendar

/-!
# The Device's clock tells calendar time

A date and time stand for the hundredths of a second since the calendar's origin (`moment`), and a
set clock holds nothing but such a count (`SyncedClock.count`). Every carry of the source, at the
anchor, over the time elapsed and into the zone, is the division of one count by the day, so a frame
shows the count it was set to, moved by the zone and by the time since (`frame_moment`).
-/

namespace RustyBacnet.Clock

open Gregorian Encoding

/-! ## What a date and a time stand for -/

def named (date : Date) : Day := ⟨1900 + (date.year.toNat : ℤ), date.month.toNat, date.day.toNat⟩

def hundredthsOf (time : Time) : ℤ :=
  360000 * time.hour.toNat + 6000 * time.minute.toNat + 100 * time.second.toNat
    + time.hundredths.toNat

/-- The hundredths from the calendar's origin to a date and time. -/
def moment (date : Date) (time : Time) : ℤ := (named date).ordinal * day + hundredthsOf time

/-- A real date of 1900 to 2154 with its own weekday, and a time with every field in range. -/
structure Specific (date : Date) (time : Time) : Prop where
  real : (named date).Valid
  year_le : (named date).year ≤ 2154
  weekday : date.dayOfWeek.toNat = (named date).weekday
  hour_le : time.hour.toNat ≤ 23
  minute_le : time.minute.toNat ≤ 59
  second_le : time.second.toNat ≤ 59
  hundredths_le : time.hundredths.toNat ≤ 99

def firstMoment (year : ℤ) : ℤ := (⟨year, 1, 1⟩ : Day).ordinal * day

def Zone.shift (zone : Zone) : ℤ := (if zone.daylightSavings then hour else 0) - zone.utcOffset * minute

/-- What is added to a time set on the basis for local time. -/
def Basis.shift (zone : Zone) : Basis → ℤ
  | .local_ => 0
  | .utc => zone.shift

variable (zone : Zone)

theorem Basis.shift_local : local_.shift zone = 0 := rfl

theorem Basis.shift_utc : utc.shift zone = zone.shift := rfl

theorem Zone.shift_bounds : -8640000 ≤ zone.shift ∧ zone.shift ≤ 9000000 := by
  have hrange := zone.range
  unfold shift hour minute
  split_ifs <;> omega

theorem Zone.toLocal_eq : zone.toLocal = some zone.shift := by
  have hrange := zone.range
  unfold toLocal shift hour minute
  refine (i32_bind (by omega)).trans ?_
  split_ifs <;> exact i32_eq (by omega)

/-! ## The dates and times a clock accepts -/

theorem isLeapYear_eq (year : ℕ) : isLeapYear year = isLeap year := by
  rw [Bool.eq_iff_iff, isLeap_iff]
  simp only [isLeapYear, Bool.and_eq_true, Bool.or_eq_true, beq_iff_eq, bne_iff_ne]
  omega

theorem daysInMonth_eq (year : ℕ) (month : UInt8) :
    (daysInMonth year month).toNat = monthLength year month.toNat := by
  obtain ⟨number, hlt, rfl⟩ : ∃ number < 256, month = UInt8.ofNat number :=
    ⟨month.toNat, month.toNat_lt, UInt8.ofNat_toNat.symm⟩
  have hnumber : (UInt8.ofNat number).toNat = number := UInt8.toNat_ofNat_of_lt' hlt
  by_cases hmonth : 1 ≤ number ∧ number ≤ 12
  · obtain ⟨hpos, hle⟩ := hmonth
    have hfebruary : (daysInMonth year 2).toNat = monthLength year 2 := by
      show (if isLeapYear year then (29 : UInt8) else 28).toNat = if isLeap year then 29 else 28
      rw [isLeapYear_eq]
      split_ifs <;> rfl
    interval_cases number <;> first | rfl | exact hfebruary
  · have hne : ∀ named : ℕ, 1 ≤ named → named ≤ 12 → UInt8.ofNat number ≠ UInt8.ofNat named := by
      intro named hpos hle heq
      have := congrArg UInt8.toNat heq
      rw [hnumber, UInt8.toNat_ofNat_of_lt' (show named < 256 by omega)] at this
      omega
    have hnone : monthLength year number = 0 := by
      unfold monthLength
      split <;> first | rfl | omega
    rw [hnumber, hnone]
    unfold daysInMonth
    rw [if_neg, if_neg, if_neg]
    · rfl
    · exact hne 2 (by decide) (by decide)
    · rintro (h | h | h | h)
      · exact hne 4 (by decide) (by decide) h
      · exact hne 6 (by decide) (by decide) h
      · exact hne 9 (by decide) (by decide) h
      · exact hne 11 (by decide) (by decide) h
    · rintro (h | h | h | h | h | h | h)
      · exact hne 1 (by decide) (by decide) h
      · exact hne 3 (by decide) (by decide) h
      · exact hne 5 (by decide) (by decide) h
      · exact hne 7 (by decide) (by decide) h
      · exact hne 8 (by decide) (by decide) h
      · exact hne 10 (by decide) (by decide) h
      · exact hne 12 (by decide) (by decide) h

variable {date : Date}

theorem daysFromCivil_named (h : (named date).Valid) :
    daysFromCivil (1900 + (date.year.toNat : ℤ)) date.month date.day
      = some ((named date).ordinal - 719163) := by
  have hyear := date.year.toNat_lt
  have hnumber := daysFromCivil_eq h (by unfold InYears named; dsimp only; omega)
  unfold named at hnumber
  rw [UInt8.ofNat_toNat, UInt8.ofNat_toNat] at hnumber
  exact hnumber

theorem ordinal_named (h : (named date).Valid) :
    693596 ≤ (named date).ordinal ∧ (named date).ordinal ≤ 787098 := by
  have hbounds := Day.ordinal_bounds h
  have hyear := date.year.toNat_lt
  have hnamed : (named date).year = 1900 + date.year.toNat := rfl
  omega

variable {time : Time}

theorem hundredthsOf_bounds (h : Specific date time) :
    0 ≤ hundredthsOf time ∧ hundredthsOf time < day := by
  obtain ⟨-, -, -, hhour, hminute, hsecond, hhundredths⟩ := h
  unfold hundredthsOf day
  omega

/-- A date and time that are specific, as their day's number and the hundredths of it. -/
theorem specific_eq (h : Specific date time) :
    specific date time = some (.ok ((named date).ordinal - 719163, hundredthsOf time)) := by
  have hordinal := ordinal_named h.real
  have hnumber := daysFromCivil_named h.real
  have hmonth := daysInMonth_eq (1900 + date.year.toNat) date.month
  have hyear := h.year_le
  obtain ⟨⟨-, -, hday, hlast⟩, -, hweekday, hhour, hminute, hsecond, hhundredths⟩ := h
  have hknown : date.year ≠ 0xFF := by
    intro heq
    unfold named at hyear
    rw [heq] at hyear
    exact absurd hyear (show ¬(1900 + ((0xFF : UInt8).toNat : ℤ) ≤ 2154) by decide)
  have hright : weekday ((named date).ordinal - 719163) = some date.dayOfWeek := by
    rw [weekday_eq (by unfold InNumbers; omega), ← hweekday, UInt8.ofNat_toNat]
  unfold specific Encoding.Date.actualYear
  rw [if_neg hknown]
  dsimp only
  rw [if_neg]
  · push_cast
    rw [hnumber, Option.bind_eq_bind, Option.bind_some, hright, Option.bind_eq_bind,
      Option.bind_some, if_neg (not_not_intro rfl), if_neg]
    · unfold hundredthsOf hour minute
      refine (i32_bind (by omega)).trans ?_
      refine (i32_bind (by omega)).trans ?_
      refine (i32_bind (by omega)).trans ?_
      refine (i32_bind (by omega)).trans ?_
      refine (i32_bind (by omega)).trans ?_
      refine (i32_bind (by omega)).trans ?_
      congr 3
      omega
    · simp only [gt_iff_lt, UInt8.lt_iff_toNat_lt, not_or, not_lt]
      exact ⟨hhour, hminute, hsecond, hhundredths⟩
  · rw [not_or, gt_iff_lt, UInt8.lt_iff_toNat_lt, not_lt, hmonth]
    refine ⟨?_, by exact_mod_cast hlast⟩
    intro hzero
    unfold named at hday
    rw [hzero] at hday
    exact absurd hday (show ¬1 ≤ (0 : UInt8).toNat by decide)

/-- Any other date and time are refused. -/
theorem specific_refused (h : ¬Specific date time) :
    ∃ refused, specific date time = some (.error refused) := by
  unfold specific Encoding.Date.actualYear
  by_cases hknown : date.year = 0xFF
  · rw [if_pos hknown]
    exact ⟨_, rfl⟩
  rw [if_neg hknown]
  dsimp only
  by_cases hreal : date.day = 0 ∨ date.day > daysInMonth (1900 + date.year.toNat) date.month
  · rw [if_pos hreal]
    exact ⟨_, rfl⟩
  rw [if_neg hreal]
  have hmonth := daysInMonth_eq (1900 + date.year.toNat) date.month
  rw [not_or, gt_iff_lt, UInt8.lt_iff_toNat_lt, not_lt, hmonth] at hreal
  obtain ⟨hzero, hlast⟩ := hreal
  have hday : 1 ≤ date.day.toNat := by
    by_contra hnone
    exact hzero (UInt8.toNat_inj.mp (by rw [UInt8.toNat_zero]; omega))
  have hvalid : (named date).Valid := by
    have hin : 1 ≤ date.month.toNat ∧ date.month.toNat ≤ 12 := by
      by_contra hout
      have hnone : monthLength ((1900 + date.year.toNat : ℕ) : ℤ) date.month.toNat = 0 := by
        unfold monthLength
        split <;> first | rfl | omega
      omega
    exact ⟨hin.1, hin.2, hday, by exact_mod_cast hlast⟩
  have hordinal := ordinal_named hvalid
  push_cast
  rw [daysFromCivil_named hvalid, Option.bind_eq_bind, Option.bind_some,
    weekday_eq (by unfold InNumbers; omega), Option.bind_eq_bind, Option.bind_some]
  by_cases hweekday : date.dayOfWeek ≠ UInt8.ofNat (named date).weekday
  · rw [if_pos hweekday]
    exact ⟨_, rfl⟩
  rw [if_neg hweekday]
  by_cases htime : time.hour > 23 ∨ time.minute > 59 ∨ time.second > 59 ∨ time.hundredths > 99
  · rw [if_pos htime]
    exact ⟨_, rfl⟩
  simp only [gt_iff_lt, UInt8.lt_iff_toNat_lt, not_or, not_lt] at htime
  refine absurd ⟨hvalid, ?_, ?_, htime.1, htime.2.1, htime.2.2.1, htime.2.2.2⟩ h
  · have hyear : date.year.toNat ≠ 255 := fun heq => hknown (UInt8.toNat_inj.mp heq)
    have hlt := date.year.toNat_lt
    show 1900 + (date.year.toNat : ℤ) ≤ 2154
    omega
  · rw [not_not.mp hweekday]
    refine UInt8.toNat_ofNat_of_lt' ?_
    unfold Day.weekday
    show _ < 256
    omega

theorem asU8_toNat {value : ℤ} (h : 0 ≤ value ∧ value < 256) : ((asU8 value).toNat : ℤ) = value := by
  unfold asU8
  rw [UInt8.toNat_ofNat_of_lt' (show (value % 256).toNat < 256 by omega)]
  omega

theorem firstMoment_1900 : firstMoment 1900 = 693596 * day := rfl

theorem firstMoment_2155 : firstMoment 2155 = 786733 * day := rfl

theorem moment_range (h : Specific date time) :
    firstMoment 1900 ≤ moment date time ∧ moment date time < firstMoment 2155 := by
  have hbounds := hundredthsOf_bounds h
  have hordinal := (ordinal_named h.real).1
  have hyear := (Day.ordinal_lt_first h.real 2155).mpr (by have := h.year_le; omega)
  have hlast : (⟨2155, 1, 1⟩ : Day).ordinal = 786733 := rfl
  rw [firstMoment_1900, firstMoment_2155]
  unfold moment day at *
  omega

theorem named_date {shown : Day} (hvalid : shown.Valid) (hfirst : 1900 ≤ shown.year)
    (hlast : shown.year ≤ 2154) (dayOfWeek : UInt8) :
    named ⟨asU8 (shown.year - 1900), UInt8.ofNat shown.month, UInt8.ofNat shown.day, dayOfWeek⟩
      = shown := by
  obtain ⟨year, month, dayOfMonth⟩ := shown
  obtain ⟨-, hmonth, -, hday⟩ := hvalid
  have hlength := monthLength_le year month
  dsimp only at *
  unfold named
  dsimp only
  rw [asU8_toNat (by omega), UInt8.toNat_ofNat_of_lt' (show month < 256 by omega),
    UInt8.toNat_ofNat_of_lt' (show dayOfMonth < 256 by omega)]
  congr 1
  omega

/-! ## What a clock shows -/

namespace SyncedClock

/-- The clock's anchor, as hundredths of UTC since 1970-01-01. -/
def count (clock : SyncedClock) : ℤ := clock.day * Clock.day + clock.hundredths

/-- The hundredths the clock counts from its anchor; its seconds stop at 2^32 - 1. -/
def passed (clock : SyncedClock) (now : Instant) : ℤ :=
  let elapsed : ℕ := now - clock.at_
  (min (elapsed / 1000000000) 4294967295 * 100 + elapsed % 1000000000 / 10000000 : ℕ)

def localMoment (clock : SyncedClock) (now : Instant) : ℤ :=
  719163 * Clock.day + clock.count + clock.zone.shift + clock.passed now

/-- The anchor is in or near the years of BACnet dates. -/
structure Kept (clock : SyncedClock) : Prop where
  first : -30000 ≤ clock.day
  last : clock.day ≤ 80000
  hundredths_nonneg : 0 ≤ clock.hundredths
  hundredths_lt : clock.hundredths < Clock.day

theorem passed_bounds (clock : SyncedClock) (now : Instant) :
    0 ≤ clock.passed now ∧ clock.passed now < 429496729600 := by
  unfold passed
  dsimp only
  omega

theorem passed_eq (clock : SyncedClock) {elapsed : ℕ} (h : elapsed < 4294967296 * 1000000000) :
    clock.passed (clock.at_ + elapsed) = (elapsed / 10000000 : ℕ) := by
  have hback : clock.at_ + elapsed - clock.at_ = elapsed := Nat.add_sub_cancel_left _ _
  unfold passed
  rw [hback]
  dsimp only
  omega

@[simp] theorem passed_self (clock : SyncedClock) : clock.passed clock.at_ = 0 := by
  have hnone := @passed_eq clock 0 (by decide)
  rw [Nat.add_zero] at hnone
  exact hnone

variable {clock : SyncedClock} {now : Instant}

/-- The time since the anchor carries into its day. -/
theorem utcAt_eq (h : clock.Kept) (hnow : now ≤ maxInstant) :
    clock.utcAt now = some ((clock.count + clock.passed now) / Clock.day,
      (clock.count + clock.passed now) % Clock.day) := by
  obtain ⟨hfirst, hlast, hnonneg, hlt⟩ := h
  obtain ⟨elapsed, helapsed⟩ : ∃ elapsed : ℕ, now - clock.at_ = elapsed := ⟨_, rfl⟩
  have hmax : elapsed ≤ maxInstant := helapsed ▸ (Nat.sub_le now clock.at_).trans hnow
  obtain ⟨seconds, hseconds⟩ : ∃ seconds, min (elapsed / 1000000000) 4294967295 = seconds :=
    ⟨_, rfl⟩
  obtain ⟨nanos, hnanos⟩ : ∃ nanos, elapsed % 1000000000 = nanos := ⟨_, rfl⟩
  have hbelow : elapsed - fromSecs (elapsed / 1000000000) = nanos := by
    unfold fromSecs maxInstant at *
    omega
  have hcap : seconds ≤ 4294967295 := hseconds ▸ min_le_right _ _
  have hpart : nanos < 1000000000 := hnanos ▸ Nat.mod_lt _ (by decide)
  unfold count passed utcAt
  dsimp only
  rw [helapsed, hbelow, hseconds, hnanos]
  clear hbelow hseconds hnanos hmax helapsed
  unfold Clock.day at *
  refine (u32_bind (by omega)).trans ?_
  refine (u32_bind (by omega)).trans ?_
  refine (i32_bind (by omega)).trans ?_
  rw [Int.tdiv_eq_ediv_of_nonneg (by omega), Int.tmod_eq_emod_of_nonneg (by omega)]
  have hclose : saturatingAdd clock.day (seconds / 86400 : ℕ) = clock.day + (seconds / 86400 : ℕ) := by
    unfold saturatingAdd
    omega
  rw [hclose]
  refine (i32_bind (by omega)).trans ?_
  congr 2
  · omega
  · omega

/-- The frame shows the moment, in the zone. -/
structure Shows (frame : ClockFrame) (zone : Zone) (shown : ℤ) : Prop where
  specific : Specific frame.localDate frame.localTime
  moment_eq : moment frame.localDate frame.localTime = shown
  utcOffset : frame.utcOffset = zone.utcOffset
  daylightSavings : frame.daylightSavingsStatus = zone.daylightSavings

/-- The fields of a time of day. -/
theorem timeOfDay {within : ℤ} (hnonneg : 0 ≤ within) (hlt : within < 8640000) :
    let second := within.tdiv 100
    let time : Time := ⟨asU8 (second.tdiv 3600), asU8 ((second.tdiv 60).tmod 60),
      asU8 (second.tmod 60), asU8 (within.tmod 100)⟩
    hundredthsOf time = within ∧ time.hour.toNat ≤ 23 ∧ time.minute.toNat ≤ 59 ∧
      time.second.toNat ≤ 59 ∧ time.hundredths.toNat ≤ 99 := by
  intro second time
  have hsecond : second = within / 100 := Int.tdiv_eq_ediv_of_nonneg hnonneg
  have hhour : (time.hour.toNat : ℤ) = second / 3600 := by
    rw [← Int.tdiv_eq_ediv_of_nonneg (by omega)]
    exact asU8_toNat (by rw [Int.tdiv_eq_ediv_of_nonneg (by omega)]; omega)
  have hminute : (time.minute.toNat : ℤ) = second / 60 % 60 := by
    rw [← Int.tdiv_eq_ediv_of_nonneg (by omega), ← Int.tmod_eq_emod_of_nonneg]
    · refine asU8_toNat ?_
      rw [Int.tdiv_eq_ediv_of_nonneg (by omega), Int.tmod_eq_emod_of_nonneg (by omega)]
      omega
    · rw [Int.tdiv_eq_ediv_of_nonneg (by omega)]
      omega
  have hseconds : (time.second.toNat : ℤ) = second % 60 := by
    rw [← Int.tmod_eq_emod_of_nonneg (by omega)]
    exact asU8_toNat (by rw [Int.tmod_eq_emod_of_nonneg (by omega)]; omega)
  have hhundredths : (time.hundredths.toNat : ℤ) = within % 100 := by
    rw [← Int.tmod_eq_emod_of_nonneg hnonneg]
    exact asU8_toNat (by rw [Int.tmod_eq_emod_of_nonneg hnonneg]; omega)
  clear_value time second
  refine ⟨?_, ?_, ?_, ?_, ?_⟩
  · unfold hundredthsOf
    omega
  · omega
  · omega
  · omega
  · omega

/-- A kept clock shows the local moment it is at. -/
theorem frame_moment (h : clock.Kept) (hnow : now ≤ maxInstant) :
    (∃ frame, clock.frame now = some (some frame) ∧
        Shows frame clock.zone (clock.localMoment now)) ∨
      clock.frame now = some none ∧ (clock.localMoment now < firstMoment 1900 ∨
        firstMoment 2155 ≤ clock.localMoment now) := by
  have hutc := utcAt_eq h hnow
  have hpassed := clock.passed_bounds now
  have hshift := clock.zone.shift_bounds
  obtain ⟨hfirst, hlast, hnonneg, hlt⟩ := h
  set utc := clock.count + clock.passed now with hutcEq
  have hlocal : clock.localMoment now = 719163 * Clock.day + (utc + clock.zone.shift) := by
    unfold localMoment
    omega
  have hbounds : -260000000000 ≤ utc ∧ utc ≤ 1130000000000 := by
    unfold count Clock.day at *
    omega
  obtain ⟨shown, hvalid, hordinal⟩ :=
    exists_ordinal ((utc + clock.zone.shift) / Clock.day + 719163)
  have hnumber : (utc + clock.zone.shift) / Clock.day = shown.ordinal - 719163 := by omega
  have hin : InNumbers (shown.ordinal - 719163) := by
    unfold InNumbers
    rw [← hnumber]
    unfold Clock.day
    omega
  have hyears := inYears_of_ordinal hvalid hin
  have hcivil := civil_eq hvalid hyears
  have hweekday := weekday_eq hin
  have hframe : clock.frame now = if 0 ≤ shown.year - 1900 ∧ shown.year - 1900 ≤ 255 ∧
      shown.year - 1900 ≠ 0xFF then
        let within := (utc + clock.zone.shift) % Clock.day
        let second := within.tdiv 100
        some (some ⟨⟨asU8 (shown.year - 1900), UInt8.ofNat shown.month, UInt8.ofNat shown.day,
          UInt8.ofNat shown.weekday⟩, ⟨asU8 (second.tdiv 3600), asU8 ((second.tdiv 60).tmod 60),
          asU8 (second.tmod 60), asU8 (within.tmod 100)⟩, clock.zone.utcOffset,
          clock.zone.daylightSavings⟩)
      else some none := by
    have hwithin : (utc % Clock.day + clock.zone.shift) % Clock.day
        = (utc + clock.zone.shift) % Clock.day := Int.emod_add_emod _ _ _
    have hcarry : utc / Clock.day + (utc % Clock.day + clock.zone.shift) / Clock.day
        = shown.ordinal - 719163 := by
      rw [← hnumber]
      unfold Clock.day
      omega
    unfold frame
    rw [hutc, Option.bind_eq_bind, Option.bind_some]
    dsimp only
    rw [Zone.toLocal_eq, Option.bind_eq_bind, Option.bind_some]
    refine (i32_bind (by unfold Clock.day; omega)).trans ?_
    rw [hcarry, hwithin]
    unfold InNumbers at hin
    refine (i32_bind (by omega)).trans ?_
    rw [hcivil, Option.bind_eq_bind, Option.bind_some]
    unfold InYears at hyears
    refine (i32_bind (by omega)).trans ?_
    rw [hweekday]
    rfl
  have hday : (0 : ℤ) < Clock.day := by decide
  have hfirstDay := Day.ordinal_lt_first hvalid 1900
  have hendDay := Day.ordinal_lt_first hvalid 2155
  have hstart : (⟨1900, 1, 1⟩ : Day).ordinal = 693596 := rfl
  have hend : (⟨2155, 1, 1⟩ : Day).ordinal = 786733 := rfl
  rw [hstart] at hfirstDay
  rw [hend] at hendDay
  rw [hframe, hlocal, firstMoment_1900, firstMoment_2155]
  by_cases hyear : 0 ≤ shown.year - 1900 ∧ shown.year - 1900 ≤ 255 ∧ shown.year - 1900 ≠ 0xFF
  · left
    rw [if_pos hyear]
    have hnamed := named_date hvalid (by omega) (by omega) (UInt8.ofNat shown.weekday)
    obtain ⟨htime, hhour, hminute, hsecond, hhundredths⟩ :=
      timeOfDay (Int.emod_nonneg (utc + clock.zone.shift) (by decide : Clock.day ≠ 0))
        (Int.emod_lt_of_pos _ hday)
    refine ⟨_, rfl, ⟨?_, ?_, ?_, hhour, hminute, hsecond, hhundredths⟩, ?_, rfl, rfl⟩
    · rw [hnamed]
      exact hvalid
    · rw [hnamed]
      omega
    · rw [hnamed]
      refine UInt8.toNat_ofNat_of_lt' ?_
      unfold Day.weekday
      show _ < 256
      omega
    · unfold moment
      rw [hnamed, htime]
      have := Int.mul_ediv_add_emod (utc + clock.zone.shift) Clock.day
      rw [hnumber] at this
      unfold Clock.day at *
      omega
  · right
    rw [if_neg hyear]
    refine ⟨rfl, ?_⟩
    unfold Clock.day at *
    omega

theorem anchored_eq (zone : Zone) (at_ : Instant) {days utc : ℤ} (synced : Bool)
    (hdays : -25567 ≤ days ∧ days ≤ 67935) (hutc : -9000000 ≤ utc ∧ utc ≤ 17280000) :
    ∃ made, anchored zone at_ days utc synced = some made ∧ made.Kept ∧ made.zone = zone ∧
      made.at_ = at_ ∧ made.synced = synced ∧ made.count = days * Clock.day + utc := by
  have hnonneg : 0 ≤ utc % Clock.day := Int.emod_nonneg utc (by decide)
  have hlt : utc % Clock.day < Clock.day := Int.emod_lt_of_pos utc (by decide)
  have hcarry : -30000 ≤ days + utc / Clock.day ∧ days + utc / Clock.day ≤ 80000 := by
    unfold Clock.day
    omega
  refine ⟨⟨zone, at_, days + utc / Clock.day, utc % Clock.day, synced⟩, ?_,
    ⟨hcarry.1, hcarry.2, hnonneg, hlt⟩, rfl, rfl, rfl, ?_⟩
  · exact i32_bind (by omega)
  · have := Int.mul_ediv_add_emod utc Clock.day
    unfold count Clock.day at *
    dsimp only
    omega

theorem new_eq (zone : Zone) :
    ∃ clock, new zone now = some clock ∧ clock.Kept ∧ clock.zone = zone ∧ clock.at_ = now ∧
      clock.synced = false ∧
      clock.localMoment now = (⟨1990, 1, 1⟩ : Day).ordinal * Clock.day := by
  have hshift := zone.shift_bounds
  have hstart : (⟨1990, 1, 1⟩ : Day).ordinal = 726468 := rfl
  obtain ⟨clock, hmade, hkept, hzone, hat, hsynced, hcount⟩ :=
    @anchored_eq zone now restartDay (-zone.shift) false (by decide) (by omega)
  have hpassed : clock.passed now = 0 := hat ▸ clock.passed_self
  refine ⟨clock, ?_, hkept, hzone, hat, hsynced, ?_⟩
  · unfold new
    rw [Zone.toLocal_eq, Option.bind_eq_bind, Option.bind_some]
    refine (i32_bind (by omega)).trans ?_
    exact hmade
  · unfold localMoment
    rw [hcount, hzone, hpassed, hstart]
    unfold restartDay Clock.day
    omega

/-- What `set` accepts: specific values whose local date is one of 1900 to 2154. -/
def Accepts (zone : Zone) (basis : Basis) (date : Date) (time : Time) : Prop :=
  Specific date time ∧ firstMoment 1900 ≤ moment date time + basis.shift zone ∧
    moment date time + basis.shift zone < firstMoment 2155

/-- A specific value, anchored. -/
theorem set_anchors (clock : SyncedClock) (basis : Basis) (now : Instant) (h : Specific date time) :
    ∃ made : SyncedClock, made.Kept ∧ made.zone = clock.zone ∧ made.at_ = now ∧
      made.synced = true ∧
      made.localMoment now = moment date time + basis.shift clock.zone ∧
      clock.set basis date time now = (made.frame now).bind fun shown =>
        match shown with
        | none => some (.error "the local date falls outside 1900 to 2154", clock)
        | some _ => some (.ok (), made) := by
  have hshift := clock.zone.shift_bounds
  have hordinal := ordinal_named h.real
  have hhundredths := hundredthsOf_bounds h
  obtain ⟨utc, hutc⟩ : ∃ utc, utc = hundredthsOf time
      - (clock.zone.shift - basis.shift clock.zone) := ⟨_, rfl⟩
  have hbounds : -9000000 ≤ utc ∧ utc ≤ 17280000 := by
    unfold Clock.day at hhundredths
    cases basis with
    | local_ =>
      rw [Basis.shift_local] at hutc
      omega
    | utc =>
      rw [Basis.shift_utc] at hutc
      omega
  obtain ⟨made, hmade, hkept, hzone, hat, hsynced, hcount⟩ :=
    @anchored_eq clock.zone now ((named date).ordinal - 719163) utc true (by omega) hbounds
  have hpassed : made.passed now = 0 := hat ▸ made.passed_self
  refine ⟨made, hkept, hzone, hat, hsynced, ?_, ?_⟩
  · unfold localMoment moment
    rw [hcount, hzone, hpassed, hutc]
    unfold Clock.day
    omega
  · unfold set
    rw [specific_eq h, Option.bind_eq_bind, Option.bind_some]
    cases basis with
    | local_ =>
      dsimp only
      rw [Zone.toLocal_eq, Option.bind_eq_bind, Option.bind_some, i32_eq]
      · rw [Option.bind_eq_bind, Option.bind_some]
        have hshifted : hundredthsOf time - clock.zone.shift = utc := by
          rw [hutc, Basis.shift_local]
          omega
        rw [hshifted, hmade]
        rfl
      · unfold Clock.day at hhundredths
        omega
    | utc =>
      dsimp only
      have hplain : hundredthsOf time = utc := by
        rw [hutc, Basis.shift_utc]
        omega
      rw [Option.bind_eq_bind, Option.bind_some, hplain, hmade]
      rfl

variable {basis : Basis}

theorem set_accepted (hnow : now ≤ maxInstant) (h : Accepts clock.zone basis date time) :
    ∃ made : SyncedClock, clock.set basis date time now = some (.ok (), made) ∧ made.Kept ∧
      made.zone = clock.zone ∧ made.at_ = now ∧ made.synced = true ∧
      made.localMoment now = moment date time + basis.shift clock.zone := by
  obtain ⟨hspecific, hfirst, hlast⟩ := h
  obtain ⟨made, hkept, hzone, hat, hsynced, hmoment, hset⟩ :=
    set_anchors clock basis now hspecific
  refine ⟨made, ?_, hkept, hzone, hat, hsynced, hmoment⟩
  rcases frame_moment hkept hnow with ⟨shown, hframe, -⟩ | ⟨-, houtside⟩
  · rw [hset, hframe]
    rfl
  · rw [hmoment] at houtside
    omega

theorem set_refused (hnow : now ≤ maxInstant) (h : ¬Accepts clock.zone basis date time) :
    ∃ refused, clock.set basis date time now = some (.error refused, clock) := by
  by_cases hspecific : Specific date time
  · obtain ⟨made, hkept, -, -, -, hmoment, hset⟩ := set_anchors clock basis now hspecific
    rcases frame_moment hkept hnow with ⟨shown, -, hshows⟩ | ⟨hframe, -⟩
    · have hrange := moment_range hshows.specific
      rw [hshows.moment_eq, hmoment] at hrange
      exact absurd ⟨hspecific, hrange⟩ h
    · rw [hset, hframe]
      exact ⟨_, rfl⟩
  · obtain ⟨refused, hrefused⟩ := specific_refused hspecific
    refine ⟨refused, ?_⟩
    unfold set
    rw [hrefused]
    rfl

/-- A clock set at an instant shows, at every later one, the local moment it was set to moved by the
time since, until 2154 ends; nothing else can be set, no step of a set clock overflows, and the two
conversions of its calendar are inverse. -/
theorem clock_tells_calendar_time (clock : SyncedClock) (basis : Basis) (date : Date) (time : Time)
    {start : Instant} (hstart : start ≤ maxInstant) :
    (Accepts clock.zone basis date time →
      ∃ made, clock.set basis date time start = some (.ok (), made) ∧
        (∀ elapsed < 2 ^ 32 * 1000000000, start + elapsed ≤ maxInstant →
          let shown := moment date time + basis.shift clock.zone + (elapsed / 10000000 : ℕ)
          (shown < firstMoment 2155 ∧ ∃ frame, made.frame (start + elapsed) = some (some frame) ∧
            Shows frame clock.zone shown) ∨
          firstMoment 2155 ≤ shown ∧ made.frame (start + elapsed) = some none) ∧
        ∀ now ≤ maxInstant, (made.utcAt now).isSome ∧ (made.frame now).isSome) ∧
    (¬Accepts clock.zone basis date time →
      ∃ refused, clock.set basis date time start = some (.error refused, clock)) ∧
    ∀ number, InNumbers number → ∃ (year : ℤ) (month day : UInt8),
      civil number = some (year, month, day) ∧ daysFromCivil year month day = some number ∧
      (⟨year, month.toNat, day.toNat⟩ : Day).Valid ∧
      (⟨year, month.toNat, day.toNat⟩ : Day).ordinal = number + 719163 := by
  refine ⟨?_, set_refused hstart, ?_⟩
  · intro haccepts
    obtain ⟨made, hset, hkept, hzone, hat, -, hmoment⟩ := set_accepted hstart haccepts
    refine ⟨made, hset, ?_, ?_⟩
    · intro elapsed helapsed hinstant shown
      have hshown : made.localMoment (start + elapsed) = shown := by
        have hnone : made.passed start = 0 := hat ▸ made.passed_self
        have hsome := made.passed_eq helapsed
        rw [hat] at hsome
        unfold localMoment at hmoment ⊢
        rw [hsome]
        rw [hnone] at hmoment
        have hshown : shown = moment date time + basis.shift clock.zone
            + (elapsed / 10000000 : ℕ) := rfl
        rw [hshown, ← hmoment]
        push_cast
        ring
      have hfirst := haccepts.2.1
      rcases frame_moment hkept hinstant with ⟨frame, hframe, hshows⟩ | ⟨hframe, houtside⟩
      · rw [hshown, hzone] at hshows
        have hrange := moment_range hshows.specific
        rw [hshows.moment_eq] at hrange
        exact .inl ⟨hrange.2, frame, hframe, hshows⟩
      · rw [hshown] at houtside
        refine .inr ⟨?_, hframe⟩
        rcases houtside with hbefore | hafter
        · have hmoved : moment date time + basis.shift clock.zone ≤ shown :=
            Int.le_add_of_nonneg_right (Int.natCast_nonneg _)
          exact absurd (hfirst.trans hmoved) (Int.not_le.mpr hbefore)
        · exact hafter
    · intro now hnow
      refine ⟨?_, ?_⟩
      · rw [utcAt_eq hkept hnow]
        rfl
      · rcases frame_moment hkept hnow with ⟨frame, hframe, -⟩ | ⟨hframe, -⟩
        · rw [hframe]
          rfl
        · rw [hframe]
          rfl
  · intro number hnumber
    obtain ⟨date, hvalid, hordinal, hcivil, hdays⟩ := civil_inverse hnumber
    have hlength := monthLength_le date.year date.month
    have hmonthLe := hvalid.month_le
    have hdayLe := hvalid.day_le
    have hmonth : (UInt8.ofNat date.month).toNat = date.month := toNat_ofNat_month hmonthLe
    have hday : (UInt8.ofNat date.day).toNat = date.day :=
      UInt8.toNat_ofNat_of_lt' (show date.day < 256 by omega)
    refine ⟨_, _, _, hcivil, hdays, ?_, ?_⟩
    · rw [hmonth, hday]
      exact hvalid
    · rw [hmonth, hday]
      exact hordinal

/-- An hour before the end of a leap day in UTC, five hours west and in summer. -/
theorem clock_tells_leap_day :
    ∃ made : SyncedClock,
      (⟨⟨300, true, by decide, by decide⟩, 0, 0, 0, false⟩ : SyncedClock).set .utc
        ⟨124, 2, 29, 4⟩ ⟨23, 0, 0, 0⟩ 7 = some (.ok (), made) ∧
      ∀ now ≤ maxInstant, (made.frame now).isSome := by
  obtain ⟨made, hset, -, hevery⟩ := (clock_tells_calendar_time
    ⟨⟨300, true, by decide, by decide⟩, 0, 0, 0, false⟩ .utc ⟨124, 2, 29, 4⟩ ⟨23, 0, 0, 0⟩
    (show 7 ≤ maxInstant by decide)).1
    ⟨⟨⟨by decide, by decide, by decide, by decide⟩, by decide, by decide, by decide, by decide,
      by decide, by decide⟩, by decide, by decide⟩
  exact ⟨made, hset, fun now hnow => (hevery now hnow).2⟩

/-! ## A clock's life -/

/-- A setting of the clock. -/
structure Setting where
  basis : Basis
  date : Date
  time : Time
  at_ : Instant

def Setting.moment (setting : Setting) (zone : Zone) : ℤ :=
  Clock.moment setting.date setting.time + setting.basis.shift zone

def Setting.Accepted (setting : Setting) (zone : Zone) : Prop :=
  Accepts zone setting.basis setting.date setting.time

/-- The clock started at `start` after the settings, newest first. -/
def life (zone : Zone) (start : Instant) : List Setting → Option SyncedClock
  | [] => new zone start
  | setting :: older => do
    let clock ← life zone start older
    let (_, clock) ← clock.set setting.basis setting.date setting.time setting.at_
    some clock

/-- What the clock counts from: the newest setting it accepted, or else its start. -/
inductive CountsFrom (zone : Zone) (start : Instant) :
    List Setting → Bool → Instant → ℤ → Prop where
  | start : CountsFrom zone start [] false start ((⟨1990, 1, 1⟩ : Day).ordinal * Clock.day)
  | refused {older : List Setting} {synced : Bool} {at_ : Instant} {shown : ℤ} (setting : Setting)
      (h : ¬setting.Accepted zone) (hcounts : CountsFrom zone start older synced at_ shown) :
      CountsFrom zone start (setting :: older) synced at_ shown
  | accepted (setting : Setting) (older : List Setting) (h : setting.Accepted zone) :
      CountsFrom zone start (setting :: older) true setting.at_ (setting.moment zone)

/-- In every run of settings no step overflows, and the clock shows the local moment of the newest
setting it accepted, or of its start, moved by the time it has counted since. -/
theorem clock_counts_from_last_setting (zone : Zone) (start : Instant) {settings : List Setting}
    (htimes : ∀ setting ∈ settings, setting.at_ ≤ maxInstant) :
    ∃ clock synced at_ shown, life zone start settings = some clock ∧
      CountsFrom zone start settings synced at_ shown ∧ clock.at_ = at_ ∧
      clock.synced = synced ∧ ∀ now ≤ maxInstant,
        let shown := shown + clock.passed now
        (∃ frame, clock.frame now = some (some frame) ∧ Shows frame zone shown) ∨
          clock.frame now = some none ∧ (shown < firstMoment 1900 ∨ firstMoment 2155 ≤ shown) := by
  have hlife : ∃ clock synced at_ shown, life zone start settings = some clock ∧
      CountsFrom zone start settings synced at_ shown ∧ clock.at_ = at_ ∧
      clock.synced = synced ∧ clock.zone = zone ∧ clock.Kept ∧ clock.localMoment at_ = shown := by
    induction settings with
    | nil =>
      obtain ⟨clock, hnew, hkept, hzone, hat, hsynced, hmoment⟩ := @new_eq start zone
      exact ⟨clock, false, start, _, hnew, .start, hat, hsynced, hzone, hkept, hmoment⟩
    | cons setting older ih =>
      have hnow := htimes setting List.mem_cons_self
      obtain ⟨clock, synced, at_, shown, hlife, hcounts, hat, hsynced, hzone, hkept, hmoment⟩ :=
        ih fun setting hsetting => htimes setting (List.mem_cons_of_mem _ hsetting)
      by_cases haccepts : setting.Accepted zone
      · obtain ⟨made, hset, hmade, hzone', hat', hsynced', hmoment'⟩ :=
          set_accepted hnow (hzone ▸ haccepts : Accepts clock.zone _ _ _)
        refine ⟨made, true, setting.at_, _, ?_, .accepted setting older haccepts, hat', hsynced',
          hzone'.trans hzone, hmade, hmoment'.trans (by rw [hzone]; rfl)⟩
        dsimp only [life]
        rw [hlife, Option.bind_eq_bind, Option.bind_some, hset]
        rfl
      · obtain ⟨refused, hset⟩ :=
          set_refused hnow (hzone ▸ haccepts : ¬Accepts clock.zone _ _ _)
        refine ⟨clock, synced, at_, shown, ?_, .refused setting haccepts hcounts, hat, hsynced,
          hzone, hkept, hmoment⟩
        dsimp only [life]
        rw [hlife, Option.bind_eq_bind, Option.bind_some, hset]
        rfl
  obtain ⟨clock, synced, at_, shown, hlife, hcounts, hat, hsynced, hzone, hkept, hmoment⟩ := hlife
  refine ⟨clock, synced, at_, shown, hlife, hcounts, hat, hsynced, fun now hnow => ?_⟩
  have hshown : clock.localMoment now = shown + clock.passed now := by
    have hnone : clock.passed at_ = 0 := hat ▸ clock.passed_self
    rw [← hmoment]
    unfold localMoment
    rw [hnone]
    omega
  have hframe := frame_moment hkept hnow
  rw [hshown, hzone] at hframe
  exact hframe

theorem clock_counts_from_leap_day :
    ∃ clock synced at_ shown,
      life ⟨300, true, by decide, by decide⟩ 3 [⟨.utc, ⟨124, 2, 29, 4⟩, ⟨23, 0, 0, 0⟩, 7⟩]
        = some clock ∧ CountsFrom ⟨300, true, by decide, by decide⟩ 3
        [⟨.utc, ⟨124, 2, 29, 4⟩, ⟨23, 0, 0, 0⟩, 7⟩] synced at_ shown ∧ clock.at_ = at_ := by
  obtain ⟨clock, synced, at_, shown, hlife, hcounts, hat, -⟩ :=
    clock_counts_from_last_setting ⟨300, true, by decide, by decide⟩ 3
      (by decide : ∀ setting ∈ [(⟨.utc, ⟨124, 2, 29, 4⟩, ⟨23, 0, 0, 0⟩, 7⟩ : Setting)],
        setting.at_ ≤ maxInstant)
  exact ⟨clock, synced, at_, shown, hlife, hcounts, hat⟩

end SyncedClock

end RustyBacnet.Clock
