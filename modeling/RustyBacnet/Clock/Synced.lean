import RustyBacnet.Encoding.Primitives
import RustyBacnet.Time

/-!
# The Device's clock

`clock/synced.rs`: the zone, the anchor on the host's timeline, and the 32-bit calendar arithmetic.
Every step the source makes in 32 bits is checked here: `i32` and `u32` have no value past their
range, and a result of `none` is a step that overflowed. `/` and `%` are the Euclidean division of
the source, `tdiv` and `tmod` its `/` and `%`.
-/

namespace RustyBacnet.Clock

open Encoding

def i32 (value : ℤ) : Option ℤ :=
  if -2147483648 ≤ value ∧ value ≤ 2147483647 then some value else none

def u32 (value : ℤ) : Option ℤ :=
  if 0 ≤ value ∧ value ≤ 4294967295 then some value else none

/-- `i32::saturating_add`. -/
def saturatingAdd (a b : ℤ) : ℤ := max (-2147483648) (min (a + b) 2147483647)

/-- `as u8`. -/
def asU8 (value : ℤ) : UInt8 := UInt8.ofNat (value % 256).toNat

/-! ## The calendar -/

/-- Hundredths of a second in a day, a minute and an hour. -/
def day : ℤ := 8640000
def minute : ℤ := 6000
def hour : ℤ := 360000

def restartDay : ℤ := 7305

def isLeapYear (year : ℕ) : Bool := year % 4 == 0 && (year % 100 != 0 || year % 400 == 0)

/-- `days_in_month`, 0 for a month that is none. -/
def daysInMonth (year : ℕ) (month : UInt8) : UInt8 :=
  if month = 1 ∨ month = 3 ∨ month = 5 ∨ month = 7 ∨ month = 8 ∨ month = 10 ∨ month = 12 then 31
  else if month = 4 ∨ month = 6 ∨ month = 9 ∨ month = 11 then 30
  else if month = 2 then if isLeapYear year then 29 else 28
  else 0

def weekday (day : ℤ) : Option UInt8 := do
  let shifted ← i32 (day + 3)
  some (asU8 (shifted % 7) + 1)

def daysFromCivil (year : ℤ) (month day : UInt8) : Option ℤ := do
  let year ← i32 (year - if month ≤ 2 then 1 else 0)
  let era := year / 400
  let eraYears ← i32 (era * 400)
  let yearOfEra ← i32 (year - eraYears)
  let shiftedMonth ← i32 (if month > 2 then month.toNat - 3 else month.toNat + 9)
  let product ← i32 (153 * shiftedMonth)
  let scaled ← i32 (product + 2)
  let through ← i32 (scaled.tdiv 5 + day.toNat)
  let dayOfYear ← i32 (through - 1)
  let years ← i32 (yearOfEra * 365)
  let leaps ← i32 (years + yearOfEra.tdiv 4)
  let centuries ← i32 (leaps - yearOfEra.tdiv 100)
  let dayOfEra ← i32 (centuries + dayOfYear)
  let eraDays ← i32 (era * 146097)
  let total ← i32 (eraDays + dayOfEra)
  i32 (total - 719468)

def civil (day : ℤ) : Option (ℤ × UInt8 × UInt8) := do
  let shifted ← i32 (day + 719468)
  let era := shifted / 146097
  let eraDays ← i32 (era * 146097)
  let dayOfEra ← i32 (shifted - eraDays)
  let fourYears ← i32 (dayOfEra - dayOfEra.tdiv 1460)
  let centuries ← i32 (fourYears + dayOfEra.tdiv 36524)
  let whole ← i32 (centuries - dayOfEra.tdiv 146096)
  let yearOfEra := whole.tdiv 365
  let years ← i32 (365 * yearOfEra)
  let leaps ← i32 (years + yearOfEra.tdiv 4)
  let before ← i32 (leaps - yearOfEra.tdiv 100)
  let dayOfYear ← i32 (dayOfEra - before)
  let fives ← i32 (5 * dayOfYear)
  let scaled ← i32 (fives + 2)
  let shiftedMonth := scaled.tdiv 153
  let product ← i32 (153 * shiftedMonth)
  let rounded ← i32 (product + 2)
  let zeroBased ← i32 (dayOfYear - rounded.tdiv 5)
  let day ← i32 (zeroBased + 1)
  let month ← i32 (if shiftedMonth < 10 then shiftedMonth + 3 else shiftedMonth - 9)
  let eraYears ← i32 (era * 400)
  let year ← i32 (yearOfEra + eraYears)
  let year ← i32 (year + if month ≤ 2 then 1 else 0)
  some (year, asU8 month, asU8 day)

/-- The Device's UTC_Offset, minutes west of UTC, and its Daylight_Savings_Status. -/
structure Zone where
  utcOffset : ℤ
  daylightSavings : Bool
  range : -1440 ≤ utcOffset ∧ utcOffset ≤ 1440
  quarter : utcOffset % 15 = 0
  deriving DecidableEq

def Zone.toLocal (zone : Zone) : Option ℤ := do
  let west ← i32 (zone.utcOffset * minute)
  i32 ((if zone.daylightSavings then hour else 0) - west)

/-- What a date and time to set stand for. -/
inductive Basis where
  | local_
  | utc
  deriving DecidableEq

/-! ## The clock -/

/-- `day` and `hundredths` are UTC at the instant `at_`. -/
structure SyncedClock where
  zone : Zone
  at_ : Instant
  day : ℤ
  hundredths : ℤ
  synced : Bool
  deriving DecidableEq

/-- One reading. -/
structure ClockFrame where
  localDate : Date
  localTime : Time
  utcOffset : ℤ
  daylightSavingsStatus : Bool
  deriving DecidableEq

/-- `date` and `time` as a day number and hundredths, when both are specific and consistent. -/
def specific (date : Date) (time : Time) : Option (Except String (ℤ × ℤ)) :=
  match date.actualYear with
  | none => some (.error "the date's year is unspecified")
  | some year =>
    if date.day = 0 ∨ date.day > daysInMonth year date.month then
      some (.error "the date names no day")
    else do
      let day ← daysFromCivil year date.month date.day
      let right ← weekday day
      if date.dayOfWeek ≠ right then some (.error "the date's day of the week is wrong")
      else if time.hour > 23 ∨ time.minute > 59 ∨ time.second > 59 ∨ time.hundredths > 99 then
        some (.error "the time isn't a specific time of day")
      else do
        let hours ← i32 (time.hour.toNat * hour)
        let minutes ← i32 (time.minute.toNat * minute)
        let minutes ← i32 (hours + minutes)
        let seconds ← i32 (time.second.toNat * 100)
        let seconds ← i32 (minutes + seconds)
        let hundredths ← i32 (seconds + time.hundredths.toNat)
        some (.ok (day, hundredths))

namespace SyncedClock

/-- The clock reading `days` and `utc` at `at_`; `utc` may run past either end of the day. -/
def anchored (zone : Zone) (at_ : Instant) (days utc : ℤ) (synced : Bool) : Option SyncedClock := do
  let days ← i32 (days + utc / Clock.day)
  some ⟨zone, at_, days, utc % Clock.day, synced⟩

def new (zone : Zone) (now : Instant) : Option SyncedClock := do
  let shift ← zone.toLocal
  let utc ← i32 (-shift)
  anchored zone now restartDay utc false

/-- The UTC day and hundredths at `now`. -/
def utcAt (clock : SyncedClock) (now : Instant) : Option (ℤ × ℤ) := do
  let elapsed := now - clock.at_
  let seconds := elapsed / 1000000000
  let nanos := elapsed - fromSecs seconds
  let seconds := min seconds 4294967295
  let ofDay ← u32 ((seconds % 86400 : ℕ) * 100)
  let hundredths ← u32 (ofDay + (nanos / 10000000 : ℕ))
  let total ← i32 (clock.hundredths + hundredths)
  let days ← i32 (saturatingAdd clock.day (seconds / 86400 : ℕ) + total.tdiv Clock.day)
  some (days, total.tmod Clock.day)

/-- The local date and time at `now`, until the date passes 2154. -/
def frame (clock : SyncedClock) (now : Instant) : Option (Option ClockFrame) := do
  let (days, utc) ← clock.utcAt now
  let shift ← clock.zone.toLocal
  let shifted ← i32 (utc + shift)
  let days ← i32 (days + shifted / Clock.day)
  let within := shifted % Clock.day
  let (year, month, dayOfMonth) ← civil days
  let year ← i32 (year - 1900)
  if 0 ≤ year ∧ year ≤ 255 ∧ year ≠ 0xFF then do
    let second := within.tdiv 100
    let dayOfWeek ← weekday days
    some (some {
      localDate := ⟨asU8 year, month, dayOfMonth, dayOfWeek⟩
      localTime := ⟨asU8 (second.tdiv 3600), asU8 ((second.tdiv 60).tmod 60),
        asU8 (second.tmod 60), asU8 (within.tmod 100)⟩
      utcOffset := clock.zone.utcOffset
      daylightSavingsStatus := clock.zone.daylightSavings })
  else some none

/-- Set the clock, and count it synchronized; a refused value leaves it as it was. -/
def set (clock : SyncedClock) (basis : Basis) (date : Date) (time : Time) (now : Instant) :
    Option (Except String Unit × SyncedClock) := do
  match ← specific date time with
  | .error refused => some (.error refused, clock)
  | .ok (days, hundredths) =>
    let utc ← match basis with
      | .local_ => do
        let shift ← clock.zone.toLocal
        i32 (hundredths - shift)
      | .utc => some hundredths
    let made ← anchored clock.zone now days utc true
    match ← made.frame now with
    | none => some (.error "the local date falls outside 1900 to 2154", clock)
    | some _ => some (.ok (), made)

end SyncedClock

end RustyBacnet.Clock
