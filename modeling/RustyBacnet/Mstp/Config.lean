import RustyBacnet.Mstp.Queue

/-!
# The configuration of a master

`config.rs`: the protocol constants, the parameters of a station, and `validate`, which checks them
against Clause 9's bounds in a fixed order and names the first that fails.
-/

namespace RustyBacnet.Mstp

def nPoll : ℕ := 50

def nRetryToken : ℕ := 1

/-- More events than this show that another station is active. -/
def nMinOctets : ℕ := 4

def tNoToken : Duration := fromMillis 500

def tSlot : Duration := fromMillis 10

def maxFrameAbort : Duration := fromMillis 100

def minReplyTimeout : Duration := fromMillis 255

def maxReplyTimeout : Duration := fromMillis 300

def minUsageTimeout : Duration := fromMillis 20

def maxUsageTimeout : Duration := fromMillis 35

def maxReplyDelay : Duration := fromMillis 250

def maxUsageDelay : Duration := fromMillis 15

def defaultReplyTransmitMargin : Duration := fromMillis 25

def defaultTransmitWatchdog : Duration := fromSecs 1

def watchdogCompletionMargin : Duration := fromMillis 1

def defaultLateDeadline : Duration := fromMillis 1

/-- A buffer the core needs at some length. -/
inductive CoreBuffer where
  | receiveStorage
  | transmitFrame
  | deliverySlot
  | queueSlot
  deriving DecidableEq

inductive LocalDurationField where
  | queueMaxAge
  | transmitWatchdog
  deriving DecidableEq

inductive LocalLimitField where
  | broadcastUnicastRatio
  | multipleFrameRatio
  | starvationLimit
  deriving DecidableEq

/-- Why a configuration or its storage was refused. -/
inductive ConfigError where
  | zeroBaudRate
  | timingOverflow
  | maxMasterOutOfRange (value : UInt8)
  | stationExceedsMaxMaster (station maxMaster : UInt8)
  | maxInfoFramesOutOfRange (value : UInt8)
  | frameAbortOutOfRange (value minimum maximum : Duration)
  | frameGapTooLong (value maximum : Duration)
  | postdriveTooLong (value maximum : Duration)
  | replyDelayTooLong (value maximum : Duration)
  | replyMarginTooLong (margin replyDelay : Duration)
  | replyTimeoutOutOfRange (value minimum maximum : Duration)
  | turnaroundTooShort (value minimum : Duration)
  | turnaroundExceedsUsageDelay (turnaround usageDelay : Duration)
  | usageDelayTooLong (value maximum : Duration)
  | usageTimeoutOutOfRange (value minimum maximum : Duration)
  | zeroLocalDuration (field : LocalDurationField)
  | zeroLocalLimit (field : LocalLimitField)
  | multipleFrameRatioOutOfRange (value : UInt8)
  | transmitWatchdogTooShort (value minimum : Duration)
  | extendedStorageTooSmall (buffer : CoreBuffer) (length minimum : ℕ)
  | receiveStorageTooSmall (length minimum : ℕ)
  deriving DecidableEq

/-- Bit times in whole microseconds, rounded up; `none` without a baud rate or past a `u32`. -/
def ceilBitTimes (baudRate bits : ℕ) : Option Duration :=
  if u32Max < bits * 1000000 ∨ baudRate = 0 then none
  else some (fromMicros ((bits * 1000000 + baudRate - 1) / baudRate))

def floorBitTimes (baudRate bits : ℕ) : Option Duration :=
  if u32Max < bits * 1000000 ∨ baudRate = 0 then none
  else some (fromMicros (bits * 1000000 / baudRate))

def orMax (duration : Option Duration) : Duration := duration.getD maxInstant

structure MstpCoreConfig where
  station : UInt8
  maxMaster : UInt8
  maxInfoFrames : UInt8
  baudRate : ℕ
  tFrameAbort : Duration
  tFrameGap : Duration
  tPostdrive : Duration
  tReplyDelay : Duration
  tReplyTimeout : Duration
  tTurnaround : Duration
  tUsageDelay : Duration
  tUsageTimeout : Duration
  replyTransmitMargin : Duration
  lateDeadline : Duration
  queueMaxAge : Duration
  broadcastUnicastRatio : UInt8
  multipleFrameRatio : UInt8
  starvationLimit : UInt8
  transmitWatchdog : Duration
  extendedFrames : Bool
  deriving DecidableEq

namespace MstpCoreConfig

def octetTime (c : MstpCoreConfig) : Duration := orMax (ceilBitTimes c.baudRate 10)

def maxNpdu (c : MstpCoreConfig) : ℕ :=
  if c.extendedFrames then maxExtendedMpduData else maxStandardMpduData

def longestFrameTime (c : MstpCoreConfig) : Duration :=
  let octets := if c.extendedFrames then maxExtendedFrameLength else maxStandardFrameLength
  satMul c.octetTime octets

def minimumTransmitWatchdog (c : MstpCoreConfig) : Duration :=
  satAdd (satAdd c.longestFrameTime c.tPostdrive) watchdogCompletionMargin

def check (ok : Bool) (error : ConfigError) : Except ConfigError Unit :=
  if ok then .ok () else .error error

def bitTimeBounds (c : MstpCoreConfig) : Option (Duration × Duration × Duration × Duration) := do
  let frameAbortMin ← ceilBitTimes c.baudRate 60
  let frameGapMax ← floorBitTimes c.baudRate 20
  let postdriveMax ← floorBitTimes c.baudRate 15
  let turnaroundMin ← ceilBitTimes c.baudRate 40
  return (frameAbortMin, frameGapMax, postdriveMax, turnaroundMin)

def validateAddresses (c : MstpCoreConfig) : Except ConfigError Unit := do
  check (c.baudRate ≠ 0) .zeroBaudRate
  check (c.maxMaster ≤ Mstp.maxMaster) (.maxMasterOutOfRange c.maxMaster)
  check (c.station ≤ c.maxMaster) (.stationExceedsMaxMaster c.station c.maxMaster)
  check (c.maxInfoFrames ≠ 0) (.maxInfoFramesOutOfRange c.maxInfoFrames)

def validateTimings (c : MstpCoreConfig) :
    Duration × Duration × Duration × Duration → Except ConfigError Unit
  | (frameAbortMin, frameGapMax, postdriveMax, turnaroundMin) => do
    check (frameAbortMin ≤ c.tFrameAbort ∧ c.tFrameAbort ≤ maxFrameAbort)
      (.frameAbortOutOfRange c.tFrameAbort frameAbortMin maxFrameAbort)
    check (c.tFrameGap ≤ frameGapMax) (.frameGapTooLong c.tFrameGap frameGapMax)
    check (c.tPostdrive ≤ postdriveMax) (.postdriveTooLong c.tPostdrive postdriveMax)
    check (c.tReplyDelay ≤ maxReplyDelay) (.replyDelayTooLong c.tReplyDelay maxReplyDelay)
    check (c.replyTransmitMargin < c.tReplyDelay)
      (.replyMarginTooLong c.replyTransmitMargin c.tReplyDelay)
    check (minReplyTimeout ≤ c.tReplyTimeout ∧ c.tReplyTimeout ≤ maxReplyTimeout)
      (.replyTimeoutOutOfRange c.tReplyTimeout minReplyTimeout maxReplyTimeout)
    check (turnaroundMin ≤ c.tTurnaround) (.turnaroundTooShort c.tTurnaround turnaroundMin)
    check (c.tTurnaround ≤ c.tUsageDelay)
      (.turnaroundExceedsUsageDelay c.tTurnaround c.tUsageDelay)
    check (c.tUsageDelay ≤ maxUsageDelay) (.usageDelayTooLong c.tUsageDelay maxUsageDelay)
    check (minUsageTimeout ≤ c.tUsageTimeout ∧ c.tUsageTimeout ≤ maxUsageTimeout)
      (.usageTimeoutOutOfRange c.tUsageTimeout minUsageTimeout maxUsageTimeout)

def validateLimits (c : MstpCoreConfig) : Except ConfigError Unit := do
  check (c.queueMaxAge ≠ 0) (.zeroLocalDuration .queueMaxAge)
  check (c.transmitWatchdog ≠ 0) (.zeroLocalDuration .transmitWatchdog)
  check (c.minimumTransmitWatchdog ≤ c.transmitWatchdog)
    (.transmitWatchdogTooShort c.transmitWatchdog c.minimumTransmitWatchdog)
  check (c.broadcastUnicastRatio ≠ 0) (.zeroLocalLimit .broadcastUnicastRatio)
  check (c.multipleFrameRatio ≠ 0) (.zeroLocalLimit .multipleFrameRatio)
  check (c.multipleFrameRatio ≤ 100) (.multipleFrameRatioOutOfRange c.multipleFrameRatio)
  check (c.starvationLimit ≠ 0) (.zeroLocalLimit .starvationLimit)

def validate (c : MstpCoreConfig) : Except ConfigError Unit := do
  c.validateAddresses
  match c.bitTimeBounds with
  | none => .error .timingOverflow
  | some bounds => do
    c.validateTimings bounds
    c.validateLimits

/-- Raise the watchdog where it would not cover the longest frame. -/
def withCoveringWatchdog (c : MstpCoreConfig) : MstpCoreConfig :=
  if c.transmitWatchdog < c.minimumTransmitWatchdog then
    { c with transmitWatchdog := satAdd c.longestFrameTime defaultTransmitWatchdog }
  else c

def forBaudRateUnchecked (baudRate : ℕ) : MstpCoreConfig :=
  { station := 0
    maxMaster := Mstp.maxMaster
    maxInfoFrames := 1
    baudRate := baudRate
    tFrameAbort := orMax (ceilBitTimes baudRate 60)
    tFrameGap := orMax (floorBitTimes baudRate 20)
    tPostdrive := orMax (floorBitTimes baudRate 15)
    tReplyDelay := maxReplyDelay
    tReplyTimeout := minReplyTimeout
    tTurnaround := orMax (ceilBitTimes baudRate 40)
    tUsageDelay := maxUsageDelay
    tUsageTimeout := minUsageTimeout
    replyTransmitMargin := defaultReplyTransmitMargin
    lateDeadline := defaultLateDeadline
    queueMaxAge := fromSecs 5
    broadcastUnicastRatio := 1
    multipleFrameRatio := 100
    starvationLimit := defaultStarvationLimit
    transmitWatchdog := defaultTransmitWatchdog
    extendedFrames := false : MstpCoreConfig }.withCoveringWatchdog

def standard : MstpCoreConfig := forBaudRateUnchecked 9600

/-! ## What a valid configuration is -/

variable {error : ConfigError} {ok : Bool}

theorem check_ok {u : Unit} : check ok error = .ok u ↔ ok = true := by
  unfold check
  split_ifs with h <;> simp [h]

theorem check_bind_ok {α : Type} {f : Unit → Except ConfigError α} {a : α} :
    (check ok error >>= f) = .ok a ↔ ok = true ∧ f () = .ok a := by
  unfold check
  cases ok <;> simp [bind, Except.bind]

/-- The bounds of a configuration that passed its checks, as far as the core relies on them. -/
structure Valid (c : MstpCoreConfig) : Prop where
  baudRate : c.baudRate ≠ 0
  maxMaster : c.maxMaster ≤ 127
  station : c.station ≤ c.maxMaster
  maxInfoFrames : c.maxInfoFrames ≠ 0
  frameAbort : c.tFrameAbort ≤ maxFrameAbort
  replyDelay : c.tReplyDelay ≤ maxReplyDelay
  replyMargin : c.replyTransmitMargin < c.tReplyDelay
  replyTimeout : minReplyTimeout ≤ c.tReplyTimeout ∧ c.tReplyTimeout ≤ maxReplyTimeout
  turnaround : c.tTurnaround ≤ maxUsageDelay
  usageDelay : c.tUsageDelay ≤ maxUsageDelay
  usageTimeout : minUsageTimeout ≤ c.tUsageTimeout ∧ c.tUsageTimeout ≤ maxUsageTimeout
  watchdog : watchdogCompletionMargin ≤ c.transmitWatchdog

theorem validate_ok {c : MstpCoreConfig} (h : c.validate = .ok ()) : c.Valid := by
  unfold validate at h
  cases haddr : c.validateAddresses with
  | error e => simp [haddr, bind, Except.bind] at h
  | ok u =>
    cases hbounds : c.bitTimeBounds with
    | none => simp [haddr, hbounds, bind, Except.bind] at h
    | some bounds =>
      obtain ⟨frameAbortMin, frameGapMax, postdriveMax, turnaroundMin⟩ := bounds
      simp only [haddr, hbounds, bind, Except.bind] at h
      cases htime : c.validateTimings (frameAbortMin, frameGapMax, postdriveMax, turnaroundMin) with
      | error e => simp [htime] at h
      | ok v =>
        simp only [htime] at h
        simp only [validateAddresses, check_bind_ok, check_ok, decide_eq_true_eq] at haddr
        simp only [validateTimings, check_bind_ok, check_ok, decide_eq_true_eq] at htime
        simp only [validateLimits, check_bind_ok, check_ok, decide_eq_true_eq] at h
        obtain ⟨hbaud, hmax, hstation, hinfo⟩ := haddr
        obtain ⟨habort, -, -, hdelay, hmargin, htimeout, -, hturn, husage, husageTimeout⟩ := htime
        obtain ⟨-, -, hwatchdog, -⟩ := h
        refine ⟨hbaud, hmax, hstation, hinfo, habort.2, hdelay, hmargin, htimeout,
          hturn.trans husage, husage, husageTimeout, ?_⟩
        refine le_trans ?_ hwatchdog
        exact le_min (Nat.le_add_left _ _) (by decide)

end MstpCoreConfig

end RustyBacnet.Mstp
