import RustyBacnet.Time

/-!
# A foreign device's registration

`node/registration.rs` of `bacnet-bip-core`: when the next Register-Foreign-Device is due, what its
answers prove, and which broadcasts are held for the first of them.
-/

namespace RustyBacnet.Bip.Node

inductive Retry where
  | backoff
  | atRenewal
  deriving DecidableEq

/-- The settings of `Foreign` that the lifecycle reads: its effective times, and whether its BBMD is
known. -/
structure Foreign where
  known : Bool
  ttl : Duration
  renewal : Duration
  timeout : Duration
  retry : Retry
  hold : ℕ
  deriving DecidableEq

structure Lease where
  since : Instant
  until_ : Instant
  deriving DecidableEq

def Lease.isLiveAt (lease : Lease) (now : Instant) : Bool := now < lease.until_

inductive AttemptOutcome where
  | pending
  | accepted
  | refused
  | timedOut
  | localError
  | cancelled
  deriving DecidableEq

/-- The events of a success. -/
inductive RegistrationEvent where
  | registered (since until_ : Instant)
  | renewed (until_ : Instant)
  deriving DecidableEq

inductive BroadcastDecision where
  | send (lapsed : Bool)
  | hold
  | full
  deriving DecidableEq

structure HeldVerdict where
  release : Bool
  count : ℕ
  deriving DecidableEq

/-- Starts of recent sent attempts in a ring of four, and the newest one pushed out. -/
structure Recent where
  starts : List Instant
  len : ℕ
  next : ℕ
  evicted : Option Instant
  deriving DecidableEq

namespace Recent

def new : Recent := ⟨[0, 0, 0, 0], 0, 0, none⟩

def push (recent : Recent) (start : Instant) : Recent :=
  ⟨recent.starts.set recent.next start,
    if recent.len = 4 then recent.len else recent.len + 1,
    (recent.next + 1) % 4,
    if recent.len = 4 then recent.starts[recent.next]? else recent.evicted⟩

/-- The start is later than the floor, if there is one. -/
def inside (floor : Option Instant) (start : Instant) : Bool := floor.all (· < start)

/-- The earliest start inside; the floor when one inside may have left the ring. -/
def earliestAfter (recent : Recent) (floor : Option Instant) : Option Instant :=
  if recent.evicted.any (inside floor) then some (floor.getD 0)
  else ((recent.starts.take recent.len).filter (inside floor)).min?

end Recent

/-! ## The lifecycle -/

/-- The registration state machine. `attempt` is the start of the attempt in flight. -/
structure Lifecycle where
  ttl : Duration
  renewal : Duration
  timeout : Duration
  retry : Retry
  holdLimit : ℕ
  waiting : Bool
  lease : Option Lease
  lapsed : Bool
  unansweredSince : Option Instant
  recent : Recent
  attempt : Option Instant
  lastStart : Option Instant
  lastOutcome : Option AttemptOutcome
  failures : ℕ
  next : Option Instant
  firstResolved : Bool
  held : ℕ
  deriving DecidableEq

namespace Lifecycle

def new (foreign : Foreign) (now : Instant) : Lifecycle where
  ttl := foreign.ttl
  renewal := foreign.renewal
  timeout := foreign.timeout
  retry := foreign.retry
  holdLimit := foreign.hold
  waiting := !foreign.known
  lease := none
  lapsed := false
  unansweredSince := none
  recent := .new
  attempt := none
  lastStart := none
  lastOutcome := none
  failures := 0
  next := if foreign.known then some now else none
  firstResolved := false
  held := 0

def retarget (lifecycle : Lifecycle) (foreign : Foreign) (now : Instant) (sameBbmd : Bool) :
    Lifecycle where
  ttl := foreign.ttl
  renewal := foreign.renewal
  timeout := foreign.timeout
  retry := foreign.retry
  holdLimit := foreign.hold
  waiting := !foreign.known
  lease := if sameBbmd then lifecycle.lease else none
  lapsed := sameBbmd && lifecycle.lapsed
  unansweredSince := if sameBbmd then lifecycle.unansweredSince else none
  recent := if sameBbmd then lifecycle.recent else .new
  attempt := none
  lastStart := none
  lastOutcome := lifecycle.lastOutcome
  failures := 0
  next := if foreign.known then some now else none
  firstResolved := sameBbmd && lifecycle.firstResolved
  held := lifecycle.held

/-- How long after its request a success may still arrive. -/
def answerWindow (lifecycle : Lifecycle) : Duration :=
  min (satAdd (satMul lifecycle.timeout 2) lifecycle.timeout) lifecycle.renewal

def lapse (lifecycle : Lifecycle) : Lifecycle := { lifecycle with lapsed := true }

def admitted (lifecycle : Lifecycle) (now : Instant) : Lifecycle :=
  { lifecycle with
    attempt := some now, next := none, lastStart := some now, lastOutcome := some .pending }

def sent (lifecycle : Lifecycle) : Lifecycle :=
  match lifecycle.attempt with
  | some start =>
    { lifecycle with
      unansweredSince := some (lifecycle.unansweredSince.getD start)
      recent := lifecycle.recent.push start }
  | none => lifecycle

/-- The first attempt ended: what becomes of the broadcasts held for it. -/
def resolveFirst (lifecycle : Lifecycle) (release : Bool) : Option HeldVerdict × Lifecycle :=
  if lifecycle.firstResolved then (none, lifecycle)
  else (if 0 < lifecycle.held then some ⟨release, lifecycle.held⟩ else none,
    { lifecycle with firstResolved := true, held := 0 })

def isLiveAt (lifecycle : Lifecycle) (now : Instant) : Bool :=
  lifecycle.lease.any (·.isLiveAt now)

/-- The lease that a success at `now` proves. -/
def proven (lifecycle : Lifecycle) (now : Instant) : Lease :=
  let floor :=
    if lifecycle.answerWindow ≤ now then some (now - lifecycle.answerWindow) else none
  let since := [lifecycle.unansweredSince, lifecycle.recent.earliestAfter floor].reduceOption.foldl
    min (lifecycle.attempt.getD now)
  ⟨since, satAdd since lifecycle.ttl⟩

/-- The lifecycle with the lease of a success, before the hold on broadcasts ends. -/
def accept (lifecycle : Lifecycle) (now : Instant) : Lifecycle :=
  let lease := lifecycle.proven now
  let first := match lifecycle.retry with
    | .backoff => lease.since
    | .atRenewal => lifecycle.attempt.getD now
  { lifecycle with
    attempt := none
    lease := some lease
    lapsed := decide (lease.until_ ≤ now)
    unansweredSince := none
    failures := 0
    next := some (satAdd first lifecycle.renewal)
    lastOutcome := some .accepted }

def accepted (lifecycle : Lifecycle) (now : Instant) :
    Option RegistrationEvent × Option HeldVerdict × Lifecycle :=
  let lease := lifecycle.proven now
  let event :=
    if lease.until_ ≤ now then none
    else if lifecycle.isLiveAt now then some (.renewed lease.until_)
    else some (.registered lease.since lease.until_)
  (event, (lifecycle.accept now).resolveFirst true)

/-- The lifecycle after a refusal, before the hold on broadcasts ends. -/
def refuse (lifecycle : Lifecycle) (now : Instant) : Lifecycle :=
  { lifecycle with
    attempt := none
    unansweredSince := none
    failures := 0
    next := some (satAdd (lifecycle.attempt.getD now) lifecycle.renewal)
    lastOutcome := some .refused }

def refused (lifecycle : Lifecycle) (now : Instant) : Option HeldVerdict × Lifecycle :=
  (lifecycle.refuse now).resolveFirst false

/-- One response timeout, doubled for each failure after the first until it reaches the renewal. -/
def backoffLoop (renewal : Duration) : ℕ → Duration → Duration
  | 0, wait => wait
  | n + 1, wait => if renewal ≤ wait then wait else backoffLoop renewal n (satMul wait 2)

def backoff (lifecycle : Lifecycle) : Duration :=
  min (backoffLoop lifecycle.renewal (lifecycle.failures - 1) lifecycle.timeout) lifecycle.renewal

/-- The lifecycle after a failure, before the hold on broadcasts ends. -/
def fail (lifecycle : Lifecycle) (now : Instant) (outcome : Option AttemptOutcome) : Lifecycle :=
  let failing := { lifecycle with failures := min (lifecycle.failures + 1) 4294967295 }
  let atRenewal := satAdd (lifecycle.attempt.getD now) lifecycle.renewal
  { failing with
    attempt := none
    next := some (match lifecycle.retry with
      | .atRenewal => atRenewal
      | .backoff => min atRenewal (satAdd now failing.backoff))
    lastOutcome := outcome.or lifecycle.lastOutcome }

def failed (lifecycle : Lifecycle) (now : Instant) (outcome : Option AttemptOutcome) :
    Option HeldVerdict × Lifecycle :=
  (lifecycle.fail now outcome).resolveFirst true

def dueNow (lifecycle : Lifecycle) (now : Instant) : Lifecycle :=
  if !lifecycle.isLiveAt now && lifecycle.next.any (now < ·) then
    { lifecycle with next := some now }
  else lifecycle

def notBefore (lifecycle : Lifecycle) (at_ : Instant) : Lifecycle :=
  if lifecycle.next.any (· < at_) then { lifecycle with next := some at_ } else lifecycle

def hint (lifecycle : Lifecycle) (now : Instant) : Lifecycle :=
  if lifecycle.attempt.isSome then lifecycle
  else
    let earliest := lifecycle.lastStart.elim now fun start =>
      max (satAdd start lifecycle.timeout) now
    if lifecycle.next.any (earliest < ·) then { lifecycle with next := some earliest }
    else lifecycle

def admitBroadcast (lifecycle : Lifecycle) (now : Instant) : BroadcastDecision × Lifecycle :=
  if !lifecycle.firstResolved && (0 < lifecycle.holdLimit || lifecycle.waiting) then
    if lifecycle.holdLimit ≤ lifecycle.held then (.full, lifecycle)
    else (.hold, { lifecycle with held := lifecycle.held + 1 })
  else (.send (!lifecycle.isLiveAt now), lifecycle)

end Lifecycle

end RustyBacnet.Bip.Node
