import RustyBacnet.Cov.Identity
import RustyBacnet.Time

/-!
# Subscriptions, policies and budgets

What a host proposes (`CovSubscription`), what a table accepts (`CovSubscriptionSnapshot`), the
policy both are held to, and the budget of one fanout. An observation is whatever the host captured:
the table keeps it and never looks inside, so its type is a parameter. A subscription's own COV
increment is read by the comparison of observations alone and is left out with it.
-/

namespace RustyBacnet.Cov

open Encoding

/-! ## Policy -/

structure CovPolicy where
  maxSubscriptionsGlobal : ℕ
  maxSubscriptionsPerPeer : ℕ
  reservedCapacity : ℕ
  reservedPeers : List (List UInt8)
  reservedRecipients : List CovRecipient
  allowIndefiniteSubscriptions : Bool
  maxIndefinitePerPeer : ℕ
  maxNotificationsPerEvent : ℕ
  maxNotificationBytesPerEvent : ℕ
  deriving DecidableEq

namespace CovPolicy

/-- `CovPolicy::default`. -/
def initial : CovPolicy where
  maxSubscriptionsGlobal := 1024
  maxSubscriptionsPerPeer := 64
  reservedCapacity := 64
  reservedPeers := []
  reservedRecipients := []
  allowIndefiniteSubscriptions := true
  maxIndefinitePerPeer := 16
  maxNotificationsPerEvent := 64
  maxNotificationBytesPerEvent := 65536

def sanitized (policy : CovPolicy) : CovPolicy :=
  { policy with
    reservedCapacity := min policy.reservedCapacity policy.maxSubscriptionsGlobal
    maxIndefinitePerPeer := min policy.maxIndefinitePerPeer policy.maxSubscriptionsPerPeer }

def isPeerReserved (policy : CovPolicy) (peer : CovRecipient) : Bool :=
  policy.reservedRecipients.contains peer ||
    match peer with
    | .direct mac => policy.reservedPeers.contains mac
    | .routed _ => false

def effectiveUnreservedCapacity (policy : CovPolicy) : ℕ :=
  if (policy.reservedPeers.isEmpty && policy.reservedRecipients.isEmpty)
      || policy.reservedCapacity == 0 then
    policy.maxSubscriptionsGlobal
  else policy.maxSubscriptionsGlobal - policy.reservedCapacity

/-- The table's capacity as `room` bounds it for `peer`. -/
def capacityFor (policy : CovPolicy) (peer : CovRecipient) : ℕ :=
  if policy.isPeerReserved peer then policy.maxSubscriptionsGlobal
  else min policy.maxSubscriptionsGlobal policy.effectiveUnreservedCapacity

theorem capacityFor_le (policy : CovPolicy) (peer : CovRecipient) :
    policy.capacityFor peer ≤ policy.maxSubscriptionsGlobal := by
  unfold capacityFor
  split_ifs
  · exact le_refl _
  · exact min_le_left _ _

end CovPolicy

/-- The counts the table keeps for the host. -/
structure CovCounters where
  subscriptionsCreated : ℕ := 0
  subscriptionsRejectedQuota : ℕ := 0
  subscriptionsRejectedCapacity : ℕ := 0
  subscriptionsRejectedIndefinite : ℕ := 0
  subscriptionsCancelled : ℕ := 0
  subscriptionsPurged : ℕ := 0
  notificationsThrottledFanout : ℕ := 0
  deriving DecidableEq

/-- The notifications and octets one change may still send. -/
structure EventBudget where
  maxNotifications : ℕ
  maxBytes : ℕ
  notificationsSent : ℕ
  bytesSent : ℕ
  deriving DecidableEq

namespace EventBudget

def isExhausted (budget : EventBudget) : Bool :=
  decide (budget.notificationsSent ≥ budget.maxNotifications)
    || decide (budget.bytesSent ≥ budget.maxBytes)

def tryConsume (budget : EventBudget) (bytes : ℕ) : Option EventBudget :=
  if budget.notificationsSent ≥ budget.maxNotifications then none
  else if budget.bytesSent + bytes > budget.maxBytes then none
  else
    some { budget with
      notificationsSent := budget.notificationsSent + 1
      bytesSent := budget.bytesSent + bytes }

def refund (budget : EventBudget) (bytes : ℕ) : EventBudget :=
  { budget with
    notificationsSent := budget.notificationsSent - 1
    bytesSent := budget.bytesSent - bytes }

end EventBudget

/-! ## Subscriptions -/

inductive CovNotificationKind where
  | single
  | multiple
  deriving DecidableEq

/-- A proposed subscription. -/
structure CovSubscription (O : Type) where
  subscriberMac : List UInt8
  subscriberNetwork : Option NpduAddress
  subscriberProcessIdentifier : UInt32
  monitoredObjectIdentifier : ObjectIdentifier
  issueConfirmedNotifications : Bool
  expiresAt : Option Instant
  lastNotifiedObservation : Option O
  monitoredProperty : Option UInt32
  monitoredPropertyArrayIndex : Option UInt32
  notificationKind : CovNotificationKind
  timestamped : Bool
  deriving DecidableEq

variable {O : Type}

namespace CovSubscription

def recipient (sub : CovSubscription O) : CovRecipient :=
  .fromEndpoint sub.subscriberMac sub.subscriberNetwork

def endpoint (sub : CovSubscription O) : SubscriberEndpoint :=
  ⟨sub.subscriberMac, sub.subscriberNetwork⟩

/-- The identity a valid recipient's subscription has. -/
def identity (sub : CovSubscription O) : Except Error CovSubscriptionKey :=
  let recipient := sub.recipient
  let processId := sub.subscriberProcessIdentifier
  let oid := sub.monitoredObjectIdentifier
  let index := sub.monitoredPropertyArrayIndex
  match sub.notificationKind, sub.monitoredProperty, index with
  | .single, none, none => .ok (.object recipient processId oid)
  | .single, some propertyId, _ => .ok (.property recipient processId oid propertyId index)
  | .multiple, some propertyId, _ =>
    .ok (.multiple ⟨recipient, processId, sub.issueConfirmedNotifications⟩ oid propertyId index)
  | _, _, _ =>
    .error (.encoding
      "COV reference requires a property; whole-object subscriptions cannot carry an index")

def key (sub : CovSubscription O) : Except Error CovSubscriptionKey :=
  match sub.recipient.validate with
  | .error refused => .error refused
  | .ok _ => sub.identity

/-- A subscription's key is of its recipient. -/
theorem recipient_of_key {sub : CovSubscription O} {key : CovSubscriptionKey}
    (h : sub.key = .ok key) : key.recipient = sub.recipient := by
  have hidentity : sub.identity = .ok key := by
    unfold CovSubscription.key at h
    cases hvalid : sub.recipient.validate with
    | error refused =>
      rw [hvalid] at h
      cases h
    | ok _ =>
      rw [hvalid] at h
      exact h
  unfold identity at hidentity
  cases hkind : sub.notificationKind with
  | single =>
    cases hproperty : sub.monitoredProperty with
    | none =>
      cases hindex : sub.monitoredPropertyArrayIndex with
      | none =>
        rw [hkind, hproperty, hindex] at hidentity
        cases hidentity
        rfl
      | some index =>
        rw [hkind, hproperty, hindex] at hidentity
        cases hidentity
    | some propertyId =>
      rw [hkind, hproperty] at hidentity
      cases hidentity
      rfl
  | multiple =>
    cases hproperty : sub.monitoredProperty with
    | none =>
      rw [hkind, hproperty] at hidentity
      cases hidentity
    | some propertyId =>
      rw [hkind, hproperty] at hidentity
      cases hidentity
      rfl

end CovSubscription

/-- An accepted subscription. Zero is the ticket of one that has completed none. -/
structure CovSubscriptionSnapshot (O : Type) where
  key : CovSubscriptionKey
  generation : ℕ
  table : ℕ
  lastSuccessfulTicket : ℕ
  flight : ℕ
  subscription : CovSubscription O
  maxNotificationDelay : Option UInt32
  subscriberMaxApdu : Option UInt16
  deriving DecidableEq

namespace CovSubscriptionSnapshot

def recipient (snapshot : CovSubscriptionSnapshot O) : CovRecipient :=
  snapshot.subscription.recipient

def endpoint (snapshot : CovSubscriptionSnapshot O) : SubscriberEndpoint :=
  snapshot.subscription.endpoint

def expiresAt (snapshot : CovSubscriptionSnapshot O) : Option Instant :=
  snapshot.subscription.expiresAt

end CovSubscriptionSnapshot

inductive CovTimeRemaining where
  | indefinite
  | finite (seconds : ℕ)
  | expired
  deriving DecidableEq

namespace CovTimeRemaining

/-- `CovTimeRemaining::at`: a positive rest is rounded up to whole seconds, within a `u32`. -/
def at_ (expiresAt : Option Instant) (now : Instant) : CovTimeRemaining :=
  match expiresAt with
  | none => .indefinite
  | some expires =>
    if expires ≤ now then .expired
    else .finite (min (satAdd (expires - now) 999999999 / 1000000000) 4294967295)

def wireSeconds : CovTimeRemaining → Option ℕ
  | .indefinite => some 0
  | .finite seconds => some seconds
  | .expired => none

theorem isSome_wireSeconds (expiresAt : Option Instant) (now : Instant) :
    (at_ expiresAt now).wireSeconds.isSome = true ↔ ∀ expires, expiresAt = some expires →
      now < expires := by
  unfold at_
  cases expiresAt with
  | none => simp [wireSeconds]
  | some expires =>
    dsimp only
    split_ifs with h
    · simp only [wireSeconds, Option.isSome_none, Bool.false_eq_true, false_iff, not_forall]
      exact ⟨expires, rfl, Nat.not_lt.mpr h⟩
    · simp only [wireSeconds, Option.isSome_some, Option.some.injEq, forall_eq', true_iff]
      exact Nat.not_le.mp h

end CovTimeRemaining

/-! ## Confirmed reports -/

/-- The timeout of each attempt and the retries after the first. -/
structure FlightTiming where
  timeout : Duration
  retries : UInt8
  deriving DecidableEq

namespace FlightTiming

/-- `FlightTiming::default`. -/
def initial : FlightTiming := ⟨fromSecs 3, 3⟩

def holdOff (timing : FlightTiming) : Duration := satMul timing.timeout (timing.retries.toNat + 1)

def deadline (timing : FlightTiming) : Duration := satMul timing.timeout (timing.retries.toNat + 2)

end FlightTiming

/-- The token a report's outcome comes back with. -/
structure Token where
  flight : ℕ
  ticket : ℕ
  deriving DecidableEq

/-- How a report ended. -/
inductive Delivery where
  | sent
  | acknowledged
  | failed
  | notSent
  deriving DecidableEq

inductive BeginRefusal where
  | notCurrent
  | busy
  deriving DecidableEq

/-- The observation one reference of a report carries, and the entry it was captured from. -/
structure Completion (O : Type) where
  key : CovSubscriptionKey
  generation : ℕ
  observation : O
  deriving DecidableEq

def Completion.new (snapshot : CovSubscriptionSnapshot O) (observation : O) : Completion O :=
  ⟨snapshot.key, snapshot.generation, observation⟩

/-- An unconfirmed report whose send has not ended. -/
structure Pending (O : Type) where
  token : Token
  completion : Completion O
  deriving DecidableEq

/-- The authority to complete a report, under its ticket. -/
inductive PreparedCovCompletion where
  | confirmed (ticket : ℕ)
  | unconfirmed (ticket : ℕ)
  deriving DecidableEq

/-- The confirmed-report state of one coordinate; a zero ticket marks no report. -/
structure FlightState (O : Type) where
  ticket : ℕ
  deadline : Option Instant
  holdUntil : Option Instant
  carried : List CovSubscriptionKey
  completes : List (Completion O)
  deriving DecidableEq

instance : Inhabited (FlightState O) := ⟨⟨0, none, none, [], []⟩⟩

namespace FlightState

/-- A report is outstanding: begun, not ended, before its deadline. -/
def outstanding (state : FlightState O) (now : Instant) : Bool :=
  state.ticket != 0 && state.deadline.all fun deadline => now < deadline

def outstandingDeadline (state : FlightState O) : Option Instant :=
  state.deadline.filter fun _ => state.ticket != 0

def idle (state : FlightState O) (now : Instant) : Bool :=
  !state.outstanding now && state.holdUntil.all fun until_ => now ≥ until_

/-- The references carried by a report that is outstanding, or failed and still owed. -/
def owedCarried (state : FlightState O) (now : Instant) : Option (List CovSubscriptionKey) :=
  if state.outstanding now || state.holdUntil.isSome then some state.carried else none

def isIdleDefault (state : FlightState O) : Bool :=
  state.ticket == 0 && state.holdUntil.isNone && state.carried.isEmpty

end FlightState

/-- What mutations ended, replaced or removed since the host last took it. -/
structure Fenced where
  tokens : List Token := []
  removed : List CovSubscriptionKey := []
  revisit : List CovSubscriptionKey := []
  contexts : List MultipleContextKey := []
  deriving DecidableEq

end RustyBacnet.Cov
