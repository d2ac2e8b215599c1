import RustyBacnet.Cov.Subscription
import RustyBacnet.Cov.VecMap

/-!
# The subscription table

`CovTable`, its lookups, and the mutations that take entries away: removal by key, context, object
or route, and expiry. Generations and tickets are checked against `2^64` where they are issued; the
flight counter and the counts would take as many calls to wrap and are plain numbers.
-/

namespace RustyBacnet.Cov

open Encoding

/-- `u64::MAX`, the last generation and the last ticket. -/
def maxSerial : ℕ := 18446744073709551615

structure CovTable (O : Type) where
  id : ℕ
  subs : List (CovSubscriptionSnapshot O)
  generation : ℕ
  issued : ℕ
  flights : VecMap ℕ (FlightState O)
  pending : List (Pending O)
  nextFlight : ℕ
  peerCounts : VecMap CovRecipient ℕ
  peerIndefiniteCounts : VecMap CovRecipient ℕ
  policy : CovPolicy
  timing : FlightTiming
  counts : CovCounters
  fenced : Fenced
  nextDue : Option Instant
  deriving DecidableEq

variable {O : Type}

namespace CovTable

/-- An empty table; `id` is the next of the process's table numbers. -/
def new (id : ℕ) (policy : CovPolicy) : CovTable O where
  id
  subs := []
  generation := 0
  issued := 0
  flights := []
  pending := []
  nextFlight := 0
  peerCounts := []
  peerIndefiniteCounts := []
  policy := policy.sanitized
  timing := .initial
  counts := {}
  fenced := {}
  nextDue := none

def withFlightTiming (table : CovTable O) (timing : FlightTiming) : CovTable O :=
  { table with timing }

def takeCounts (table : CovTable O) : CovTable O := { table with counts := {} }

def takeFenced (table : CovTable O) : Fenced × CovTable O :=
  (table.fenced, { table with fenced := {} })

def get (table : CovTable O) (key : CovSubscriptionKey) : Option (CovSubscriptionSnapshot O) :=
  SortedArray.get (·.key) table.subs key

def contains (table : CovTable O) (key : CovSubscriptionKey) : Bool := (table.get key).isSome

def peerSubscriptionCount (table : CovTable O) (peer : CovRecipient) : ℕ :=
  table.peerCounts.tally peer

def peerIndefiniteCount (table : CovTable O) (peer : CovRecipient) : ℕ :=
  table.peerIndefiniteCounts.tally peer

/-- `Entries::of_object`: the run of entries that monitor `oid`. -/
def ofObject (table : CovTable O) (oid : ObjectIdentifier) : List (CovSubscriptionSnapshot O) :=
  (table.subs.dropWhile fun entry => decide (CovSubscriptionKey.objectOrder entry.key.monitored
    < CovSubscriptionKey.objectOrder oid)).takeWhile fun entry => entry.key.monitored == oid

def multipleContextReferences (table : CovTable O) (context : MultipleContextKey) :
    List (CovSubscriptionSnapshot O) :=
  table.subs.filter fun entry => entry.key.multipleContext == some context

/-- The live entry a snapshot was taken from, whatever its expiry. -/
def liveEntry (table : CovTable O) (snapshot : CovSubscriptionSnapshot O) :
    Option (CovSubscriptionSnapshot O) :=
  if table.id != snapshot.table then none
  else
    (table.get snapshot.key).filter fun entry =>
      entry.generation == snapshot.generation && entry.flight == snapshot.flight

def remainingLifetime (table : CovTable O) (snapshot : CovSubscriptionSnapshot O) (now : Instant) :
    Option CovTimeRemaining :=
  (table.liveEntry snapshot).map fun entry => .at_ entry.expiresAt now

def isCurrent (table : CovTable O) (snapshot : CovSubscriptionSnapshot O) (now : Instant) : Bool :=
  ((table.remainingLifetime snapshot now).bind CovTimeRemaining.wireSeconds).isSome

/-! ## Flights -/

def flightIdle (table : CovTable O) (flight : ℕ) (now : Instant) : Bool :=
  (table.flights.get flight).all fun state => state.idle now

/-- Whether `ticket` is the outstanding report of `flight`. -/
def flightHolds (table : CovTable O) (flight ticket : ℕ) (now : Instant) : Bool :=
  (table.flights.get flight).any fun state => state.ticket == ticket && state.outstanding now

def tidyFlight (table : CovTable O) (flight : ℕ) : CovTable O :=
  if (table.flights.get flight).any FlightState.isIdleDefault then
    { table with flights := table.flights.remove flight }
  else table

/-- A replaced flight: its outstanding report's worker stops. -/
def fenceFlight (table : CovTable O) (flight : ℕ) : CovTable O :=
  match table.flights.get flight with
  | none => table
  | some state =>
    { table with
      flights := table.flights.remove flight
      fenced :=
        if state.ticket != 0 then
          { table.fenced with tokens := table.fenced.tokens ++ [⟨flight, state.ticket⟩] }
        else table.fenced }

/-- End the report `token` names, and owe its coordinate's references a fresh look. -/
def abandon (table : CovTable O) (token : Token) : CovTable O :=
  let table := { table with
    flights := table.flights.modify token.flight fun state =>
      { state with ticket := 0, deadline := none, carried := [], completes := [] } }
  let table := table.tidyFlight token.flight
  let keys := (table.subs.filter fun entry => entry.flight == token.flight).map (·.key)
  { table with
    fenced :=
      { table.fenced with
        revisit := table.fenced.revisit ++ keys
        tokens := table.fenced.tokens ++ [token] } }

def abandoned (table : CovTable O) (now : Instant) : List Token :=
  (table.flights.filter fun flight => flight.2.ticket != 0 && !flight.2.outstanding now).map
    fun flight => ⟨flight.1, flight.2.ticket⟩

def endAbandoned (table : CovTable O) (now : Instant) : CovTable O :=
  (table.abandoned now).foldl abandon table

/-! ## Removal -/

/-- Whether a flight outlives the entry just removed: a context's other references use it. -/
def keepsFlight (table : CovTable O) (key : CovSubscriptionKey) : Bool :=
  key.multipleContext.any fun context => !(table.multipleContextReferences context).isEmpty

def removeInternal (table : CovTable O) (key : CovSubscriptionKey) (wasCancelled : Bool) :
    Bool × CovTable O :=
  match SortedArray.remove (·.key) table.subs key with
  | (none, _) => (false, table)
  | (some sub, subs) =>
    let counts := table.counts
    (true, { table with
      subs
      fenced := { table.fenced with removed := table.fenced.removed ++ [key] }
      flights :=
        if keepsFlight { table with subs } key then table.flights
        else table.flights.remove sub.flight
      peerCounts := table.peerCounts.lower sub.recipient 1
      peerIndefiniteCounts :=
        if sub.expiresAt.isNone then table.peerIndefiniteCounts.lower sub.recipient 1
        else table.peerIndefiniteCounts
      counts :=
        if wasCancelled then
          { counts with subscriptionsCancelled := counts.subscriptionsCancelled + 1 }
        else counts })

/-- Remove each of `keys` in turn, and how many were there. -/
def removeEach (table : CovTable O) (wasCancelled : Bool) :
    List CovSubscriptionKey → ℕ × CovTable O
  | [] => (0, table)
  | key :: keys =>
    let (removed, next) := table.removeInternal key wasCancelled
    let (others, last) := next.removeEach wasCancelled keys
    (removed.toNat + others, last)

def unsubscribe (table : CovTable O) (key : CovSubscriptionKey) : Bool × CovTable O :=
  table.removeInternal key true

def unsubscribeCovMultipleContext (table : CovTable O) (context : MultipleContextKey) :
    CovTable O :=
  (table.removeEach true ((table.multipleContextReferences context).map (·.key))).2

def removeForObject (table : CovTable O) (oid : ObjectIdentifier) : CovTable O :=
  (table.removeEach false ((table.ofObject oid).map (·.key))).2

def removePeerSubscriptions (table : CovTable O) (mac : List UInt8)
    (network : Option NpduAddress) : ℕ × CovTable O :=
  let keys := (table.subs.filter fun entry => entry.endpoint == ⟨mac, network⟩).map (·.key)
  (keys.length, (table.removeEach true keys).2)

/-! ## Expiry -/

/-- Nothing is due before the earliest of the times noted. -/
def dueBy (table : CovTable O) (time : Option Instant) : CovTable O :=
  { table with nextDue := earliest [table.nextDue, time] }

def isExpired (now : Instant) (entry : CovSubscriptionSnapshot O) : Bool :=
  entry.expiresAt.any fun expires => expires ≤ now

def expiriesDue (table : CovTable O) (now : Instant) : Option Instant :=
  table.subs.foldl
    (fun due entry => if isExpired now entry then due else earliest [due, entry.expiresAt]) none

/-- The earliest of `due` and the deadlines of the outstanding reports. -/
def deadlinesDue (table : CovTable O) (due : Option Instant) : Option Instant :=
  table.flights.foldl (fun due flight => earliest [due, flight.2.outstandingDeadline]) due

/-- The full pass of `expire`. -/
def purge (table : CovTable O) (now : Instant) : ℕ × CovTable O :=
  let table := table.endAbandoned now
  let due := table.expiriesDue now
  let (purged, table) := table.removeEach false ((table.subs.filter (isExpired now)).map (·.key))
  let counts := table.counts
  (purged, { table with
    counts := { counts with subscriptionsPurged := counts.subscriptionsPurged + purged }
    nextDue := table.deadlinesDue due })

def expire (table : CovTable O) (now : Instant) : ℕ × CovTable O :=
  if table.nextDue.all fun due => now < due then (0, table) else table.purge now

/-- End every lifetime at `now`. -/
def expireAll (table : CovTable O) (now : Instant) : CovTable O :=
  let ended := { table with
    subs := table.subs.map fun entry =>
      { entry with subscription := { entry.subscription with expiresAt := some now } } }
  if ended.subs.length > 0 then ended.dueBy (some now) else ended

def subscriptionsFor (table : CovTable O) (oid : ObjectIdentifier) (now : Instant) :
    List (CovSubscriptionSnapshot O) × CovTable O :=
  let table := (table.expire now).2
  (table.ofObject oid, table)

end CovTable

end RustyBacnet.Cov
