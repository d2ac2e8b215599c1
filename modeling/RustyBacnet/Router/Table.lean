import RustyBacnet.Lib.SortedArray
import RustyBacnet.Lib.Swaps
import RustyBacnet.Npdu.Link
import RustyBacnet.Time

/-!
# The routing table

`table.rs` of `bacnet-router-core`: up to `R` routes sorted by network number, each with its
pending claim, and up to `H` hold-down records. The arrays are lists of their used front; the
source's chains of swaps are kept (`sink`, `float`, `compact`).
-/

namespace RustyBacnet.Router

open Swaps

/-- A router port, by its index in the router's port list. -/
structure PortId where
  index : UInt8
  deriving DecidableEq

namespace PortId

/-- The Port ID on the wire, which port 255 has none of. -/
def wireId (port : PortId) : Option UInt8 :=
  if port.index = 255 then none else some (port.index + 1)

/-- The port a Port ID names on a router with `portCount` ports. -/
def fromWireId (id : UInt8) (portCount : ℕ) : Option PortId :=
  if id = 0 then none
  else if id.toNat - 1 < portCount then some ⟨id - 1⟩
  else none

end PortId

inductive Reachability where
  | reachable
  | busy
  | unreachable
  deriving DecidableEq

inductive Convergence where
  | standard
  | hardened
  deriving DecidableEq

/-- How a network is reached. -/
structure Route where
  port : PortId
  direct : Bool
  nextHop : Mac
  lastSeen : Option Instant
  lastUsed : Option Instant
  reachability : Reachability
  busyUntil : Option Instant
  flapCount : ℕ
  lastPortChange : Option Instant
  deriving DecidableEq

namespace Route

def directVia (port : PortId) : Route where
  port := port
  direct := true
  nextHop := Mac.empty
  lastSeen := none
  lastUsed := none
  reachability := .reachable
  busyUntil := none
  flapCount := 0
  lastPortChange := none

def learned (port : PortId) (nextHop : Mac) (now : Instant) : Route where
  port := port
  direct := false
  nextHop := nextHop
  lastSeen := some now
  lastUsed := none
  reachability := .reachable
  busyUntil := none
  flapCount := 0
  lastPortChange := none

def used (route : Route) (lastUsed : Option Instant) : Route := { route with lastUsed := lastUsed }

def changedPort (route : Route) (flaps : ℕ) (now : Instant) : Route :=
  { route with flapCount := flaps, lastPortChange := some now }

/-- Whether the router `peer` on `port` serves the route. -/
def servedVia (route : Route) (port : PortId) (peer : List UInt8) : Bool :=
  !route.direct && route.port == port && route.nextHop.octets == peer

/-- Mark a learned route busy, unless it is unreachable. -/
def busy (route : Route) (deadline : Instant) : Route × Bool :=
  let marks := !route.direct && route.reachability != .unreachable
  (if marks then { route with reachability := .busy, busyUntil := some deadline } else route, marks)

def available (route : Route) : Route :=
  if route.direct then route else { route with reachability := .reachable, busyUntil := none }

def unreachable (route : Route) : Route :=
  if route.direct then route else { route with reachability := .unreachable, busyUntil := none }

def lapsed (route : Route) (now : Instant) : Bool :=
  route.busyUntil.any fun deadline => deadline ≤ now

def swept (route : Route) (now : Instant) : Route :=
  if route.lapsed now then { route with reachability := .reachable, busyUntil := none }
  else route

/-- The reachability once a busy mark's deadline counts. -/
def effective (route : Route) (now : Instant) : Reachability :=
  match route.busyUntil with
  | some deadline =>
    if route.reachability = .busy ∧ deadline ≤ now then .reachable else route.reachability
  | none => route.reachability

/-- A learned route no claim has refreshed for longer than `maxAge`. -/
def stale (route : Route) (now : Instant) (maxAge : Duration) : Bool :=
  !route.direct && route.lastSeen.any fun seen => maxAge < now - seen

end Route

/-- A claim that waits for a second one. -/
structure Pending where
  port : PortId
  firstSeen : Instant
  deriving DecidableEq

/-- `u64::MAX`. -/
def u64Max : ℕ := 18446744073709551615

/-- `saturating_add(1)` on a `u64`. -/
def increment (value : ℕ) : ℕ := min (value + 1) u64Max

/-- Counts of what claims and rejects did. -/
structure ClaimCounters where
  rejectApplied : ℕ := 0
  rejectDampened : ℕ := 0
  rejectDampenedSameState : ℕ := 0
  rejectDampenedHoldDown : ℕ := 0
  rejectKept : ℕ := 0
  learnedOk : ℕ := 0
  learnedCapIgnored : ℕ := 0
  flapWarned : ℕ := 0
  pendingStarted : ℕ := 0
  corroboratedApplied : ℕ := 0
  pendingExpired : ℕ := 0
  disconnectRemovalIgnored : ℕ := 0
  holdEvicted : ℕ := 0
  deriving DecidableEq

structure Timing where
  busyFor : Duration
  holdDown : Duration
  corroboration : Duration
  deriving DecidableEq

def Timing.default : Timing := ⟨fromSecs 30, fromSecs 30, fromSecs 60⟩

/-- A stored route and its pending claim. -/
structure Slot where
  network : UInt16
  route : Route
  pending : Option Pending
  deriving DecidableEq

def Slot.key (slot : Slot) : ℕ := slot.network.toNat

/-- A hold-down record. -/
structure Hold where
  network : UInt16
  port : PortId
  since : Instant
  deriving DecidableEq

def Hold.key (hold : Hold) : UInt16 × PortId := (hold.network, hold.port)

def isReserved (network : UInt16) : Bool := network == 0 || network == 0xFFFF

/-- `Holds::forget`: every record of a network is dropped. -/
def forget (holds : List Hold) (network : UInt16) : List Hold :=
  compact (fun hold => hold.network != network) holds

/-- A table of at most `R` routes and `H` hold-down records. -/
structure Table (R H : ℕ) where
  slots : List Slot
  holds : List Hold
  counters : ClaimCounters
  convergence : Convergence
  deriving DecidableEq

namespace Table

variable {R H : ℕ}

def new : Table R H where
  slots := []
  holds := []
  counters := {}
  convergence := .standard

def setConvergence (table : Table R H) (convergence : Convergence) : Table R H :=
  { table with convergence := convergence }

def count (table : Table R H) (change : ClaimCounters → ClaimCounters) : Table R H :=
  { table with counters := change table.counters }

def withHolds (table : Table R H) (holds : List Hold) : Table R H :=
  { table with holds := holds }

def len (table : Table R H) : ℕ := table.slots.length

def isFull (table : Table R H) : Bool := table.len == R

/-- The binary search by network: the index found, or the one to insert at. -/
def find (table : Table R H) (network : UInt16) : Except ℕ ℕ :=
  SortedArray.search Slot.key table.slots network.toNat

def slotOf (table : Table R H) (network : UInt16) : Option Slot :=
  match table.find network with
  | .ok index => table.slots[index]?
  | .error _ => none

def modifySlot (table : Table R H) (network : UInt16) (change : Slot → Slot) : Table R H :=
  match table.find network with
  | .ok index => { table with slots := table.slots.modify index change }
  | .error _ => table

def modifyRoute (table : Table R H) (network : UInt16) (change : Route → Route) : Table R H :=
  table.modifySlot network fun slot => { slot with route := change slot.route }

def put (table : Table R H) (network : UInt16) (route : Route) : Table R H × Bool :=
  let slot : Slot := ⟨network, route, none⟩
  match table.find network with
  | .ok index => ({ table with slots := table.slots.set index slot }, true)
  | .error index =>
    if table.len = R then (table, false)
    else ({ table with slots := sink (table.slots ++ [slot]) index }, true)

def lookup (table : Table R H) (network : UInt16) : Option Route :=
  (table.slotOf network).map Slot.route

def remove (table : Table R H) (network : UInt16) : Table R H × Option Route :=
  match table.find network with
  | .error _ => (table, none)
  | .ok index =>
    ({ table with
        slots := (float table.slots index).dropLast
        holds := forget table.holds network },
      table.lookup network)

def routes (table : Table R H) : List (UInt16 × Route) :=
  table.slots.map fun slot => (slot.network, slot.route)

def networks (table : Table R H) : List UInt16 := table.slots.map Slot.network

def addDirect (table : Table R H) (network : UInt16) (port : PortId) : Table R H × Bool :=
  if isReserved network then (table, false)
  else (table.withHolds (forget table.holds network)).put network (.directVia port)

/-- Store a learned route; a direct one is never replaced. -/
def addLearned (table : Table R H) (network : UInt16) (port : PortId) (nextHop : Mac)
    (now : Instant) : Table R H × Bool :=
  if isReserved network then (table, false)
  else
    let existing := table.lookup network
    if existing.any Route.direct then (table, false)
    else
      let lastUsed := (existing.filter fun route => route.port == port).bind Route.lastUsed
      (table.withHolds (forget table.holds network)).put network
        ((Route.learned port nextHop now).used lastUsed)

def markBusy (table : Table R H) (network : UInt16) (deadline : Instant) : Table R H :=
  table.modifyRoute network fun route => (route.busy deadline).1

def markAvailable (table : Table R H) (network : UInt16) : Table R H :=
  table.modifyRoute network Route.available

def markUnreachable (table : Table R H) (network : UInt16) : Table R H :=
  table.modifyRoute network Route.unreachable

def mapSlots (table : Table R H) (change : Slot → Slot) : Table R H :=
  { table with slots := table.slots.map change }

def mapRoutes (table : Table R H) (change : Route → Route) : Table R H :=
  table.mapSlots fun slot => { slot with route := change slot.route }

/-- Mark what a peer serves; the number of routes marked. -/
def markBusyViaPeer (table : Table R H) (port : PortId) (peer : List UInt8)
    (deadline : Instant) : Table R H × ℕ :=
  (table.mapRoutes fun route =>
      if route.servedVia port peer then (route.busy deadline).1 else route,
    table.slots.countP fun slot =>
      slot.route.servedVia port peer && (slot.route.busy deadline).2)

def markAvailableViaPeer (table : Table R H) (port : PortId) (peer : List UInt8) : Table R H × ℕ :=
  (table.mapRoutes fun route =>
      if route.servedVia port peer then route.available else route,
    table.slots.countP fun slot => slot.route.servedVia port peer)

def isServedViaPeer (table : Table R H) (network : UInt16) (port : PortId)
    (peer : List UInt8) : Bool :=
  (table.lookup network).any fun route => route.servedVia port peer

def routesServedViaPeer (table : Table R H) (port : PortId) (peer : List UInt8) : List UInt16 :=
  (table.slots.filter fun slot => slot.route.servedVia port peer).map Slot.network

/-- Drop the busy marks whose deadline has come; how many there were. -/
def clearExpiredBusy (table : Table R H) (now : Instant) : Table R H × ℕ :=
  (table.mapRoutes fun route => route.swept now,
    table.slots.countP fun slot => slot.route.lapsed now)

def effectiveReachability (table : Table R H) (network : UInt16) (now : Instant) :
    Option Reachability :=
  (table.lookup network).map fun route => route.effective now

def touch (table : Table R H) (network : UInt16) (now : Instant) : Table R H :=
  table.modifyRoute network fun route =>
    if route.direct then route else route.used (some now)

/-- Drop the learned routes that are too old; their networks, in order. -/
def purgeStale (table : Table R H) (now : Instant) (maxAge : Duration) : Table R H × List UInt16 :=
  let purged := (table.slots.filter fun slot => slot.route.stale now maxAge).map Slot.network
  ({ table with
      slots := compact (fun slot => !slot.route.stale now maxAge) table.slots
      holds := purged.foldl forget table.holds },
    purged)

end Table

end RustyBacnet.Router
