import RustyBacnet.Router.Table.Claims

/-!
# Received rejects

`table/holds.rs`: the hold-down records and what a reject does to a learned route.
-/

namespace RustyBacnet.Router

/-- What a received reject did. `notNextHop` is the router's own verdict. -/
inductive RejectEffect where
  | applied
  | sameState
  | heldDown
  | kept
  | notNextHop
  deriving DecidableEq

namespace Holds

/-- Whether a record is for this network and arrival port. -/
def isFor (network : UInt16) (port : PortId) (hold : Hold) : Bool := hold.key == (network, port)

def since (holds : List Hold) (network : UInt16) (port : PortId) : Option Instant :=
  (holds.find? (isFor network port)).map Hold.since

/-- The index of the oldest record, the first of several: `min_by_key`. -/
def oldest (holds : List Hold) : Option ℕ :=
  (holds.map Hold.since).min?.map fun least => (holds.map Hold.since).idxOf least

/-- Record a hold-down, over the record there is or the oldest one when there is no room; whether
one was evicted. -/
def record (H : ℕ) (holds : List Hold) (network : UInt16) (port : PortId) (now : Instant) :
    List Hold × Bool :=
  let hold : Hold := ⟨network, port, now⟩
  match holds.findIdx? (isFor network port) with
  | some index => (holds.set index hold, false)
  | none =>
    if holds.length < H then (holds ++ [hold], false)
    else
      match oldest holds with
      | some index => (holds.set index hold, true)
      | none => (holds, true)

end Holds

namespace Table

variable {R H : ℕ}

/-- Whether a reject with this reason would change the route's effective state. -/
def rejectChanges (route : Route) (reason : RejectMessageReason) (now : Instant) : Bool :=
  !route.direct &&
    if reason = .notDirectlyConnected then route.reachability != .unreachable
    else if reason = .routerBusy then
      route.reachability != .unreachable && (route.reachability != .busy || route.lapsed now)
    else false

/-- Mark a route as a reject with this reason asks; only reasons 1 and 2 get here. -/
def markRejected (table : Table R H) (network : UInt16) (reason : RejectMessageReason)
    (now : Instant) (timing : Timing) : Table R H :=
  if reason = .notDirectlyConnected then table.markUnreachable network
  else table.markBusy network (satAdd now timing.busyFor)

/-- Start the hold-down of a network and arrival port. -/
def recordHold (table : Table R H) (network : UInt16) (port : PortId) (now : Instant) : Table R H :=
  let (holds, evicted) := Holds.record H table.holds network port now
  let table := table.withHolds holds
  if evicted then table.count fun c => { c with holdEvicted := increment c.holdEvicted } else table

/-- What a received reject does to the route it is about. -/
def applyReject (table : Table R H) (network : UInt16) (port : PortId)
    (reason : RejectMessageReason) (now : Instant) (timing : Timing) : Table R H × RejectEffect :=
  let learned := (table.lookup network).any fun route => !route.direct
  if learned ∧ reason ≠ .notDirectlyConnected ∧ reason ≠ .routerBusy then
    (table.count fun c => { c with rejectKept := increment c.rejectKept }, .kept)
  else
    let changes := (table.lookup network).any fun route => rejectChanges route reason now
    let heldDown :=
      (Holds.since table.holds network port).any fun since => now - since < timing.holdDown
    if !changes || heldDown then
      let table := table.count fun c => { c with rejectDampened := increment c.rejectDampened }
      if changes then
        (table.count fun c =>
            { c with rejectDampenedHoldDown := increment c.rejectDampenedHoldDown },
          .heldDown)
      else
        (table.count fun c =>
            { c with rejectDampenedSameState := increment c.rejectDampenedSameState },
          .sameState)
    else
      let table := table.count fun c => { c with rejectApplied := increment c.rejectApplied }
      ((table.markRejected network reason now timing).recordHold network port now, .applied)

end Table

end RustyBacnet.Router
