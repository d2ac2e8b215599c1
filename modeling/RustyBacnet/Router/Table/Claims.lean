import RustyBacnet.Router.Table

/-!
# Learning

`table/claims.rs`: claims with their convergence rule, flap detection and management writes.
-/

namespace RustyBacnet.Router

def flapWindow : Duration := fromSecs 60

/-- Port changes within the window that count as flapping. -/
def flapWarning : ℕ := 3

inductive LearnRefusal where
  | reserved
  | direct
  | full
  deriving DecidableEq

/-- What a claim did. -/
inductive Learned where
  | refused (refusal : LearnRefusal)
  | held
  | applied
  | moved (origin : PortId) (flaps : ℕ)
  deriving DecidableEq

namespace Learned

def isApplied : Learned → Bool
  | applied => true
  | moved _ _ => true
  | _ => false

def flapping : Learned → Bool
  | moved _ flaps => flapWarning ≤ flaps
  | _ => false

end Learned

/-- Whether a pending claim is too old to corroborate. -/
def Pending.expired (pending : Pending) (now : Instant) (timing : Timing) : Bool :=
  timing.corroboration < now - pending.firstSeen

namespace Table

variable {R H : ℕ}

/-- The flaps of a route that moves now: one more within the window, else the first. -/
def flapsAfter (existing : Route) (now : Instant) : ℕ :=
  match existing.lastPortChange with
  | some changed => if now - changed < flapWindow then min (existing.flapCount + 1) 255 else 1
  | none => 1

def warnFlap (counters : ClaimCounters) (flaps : ℕ) : ClaimCounters :=
  if flapWarning ≤ flaps then { counters with flapWarned := increment counters.flapWarned }
  else counters

/-- Store a route that changes no port; reserved and direct networks are ruled out before. -/
def learnInPlace (table : Table R H) (network : UInt16) (port : PortId) (nextHop : Mac)
    (now : Instant) : Table R H × Learned :=
  let (table, added) := table.addLearned network port nextHop now
  (table, if added then .applied else .refused .full)

def learn (table : Table R H) (network : UInt16) (port : PortId) (nextHop : Mac)
    (now : Instant) : Table R H × Learned :=
  if isReserved network then (table, .refused .reserved)
  else
    match table.lookup network with
    | some existing =>
      if existing.direct then (table, .refused .direct)
      else if existing.port ≠ port then
        let flaps := flapsAfter existing now
        let route := (Route.learned port nextHop now).changedPort flaps now
        let table := table.count fun counters => warnFlap counters flaps
        let table := table.withHolds (forget table.holds network)
        ((table.put network route).1, .moved existing.port flaps)
      else table.learnInPlace network port nextHop now
    | none => table.learnInPlace network port nextHop now

def setPending (table : Table R H) (network : UInt16) (pending : Option Pending) : Table R H :=
  table.modifySlot network fun slot => { slot with pending := pending }

def countExpired (table : Table R H) (expired : Bool) : Table R H :=
  if expired then table.count fun c => { c with pendingExpired := increment c.pendingExpired }
  else table

/-- A claim for a network, held until a second one in hardened mode when it moves the route. -/
def applyClaim (table : Table R H) (network : UInt16) (port : PortId) (nextHop : Mac)
    (now : Instant) (timing : Timing) : Table R H × Learned :=
  match table.slotOf network with
  | none => table.learn network port nextHop now
  | some slot =>
    let table := table.setPending network none
    if table.convergence = .standard then table.learn network port nextHop now
    else
      let live := slot.pending.filter fun pending => !pending.expired now timing
      let table := table.countExpired (slot.pending.any fun pending => pending.expired now timing)
      if !slot.route.direct && slot.route.port != port then
        if live.any fun pending => pending.port == port then
          let table :=
            table.count fun c => { c with corroboratedApplied := increment c.corroboratedApplied }
          table.learn network port nextHop now
        else
          let table := table.setPending network (some ⟨port, now⟩)
          (table.count fun c => { c with pendingStarted := increment c.pendingStarted }, .held)
      else table.learn network port nextHop now

/-- Drop the pending claims that are too old; their networks, in order. -/
def expirePending (table : Table R H) (now : Instant) (timing : Timing) : Table R H × List UInt16 :=
  let old := fun slot : Slot => slot.pending.any fun pending => pending.expired now timing
  let expired := (table.slots.filter old).map Slot.network
  let table :=
    table.mapSlots fun slot => if old slot then { slot with pending := none } else slot
  (table.count fun c =>
      { c with pendingExpired := Nat.iterate increment expired.length c.pendingExpired },
    expired)

def applyManagementUpdate (table : Table R H) (network : UInt16) (port : PortId)
    (nextHop : Mac) (now : Instant) : Table R H × Bool :=
  table.addLearned network port nextHop now

def applyManagementRemoval (table : Table R H) (network : UInt16) : Table R H × Bool :=
  if (table.lookup network).any fun route => !route.direct then
    let (table, removed) := table.remove network
    (table, removed.isSome)
  else (table, false)

def recordLearned (table : Table R H) : Table R H :=
  table.count fun c => { c with learnedOk := increment c.learnedOk }

def recordLearningCap (table : Table R H) : Table R H :=
  table.count fun c => { c with learnedCapIgnored := increment c.learnedCapIgnored }

def recordDisconnectRemovalIgnored (table : Table R H) : Table R H :=
  table.count fun c => { c with disconnectRemovalIgnored := increment c.disconnectRemovalIgnored }

end Table

end RustyBacnet.Router
