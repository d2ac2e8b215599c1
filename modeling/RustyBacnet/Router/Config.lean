import RustyBacnet.Bip.Address
import RustyBacnet.Router.Message
import RustyBacnet.Router.Table.Holds

/-!
# How a router is set up

`config.rs`, `groups.rs` and `host.rs` of the router: its ports with their group-address rules, its
options, and what it asks of and tells its host.
-/

namespace RustyBacnet.Router

/-- What a DADR is on its delivery port. -/
inductive Group where
  | no
  | broadcast
  | refuse
  deriving DecidableEq

/-- A port's rule for group addresses. -/
class GroupClassifier (G : Type) where
  classify : G → List UInt8 → Group

/-- The rules of the links the repository has. -/
inductive Groups where
  | none
  | bip (destinations : Bip.Groups) (port : UInt16)
  | mstp
  deriving DecidableEq

def Groups.classify : Groups → List UInt8 → Group
  | .none, _ => .no
  | .bip destinations port, mac =>
    match Bip.addressFromSlice mac with
    | some address =>
      if destinations.contains address then
        if address.port = port then .broadcast else .refuse
      else .no
    | .none => .no
  | .mstp, mac => if mac = [255] then .broadcast else .no

instance : GroupClassifier Groups := ⟨Groups.classify⟩

def minPortLimit : ℕ := 64

structure PortConfig (G : Type) where
  network : UInt16
  mac : Mac
  maxNpdu : NpduLimits
  groups : G
  deriving DecidableEq

/-- Whether both limits are at least the minimum and within the scratch. -/
def limitsFit (limits : NpduLimits) (scratch : ℕ) : Bool :=
  [limits.unicast, limits.broadcast].all fun limit =>
    minPortLimit ≤ limit.toNat && limit.toNat ≤ scratch

/-! ## Options -/

/-- When a port counts as clogged and when as drained. -/
structure Congestion where
  clogAfter : Duration
  drainBelowPercent : ℕ
  repeatAfter : Duration
  deriving DecidableEq

def Congestion.default : Congestion := ⟨fromSecs 2, 50, fromSecs 20⟩

def Congestion.isValid (policy : Congestion) : Bool :=
  policy.clogAfter != 0 && policy.repeatAfter != 0 &&
    1 ≤ policy.drainBelowPercent && policy.drainBelowPercent ≤ 99

/-- How long a message counts as a duplicate. -/
structure Duplicates where
  ttl : Duration
  deriving DecidableEq

/-- How often a Router-Busy and a Router-Available of one sender may forget each other. -/
def Duplicates.resetLimit : ℕ := 4

structure Options where
  convergence : Convergence
  routeCap : Option ℕ
  learnedAge : Duration
  sweep : Duration
  timing : Timing
  discoveryCooldown : Duration
  discoveryAge : Duration
  congestion : Option Congestion
  nextHopRejects : Bool
  duplicates : Option Duplicates
  deriving DecidableEq

namespace Options

def standard : Options where
  convergence := .standard
  routeCap := none
  learnedAge := fromSecs 300
  sweep := fromSecs 60
  timing := Timing.default
  discoveryCooldown := fromSecs 5
  discoveryAge := fromSecs 30
  congestion := none
  nextHopRejects := false
  duplicates := none

def cap (options : Options) (capacity : ℕ) : ℕ := options.routeCap.getD capacity

end Options

inductive ConfigError where
  | noPorts
  | tooManyPorts (count capacity : ℕ)
  | duplicateNetwork (network : UInt16)
  | reservedNetwork (port : PortId) (network : UInt16)
  | limit (port : PortId)
  | routeCap (cap capacity : ℕ)
  | tableTooSmall
  | zeroSweep
  | noDuplicateRecord
  | congestion
  deriving DecidableEq

inductive LimitError where
  | unknownPort
  | outOfRange
  deriving DecidableEq

/-! ## The host -/

/-- The protected classes of network messages. -/
inductive ControlClass where
  | iAm
  | initAck
  | initMgmt
  | busy
  | available
  | reject
  | iCouldBe
  deriving DecidableEq

/-- What a protected message names. -/
inductive Targets where
  | networks (list : Networks)
  | entries (entries : RoutingEntries)
  deriving DecidableEq

namespace Targets

def iter : Targets → List UInt16
  | .networks list => list.iter
  | .entries listed => listed.iter.map RoutingEntry.network

def isEmpty (targets : Targets) : Bool := targets.iter.isEmpty

end Targets

/-- A protected message, as the host is asked about it. -/
structure Claim where
  controlClass : ControlClass
  port : PortId
  portNetwork : UInt16
  source : List UInt8
  messageType : NetworkMessageType
  vendorId : Option UInt16
  snet : Option UInt16
  dnet : Option UInt16
  targets : Targets
  targetsOmitted : Bool
  deriving DecidableEq

/-- What a router tells its host. -/
inductive Event where
  | noRoute (port : PortId) (network : UInt16)
  | learned (network : UInt16) (port : PortId) (controlClass : ControlClass)
  | flapping (network : UInt16) (flaps : ℕ)
  | routeCap (controlClass : ControlClass)
  | rejectReceived (network : UInt16) (reason : RejectMessageReason) (effect : RejectEffect)
  | marked (network : UInt16) (busy : Bool)
  | updateApplied (network : UInt16) (port : PortId)
  | updateRemoved (network : UInt16)
  | unknownPortId (network : UInt16) (portId : UInt8)
  | iCouldBe (network : UInt16) (performanceIndex : UInt8) (stored : Bool)
  | establishConnection (network : UInt16) (terminationTime : UInt8)
  | disconnectIgnored (network : UInt16)
  | securityMessage (messageType : NetworkMessageType)
  | unknownMessage (messageType : NetworkMessageType)
  | numberConflict (port : PortId) (own reported : UInt16) (configured : Bool)
  | hopCountSpent (network : UInt16)
  | tooLong (port : PortId) (octets limit : ℕ) (rejected : Option UInt16)
  | ownOrigin (network : UInt16)
  | purged (network : UInt16)
  | pendingExpired (network : UInt16)
  | discoveryExpired (network : UInt16)
  deriving DecidableEq

end RustyBacnet.Router
