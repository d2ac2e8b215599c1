import RustyBacnet.Router.Tasks

/-!
# Rejecting, forwarding and delivering

`reject.rs`, `forward.rs`, `reply.rs` and the parts of `ingress.rs` that every frame's handler
uses: where a reject goes, the route to a network, the rewrite for the next hop, and the local
delivery of an APDU.
-/

namespace RustyBacnet.Router

/-! ## What a frame comes to -/

/-- The owned return route of a locally delivered request. -/
structure ReplyPlan where
  port : PortId
  peer : Mac
  source : Option (UInt16 × Mac)
  destination : Option (UInt16 × Mac)
  deriving DecidableEq

inductive ReplyPlanError where
  | emptyDestination
  | npdu (error : EncodeError)
  deriving DecidableEq

namespace ReplyPlan

/-- The buffer the plan's header is tried in: both addresses at their longest. -/
def headerRoom : ℕ := 2 + 2 * (3 + maxMacLen) + 1

def own (address : Address) : Except ReplyPlanError (UInt16 × Mac) :=
  match Mac.fromSlice address.mac with
  | some mac => .ok (address.network, mac)
  | none => .error (.npdu .addressTooLong)

def ownOptional : Option Address → Except ReplyPlanError (Option (UInt16 × Mac))
  | none => .ok none
  | some address => (own address).map some

def new (port : PortId) (peer : List UInt8) (source destination : Option Address) :
    Except ReplyPlanError ReplyPlan :=
  if destination.any fun a => a.network == globalNetwork || a.mac.isEmpty then
    if destination.any fun a => a.network == globalNetwork then .error (.npdu .reservedNetwork)
    else .error .emptyDestination
  else
    match ({ Npdu.apdu [] with source := source, destination := destination }.encodeInto
      (List.replicate headerRoom 0)).1 with
    | .error refused => .error (.npdu refused)
    | .ok _ =>
      match Mac.fromSlice peer with
      | none => .error (.npdu .addressTooLong)
      | some peer =>
        match ownOptional source, ownOptional destination with
        | .ok source, .ok destination => .ok ⟨port, peer, source, destination⟩
        | .error refused, _ => .error refused
        | _, .error refused => .error refused

end ReplyPlan

/-- An APDU for the router's own application. The reply plan is missing where the source's `expect`
would panic. -/
structure Delivery where
  apdu : List UInt8
  apduOffset : ℕ
  source : Option Address
  group : Bool
  global : Bool
  expectingReply : Bool
  priority : NetworkPriority
  reply : Option ReplyPlan
  deriving DecidableEq

inductive Discard where
  | unknownPort
  | sourceTooLong (length : ℕ)
  | addressTooLong (field : AddressField) (length : UInt8)
  | malformed (fault : Malformed)
  | globalWithDadr
  | broadcastNotUnconfirmed
  | groupDadr
  | hopCount
  | denied
  | badMessage
  | unroutable
  | unwritable
  | duplicate
  | ownSource
  deriving DecidableEq

/-- What a frame means for the router itself. -/
inductive Received where
  | delivered (delivery : Delivery)
  | toRouter (npdu : Npdu)
  | handled
  | discarded (discard : Discard)
  deriving DecidableEq

/-- What the router knows about the frame in hand. -/
structure Arrival where
  port : PortId
  network : UInt16
  source : List UInt8
  sourceMac : Mac
  linkGroup : Bool
  now : Instant
  deriving DecidableEq

/-- `local`: the local delivery of an APDU. -/
def deliver (at_ : Arrival) (npdu : Npdu) (group global : Bool) : Delivery where
  apdu := npdu.payload
  apduOffset := npdu.payloadOffset
  source := npdu.source
  group := group
  global := global
  expectingReply := npdu.expectingReply
  priority := npdu.priority
  reply :=
    (ReplyPlan.new at_.port at_.source (if group then none else npdu.destination)
      npdu.source).toOption

/-- Who first sent an NPDU: its source, or the link sender on the arrival network. -/
def originOf (at_ : Arrival) (npdu : Npdu) : Address := npdu.source.getD ⟨at_.network, at_.source⟩

/-- `source_of`: the source fields a relay gives an NPDU. -/
def sourceOf (at_ : Arrival) (npdu : Npdu) : Option Address :=
  npdu.source.or (some ⟨at_.network, at_.source⟩)

def dnetOf (npdu : Npdu) : UInt16 := npdu.destination.elim 0 Address.network

def isUnconfirmed (apdu : List UInt8) : Bool := apdu.head?.any fun first : UInt8 => first >>> 4 == 1

namespace Storage

variable {R H D B : ℕ} {G : Type}

/-- Whether an address is this router: a port's network with the router's MAC on that port. -/
def isOwn (s : Storage R H D B G) (address : Address) : Bool :=
  s.ports.any fun port => port.network == address.network && port.mac.octets == address.mac

/-- The return path of a reject about the frame in hand. -/
def rejectOrigin (s : Storage R H D B G) (at_ : Arrival) (origin : Option Address)
    (network : UInt16) : Option RejectOrigin :=
  match origin with
  | none => some (.new at_.port at_.source none network)
  | some origin =>
    if s.isOwn origin then none
    else
      match s.ports.findIdx? fun port => port.network == origin.network with
      | some index => some (.new ⟨UInt8.ofNat index⟩ origin.mac none network)
      | none => some (.new at_.port at_.source (some origin) network)

def queueReject (s : Storage R H D B G) (origin : RejectOrigin) (reason : RejectMessageReason) :
    Storage R H D B G :=
  (s.bump .rejects).push (origin.task reason)

/-- Answer the frame in hand with a reject that names `network`. -/
def reject (s : Storage R H D B G) (at_ : Arrival) (origin : Option Address) (network : UInt16)
    (reason : RejectMessageReason) : Storage R H D B G :=
  match s.rejectOrigin at_ origin network with
  | some origin => s.queueReject origin reason
  | none => s.observe (.ownOrigin network)

/-- Look for a network with no route, unless a search for it is young. -/
def solicit (s : Storage R H D B G) (allBut : PortId) (dnet : UInt16) (now : Instant)
    (cooldown : Duration) : Storage R H D B G :=
  let (discovery, solicits) := s.discovery.shouldSolicit dnet now cooldown
  let s := { s with discovery := discovery }
  if solicits then (s.bump .solicitations).push (.solicit allBut dnet) else s

/-- The usable route to a network, marked as used; without one, the search and the reject that
answer the frame. -/
def findRoute (s : Storage R H D B G) (at_ : Arrival) (npdu : Npdu) (dnet : UInt16)
    (options : Options) : Storage R H D B G × Option Route :=
  match s.table.lookup dnet with
  | none =>
    let s := s.observe (.noRoute at_.port dnet)
    let s := s.solicit at_.port dnet at_.now options.discoveryCooldown
    (s.reject at_ npdu.source dnet .notDirectlyConnected, none)
  | some route =>
    let reachability := s.table.effectiveReachability dnet at_.now
    let s := s.setTable (s.table.touch dnet at_.now)
    match reachability with
    | some .busy => (s.reject at_ npdu.source dnet .routerBusy, none)
    | some .unreachable =>
      let s := s.observe (.noRoute at_.port dnet)
      (s.reject at_ npdu.source dnet .notDirectlyConnected, none)
    | _ => (s, some route)

def groupOf [GroupClassifier G] (s : Storage R H D B G) (route : Route) (npdu : Npdu) : Group :=
  match npdu.destination with
  | some destination =>
    if route.direct && !destination.mac.isEmpty then
      match s.portOf route.port with
      | some port => GroupClassifier.classify port.groups destination.mac
      | none => .no
    else .no
  | none => .no

def groupDrop (s : Storage R H D B G) : Storage R H D B G × Received :=
  (s.bump .groupDadrDrops, .discarded .groupDadr)

/-! ## Forwarding -/

def hopCountSpent (s : Storage R H D B G) (npdu : Npdu) : Storage R H D B G × Received :=
  ((s.bump .hopCountDrops).observe (.hopCountSpent (dnetOf npdu)), .discarded .hopCount)

/-- An NPDU rewritten for the next hop along a route, and where it goes. -/
def rewrite (at_ : Arrival) (npdu : Npdu) (route : Route) : Npdu × List UInt8 :=
  if route.direct then
    ({ npdu with destination := none, hopCount := 0, source := sourceOf at_ npdu },
      npdu.destination.elim [] Address.mac)
  else
    ({ npdu with hopCount := npdu.hopCount - 1, source := sourceOf at_ npdu },
      route.nextHop.octets)

def eligible (npdu : Npdu) : Bool := npdu.messageType != some .rejectMessageToNetwork

def setRejectOrigin (s : Storage R H D B G) (origin : RejectOrigin) : Storage R H D B G :=
  s.setCurrent { s.out.current with rejectOrigin := origin }

def forward (s : Storage R H D B G) (at_ : Arrival) (npdu : Npdu) (route : Route) :
    Storage R H D B G × Received :=
  if npdu.hopCount = 0 ∨ (!route.direct ∧ npdu.hopCount = 1) then s.hopCountSpent npdu
  else
    match s.portOf route.port with
    | none =>
      ((s.bump .unknownPort).observe (.noRoute at_.port (dnetOf npdu)), .discarded .unknownPort)
    | some egress =>
      let (rewritten, dest) := rewrite at_ npdu route
      let limit := egress.maxNpdu.get dest.isEmpty
      let octets := rewritten.encodedLen
      if limit < octets then
        let s := s.bump .egressTooLong
        let s := s.observe (.tooLong route.port octets limit
          (if eligible npdu then some (dnetOf npdu) else none))
        let s :=
          if eligible npdu then s.reject at_ npdu.source (dnetOf npdu) .messageTooLong else s
        (s, .handled)
      else
        let (s, written) := s.writeNow rewritten .forward (.toward route.port dest)
        if written then
          let s :=
            if eligible npdu then
              s.setRejectOrigin ((s.rejectOrigin at_ npdu.source (dnetOf npdu)).getD .none)
            else s
          (s, .handled)
        else (s, .discarded .unwritable)

/-- Pass a global broadcast on to every port but the arrival one. -/
def forwardGlobal (s : Storage R H D B G) (at_ : Arrival) (npdu : Npdu) : Storage R H D B G :=
  if npdu.hopCount ≤ 1 then (s.hopCountSpent npdu).1
  else
    let rewritten := { npdu with source := sourceOf at_ npdu, hopCount := npdu.hopCount - 1 }
    (s.writeFanOut rewritten .global at_.port).1

def passOnReject [GroupClassifier G] (s : Storage R H D B G) (at_ : Arrival) (npdu : Npdu) :
    Storage R H D B G × Received :=
  match npdu.destination.filter fun destination => !s.isOwn destination with
  | none => (s, .toRouter npdu)
  | some destination =>
    let route :=
      if destination.network = globalNetwork ∨ destination.network = at_.network then none
      else s.table.lookup destination.network
    match route with
    | some route =>
      if s.groupOf route npdu ≠ .no then s.groupDrop else s.forward at_ npdu route
    | none => (s.bump .unroutableRejects, .discarded .unroutable)

end Storage

end RustyBacnet.Router
