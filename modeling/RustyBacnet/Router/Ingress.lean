import RustyBacnet.Router.Control

/-!
# A received frame, and a request of the router's own

`ingress.rs` with the admission checks of `node.rs`, from a frame's link source to the decision on
its APDU, and `originate.rs`.
-/

namespace RustyBacnet.Router

/-! ## Admission -/

/-- A frame the checks refuse: why, the count, and what a reject needs to know. -/
structure Refused where
  discard : Discard
  count : Counter
  rejectTo : Option (Option UInt16 × Option Address)
  deriving DecidableEq

def admitSource (source : List UInt8) : Except Refused Mac :=
  match Mac.fromSlice source with
  | some mac => .ok mac
  | none => .error ⟨.sourceTooLong source.length, .addressLengthDrops, none⟩

def admitNpdu (octets : List UInt8) : Except Refused Npdu :=
  match Npdu.decode octets with
  | .error (.addressTooLong field length dnet source) =>
    .error ⟨.addressTooLong field length, .addressLengthDrops, some (dnet, source)⟩
  | .error (.malformed fault) => .error ⟨.malformed fault, .malformed, none⟩
  | .ok npdu =>
    match npdu.destination with
    | none => .ok npdu
    | some destination =>
      let global := destination.network == globalNetwork
      if global && !destination.mac.isEmpty then
        .error ⟨.globalWithDadr, .globalBroadcastDadrDrops, none⟩
      else if (global || destination.mac.isEmpty) && !npdu.isNetworkMessage &&
          !isUnconfirmed npdu.payload then
        .error ⟨.broadcastNotUnconfirmed, .broadcastPduTypeDrops, none⟩
      else .ok npdu

/-- Which address a request of the router's own comes from. -/
inductive SourceSelection where
  | egressPort
  | port (port : PortId)
  deriving DecidableEq

/-- A request of the router's own application. -/
structure Request where
  destination : Address
  apdu : List UInt8
  expectingReply : Bool
  priority : NetworkPriority
  source : SourceSelection
  deriving DecidableEq

inductive OriginateError where
  | reservedNetwork
  | globalWithDadr
  | ownAddress
  | broadcastNotUnconfirmed
  | unknownPort
  | noRoute
  | busy
  | unreachable
  | groupDestination
  | tooLong (octets limit : ℕ)
  | unwritable
  deriving DecidableEq

def noPort : PortId := ⟨255⟩

namespace Storage

variable {R H D B : ℕ} {G : Type}

/-! ## APDUs -/

/-- Whether a global broadcast repeats a recent one, which is counted. -/
def repeatedGlobal (s : Storage R H D B G) (at_ : Arrival) (npdu : Npdu) (options : Options) :
    Storage R H D B G × Bool :=
  match options.duplicates with
  | none => (s, false)
  | some duplicates =>
    let origin := originOf at_ npdu
    let (recent, repeats) :=
      s.recent.repeatApdu origin.network origin.mac npdu.payload at_.now duplicates.ttl
    let s := { s with recent := recent }
    if repeats then (s.bump .duplicateDrops, true) else (s, false)

def routeGlobal (s : Storage R H D B G) (at_ : Arrival) (npdu : Npdu) (options : Options) :
    Storage R H D B G × Received :=
  match s.droppedAsOwn npdu with
  | (s, true) => (s, .discarded .ownSource)
  | (s, false) =>
    match s.repeatedGlobal at_ npdu options with
    | (s, true) => (s, .discarded .duplicate)
    | (s, false) => (s.forwardGlobal at_ npdu, .delivered (deliver at_ npdu true true))

/-- The result of a frame that is forwarded, and maybe delivered too. -/
def forwarded (s : Storage R H D B G) (at_ : Arrival) (npdu : Npdu) (route : Route)
    (delivered : Option Delivery) : Storage R H D B G × Received :=
  match s.forward at_ npdu route, delivered with
  | (s, _), some delivery => (s, .delivered delivery)
  | (s, received), none => (s, received)

def routeAlong [GroupClassifier G] (s : Storage R H D B G) (at_ : Arrival) (npdu : Npdu)
    (destination : Address) (route : Route) : Storage R H D B G × Received :=
  let home := route.port == at_.port && route.direct
  if home && !destination.mac.isEmpty &&
      (s.portOf at_.port).any fun own => own.mac.octets == destination.mac then
    (s, .delivered (deliver at_ npdu false false))
  else
    let delivered :=
      if home && destination.mac.isEmpty then some (deliver at_ npdu true false) else none
    match s.groupOf route npdu with
    | .no => s.forwarded at_ npdu route delivered
    | .broadcast =>
      if isUnconfirmed npdu.payload then
        let npdu := { npdu with destination := some ⟨destination.network, []⟩ }
        let delivered :=
          if route.port = at_.port then some (deliver at_ npdu true false) else delivered
        s.forwarded at_ npdu route delivered
      else s.groupDrop
    | .refuse => s.groupDrop

def routeApdu [GroupClassifier G] (s : Storage R H D B G) (at_ : Arrival) (npdu : Npdu)
    (options : Options) : Storage R H D B G × Received :=
  match npdu.destination with
  | none => (s, .delivered (deliver at_ npdu at_.linkGroup false))
  | some destination =>
    if destination.network = globalNetwork then s.routeGlobal at_ npdu options
    else if !destination.mac.isEmpty && s.isOwn destination then
      (s, .delivered (deliver at_ npdu false false))
    else
      match s.findRoute at_ npdu destination.network options with
      | (s, none) => (s, .handled)
      | (s, some route) => s.routeAlong at_ npdu destination route

def dispatch [GroupClassifier G] (s : Storage R H D B G) (at_ : Arrival) (npdu : Npdu)
    (options : Options) (host : Claim → Bool) : Storage R H D B G × Received :=
  match npdu.messageType with
  | some kind => s.networkMessage at_ npdu kind options host
  | none => s.routeApdu at_ npdu options

/-- Count a frame the checks refuse; an over-long address draws a reject, unless it is a global
broadcast's. -/
def refuse (s : Storage R H D B G) (at_ : Arrival) (refused : Refused) :
    Storage R H D B G × Received :=
  let s :=
    match refused.rejectTo with
    | some (some dnet, source) =>
      if dnet ≠ globalNetwork then s.reject at_ source dnet .addressingError else s
    | _ => s
  (s.bump refused.count, .discarded refused.discard)

def receive [GroupClassifier G] (s : Storage R H D B G) (frame : Frame) (now : Instant)
    (options : Options) (host : Claim → Bool) : Storage R H D B G × Received :=
  let s := s.dropUndrained.note (.received frame now)
  match s.portOf frame.port with
  | none => (s.bump .unknownPort, .discarded .unknownPort)
  | some config =>
    match admitSource frame.source with
    | .error refused => (s.bump refused.count, .discarded refused.discard)
    | .ok sourceMac =>
      let at_ : Arrival :=
        ⟨frame.port, config.network, frame.source, sourceMac, frame.linkGroup, now⟩
      match admitNpdu frame.npdu with
      | .ok npdu => s.dispatch at_ npdu options host
      | .error refused => s.refuse at_ refused

/-! ## Requests of the router's own -/

def requestNpdu (request : Request) (destination : Address) : Npdu :=
  { Npdu.apdu request.apdu with
    expectingReply := request.expectingReply
    priority := request.priority
    destination := some destination }

def addressOf (s : Storage R H D B G) (port : PortId) : Option Address :=
  (s.portOf port).map fun config => ⟨config.network, config.mac.octets⟩

/-- The first port whose broadcast limit a request of the router's own is over. -/
def globalTooLong (s : Storage R H D B G) (named : Option PortId) (bare sourced : ℕ) :
    Option (ℕ × ℕ) :=
  s.ports.zipIdx.findSome? fun (config, index) =>
    let octets := if named = some ⟨UInt8.ofNat index⟩ then bare else sourced
    let limit := config.maxNpdu.get true
    if limit < octets then some (octets, limit) else none

def originateGlobal (s : Storage R H D B G) (request : Request) (selected : Option PortId) :
    Storage R H D B G × Except OriginateError Unit :=
  let plain := requestNpdu request ⟨globalNetwork, []⟩
  let bare := plain.encodedLen
  let named := if 1 < s.ports.length then selected else none
  let npdu := { plain with source := named.bind s.addressOf }
  let sourced := npdu.encodedLen
  match s.globalTooLong named bare sourced with
  | some (octets, limit) => (s.bump .egressTooLong, .error (.tooLong octets limit))
  | none =>
    match npdu.encodeInto s.scratch with
    | (.error _, scratch) => ((s.setScratch scratch).bump .writeFailures, .error .unwritable)
    | (.ok len, scratch) =>
      let s := s.setScratch scratch
      let current :=
        Current.new len .originate .own request.priority (.allBut (named.getD noPort))
      if named.isSome then
        let (written, header) :=
          { npdu with source := none, payload := [] }.encodeInto (List.replicate 6 0)
        let s := s.debugAssert .bareHeader (written.toOption == some 6)
        let current := current.withTail (sourced - bare) (header[1]?.getD 0)
        ((s.setCurrent current).bump .originated, .ok ())
      else ((s.setCurrent current).bump .originated, .ok ())

/-- Write a request for one port, unless it is over the port's limit. -/
def writeRequest (s : Storage R H D B G) (npdu : Npdu) (limits : NpduLimits) (port : PortId)
    (dest : List UInt8) : Storage R H D B G × Except OriginateError Unit :=
  let limit := limits.get dest.isEmpty
  let octets := npdu.encodedLen
  if limit < octets then (s.bump .egressTooLong, .error (.tooLong octets limit))
  else
    match npdu.encodeInto s.scratch with
    | (.error _, scratch) => ((s.setScratch scratch).bump .writeFailures, .error .unwritable)
    | (.ok len, scratch) =>
      let s := s.setScratch scratch
      let current := Current.new len .originate .own npdu.priority (.toward port dest)
      ((s.setCurrent current).bump .originated, .ok ())

def originateAlong [GroupClassifier G] (s : Storage R H D B G) (request : Request)
    (selected : Option PortId) (route : Route) : Storage R H D B G × Except OriginateError Unit :=
  match s.portOf route.port with
  | none => (s, .error .unknownPort)
  | some egress =>
    let npdu := requestNpdu request request.destination
    let group := s.groupOf route npdu
    if group = .refuse ∨ (group = .broadcast ∧ !isUnconfirmed request.apdu) then
      (s, .error .groupDestination)
    else
      let destination : Address :=
        if group = .broadcast then ⟨request.destination.network, []⟩ else request.destination
      let source := (selected.filter fun port => port != route.port).bind s.addressOf
      let npdu :=
        { npdu with
          source := source
          destination := if route.direct then none else some destination }
      let dest := if route.direct then destination.mac else route.nextHop.octets
      s.writeRequest npdu egress.maxNpdu route.port dest

/-- A request for one network, once its addresses are checked. -/
def originateTo [GroupClassifier G] (s : Storage R H D B G) (request : Request) (now : Instant)
    (options : Options) (selected : Option PortId) :
    Storage R H D B G × Except OriginateError Unit :=
  let dnet := request.destination.network
  match s.table.lookup dnet with
  | none => (s.solicit noPort dnet now options.discoveryCooldown, .error .noRoute)
  | some route =>
    let s := s.setTable (s.table.touch dnet now)
    match s.table.effectiveReachability dnet now with
    | some .busy => (s, .error .busy)
    | some .unreachable => (s, .error .unreachable)
    | _ => s.originateAlong request selected route

/-- The port a request is to come from, if it names one. -/
def selectSource (s : Storage R H D B G) : SourceSelection → Except OriginateError (Option PortId)
  | .egressPort => .ok none
  | .port port => if (s.portOf port).isSome then .ok (some port) else .error .unknownPort

def originate [GroupClassifier G] (s : Storage R H D B G) (request : Request) (now : Instant)
    (options : Options) : Storage R H D B G × Except OriginateError Unit :=
  let s := s.dropUndrained
  let destination := request.destination
  let global := destination.network == globalNetwork
  if destination.network = 0 then (s, .error .reservedNetwork)
  else if global && !destination.mac.isEmpty then (s, .error .globalWithDadr)
  else if !destination.mac.isEmpty && s.isOwn destination then (s, .error .ownAddress)
  else if destination.mac.isEmpty && !isUnconfirmed request.apdu then
    (s, .error .broadcastNotUnconfirmed)
  else
    match s.selectSource request.source with
    | .error refused => (s, .error refused)
    | .ok selected =>
      if global then s.originateGlobal request selected
      else s.originateTo request now options selected

end Storage

end RustyBacnet.Router
