import RustyBacnet.Router.Forward

/-!
# Network messages

`control.rs` and `init.rs`: a network message that names another network is routed, any other goes
to the handler of its type. A handler reads its whole payload before it changes anything and then
asks the host, here `host : Claim → Bool`, since a frame asks at most once.
-/

namespace RustyBacnet.Router

open Swaps

/-! ## The networks one message has claimed -/

/-- Record a network; whether it is new to the message. At most `R` fit. -/
def insertClaimed (R : ℕ) (claimed : List UInt16) (network : UInt16) : List UInt16 × Bool :=
  match SortedArray.search UInt16.toNat claimed network.toNat with
  | .ok _ => (claimed, false)
  | .error index =>
    (if claimed.length < R then sink (claimed ++ [network]) index else claimed, true)

/-- Whether a message of a class with no networks covers all its sender serves. -/
def classOmits (controlClass : ControlClass) : Bool :=
  controlClass == .busy || controlClass == .available

/-- The types that are handled here whatever their DNET. -/
def alwaysHere (kind : NetworkMessageType) : Bool :=
  kind == .whatIsNetworkNumber || kind == .networkNumberIs || kind == .rejectMessageToNetwork

/-- The DNET and DADR of a message for neither every network nor the arrival one. -/
def elsewhere (at_ : Arrival) (npdu : Npdu) : Option Address :=
  npdu.destination.filter fun destination =>
    destination.network != globalNetwork && destination.network != at_.network

namespace Storage

variable {R H D B : ℕ} {G : Type}

def badMessage (s : Storage R H D B G) : Storage R H D B G × Received :=
  (s.bump .badMessages, .discarded .badMessage)

/-- The question a protected message puts to the host. -/
def claimOf (at_ : Arrival) (npdu : Npdu) (controlClass : ControlClass) (targets : Targets) :
    Claim where
  controlClass := controlClass
  port := at_.port
  portNetwork := at_.network
  source := at_.source
  messageType := npdu.messageType.getD ⟨255⟩
  vendorId := npdu.vendorId
  snet := npdu.source.map Address.network
  dnet := npdu.destination.map Address.network
  targets := targets
  targetsOmitted := classOmits controlClass && targets.isEmpty

/-- Go on with a protected message if the host allows it, and count it if not. -/
def authorized (s : Storage R H D B G) (host : Claim → Bool) (claim : Claim)
    (allowed : Storage R H D B G × Received) : Storage R H D B G × Received :=
  if host claim then allowed else (s.bump .denied, .discarded .denied)

/-- Whether the SNET and SADR name the router itself, which is counted. -/
def droppedAsOwn (s : Storage R H D B G) (npdu : Npdu) : Storage R H D B G × Bool :=
  if npdu.source.any s.isOwn then (s.bump .ownSourceDrops, true) else (s, false)

/-- The opposite of a Router-Busy or Router-Available. -/
def oppositeOf (kind : NetworkMessageType) : Option NetworkMessageType :=
  if kind = .routerBusyToNetwork then some .routerAvailableToNetwork
  else if kind = .routerAvailableToNetwork then some .routerBusyToNetwork
  else none

/-- The record's answer to a message the router would pass on. -/
def repeatsRelay (recent : Recent B) (at_ : Arrival) (npdu : Npdu) (kind : NetworkMessageType)
    (ttl : Duration) : Recent B × Bool :=
  match oppositeOf kind with
  | some opposite =>
    recent.repeatFlow at_.network at_.source kind.raw opposite.raw npdu.payload at_.now ttl
  | none =>
    let origin : Address :=
      if kind = .whoIsRouterToNetwork then originOf at_ npdu else ⟨globalNetwork, []⟩
    recent.repeatTagged origin.network origin.mac kind.raw npdu.payload at_.now ttl

/-- Whether a message the router would pass on repeats a recent one, which is counted. -/
def repeatedRelay (s : Storage R H D B G) (at_ : Arrival) (npdu : Npdu)
    (kind : NetworkMessageType) (options : Options) : Storage R H D B G × Bool :=
  match options.duplicates with
  | none => (s, false)
  | some duplicates =>
    let (recent, repeats) := repeatsRelay s.recent at_ npdu kind duplicates.ttl
    let s := { s with recent := recent }
    if repeats then (s.bump .duplicateDrops, true) else (s, false)

/-- A fan-out to every port but the arrival one, as a handler's result. -/
def relayed (s : Storage R H D B G) (at_ : Arrival) (relay : Npdu) (kind : NetworkMessageType) :
    Storage R H D B G × Received :=
  match s.writeFanOut relay (.relay kind) at_.port with
  | (s, true) => (s, .handled)
  | (s, false) => (s, .discarded .unwritable)

/-- Pass a message's data on as a fresh message of its type. -/
def rebroadcast (s : Storage R H D B G) (at_ : Arrival) (npdu : Npdu) (kind : NetworkMessageType) :
    Storage R H D B G × Received :=
  s.relayed at_ (.message kind npdu.payload) kind

def whoIsRouter (s : Storage R H D B G) (at_ : Arrival) (npdu : Npdu) (options : Options) :
    Storage R H D B G × Received :=
  match s.droppedAsOwn npdu with
  | (s, true) => (s, .discarded .ownSource)
  | (s, false) =>
    match WhoIsRouter.parse npdu.payload with
    | .error _ => s.badMessage
    | .ok .all => (s.push (.iAmAnswer at_.port none), .handled)
    | .ok (.network network) =>
      if network = 0 then s.badMessage
      else
        match s.table.lookup network with
        | some route =>
          if route.port ≠ at_.port then (s.push (.iAmAnswer at_.port (some network)), .handled)
          else (s, .handled)
        | none =>
          match s.repeatedRelay at_ npdu .whoIsRouterToNetwork options with
          | (s, true) => (s, .discarded .duplicate)
          | (s, false) =>
            s.relayed at_
              { npdu with
                destination := none
                source := some (originOf at_ npdu)
                vendorId := none }
              .whoIsRouterToNetwork

/-! ## Learning -/

/-- What the host hears of a claim, and what is counted. -/
def reportLearned (s : Storage R H D B G) (network : UInt16) (port : PortId)
    (controlClass : ControlClass) (learned : Learned) : Storage R H D B G :=
  let s :=
    match learned with
    | .moved _ flaps => if learned.flapping then s.observe (.flapping network flaps) else s
    | _ => s
  if learned.isApplied then
    (s.setTable s.table.recordLearned).observe (.learned network port controlClass)
  else s

def applyClaim (s : Storage R H D B G) (at_ : Arrival) (network : UInt16)
    (controlClass : ControlClass) (options : Options) : Storage R H D B G :=
  let (table, learned) := s.table.applyClaim network at_.port at_.sourceMac at_.now options.timing
  let s := (s.setTable table).note (.claimed network at_.port at_.now learned)
  s.reportLearned network at_.port controlClass learned

/-- One learning claim; `false` when the route cap ends the message's learning. -/
def claim (s : Storage R H D B G) (at_ : Arrival) (network : UInt16) (claimed : List UInt16)
    (controlClass : ControlClass) (options : Options) : Storage R H D B G × List UInt16 × Bool :=
  let route := s.table.lookup network
  if options.cap R ≤ s.table.len ∧ route = none then
    ((s.setTable s.table.recordLearningCap).observe (.routeCap controlClass), claimed, false)
  else
    let moving := route.any fun route => !route.direct && route.port != at_.port
    if moving then
      match insertClaimed R claimed network with
      | (claimed, false) => (s, claimed, true)
      | (claimed, true) => (s.applyClaim at_ network controlClass options, claimed, true)
    else (s.applyClaim at_ network controlClass options, claimed, true)

def claimAll (s : Storage R H D B G) (at_ : Arrival) (controlClass : ControlClass)
    (options : Options) : List UInt16 → List UInt16 → Storage R H D B G
  | [], _ => s
  | network :: rest, claimed =>
    match s.claim at_ network claimed controlClass options with
    | (s, claimed, true) => s.claimAll at_ controlClass options rest claimed
    | (s, _, false) => s

def iAmRouter (s : Storage R H D B G) (at_ : Arrival) (npdu : Npdu) (options : Options)
    (host : Claim → Bool) : Storage R H D B G × Received :=
  match (Networks.parse npdu.payload).toOption.filter fun list => !list.isEmpty with
  | none => s.badMessage
  | some list =>
    s.authorized host (claimOf at_ npdu .iAm (.networks list)) <|
      match s.repeatedRelay at_ npdu .iAmRouterToNetwork options with
      | (s, true) => (s, .discarded .duplicate)
      | (s, false) =>
        (s.claimAll at_ .iAm options list.iter []).rebroadcast at_ npdu .iAmRouterToNetwork

def iCouldBeRouter (s : Storage R H D B G) (at_ : Arrival) (npdu : Npdu) (options : Options)
    (host : Claim → Bool) : Storage R H D B G × Received :=
  match ICouldBeRouter.parse npdu.payload with
  | .error _ => s.badMessage
  | .ok offer =>
    let named := (Networks.parse (npdu.payload.take 2)).toOption.getD Networks.empty
    s.authorized host (claimOf at_ npdu .iCouldBe (.networks named)) <|
      let network := offer.network
      let fresh :=
        network != 0 && network != globalNetwork && (s.table.lookup network).isNone
      let atCap := decide (options.cap R ≤ s.table.len)
      let s :=
        if fresh && atCap then
          (s.setTable s.table.recordLearningCap).observe (.routeCap .iCouldBe)
        else s
      if fresh && !atCap then
        let (table, stored) := s.table.addLearned network at_.port at_.sourceMac at_.now
        let s := s.setTable table
        let s := if stored then s.note (.wrote network) else s
        (s.observe (.iCouldBe network offer.performanceIndex stored), .handled)
      else (s.observe (.iCouldBe network offer.performanceIndex false), .handled)

/-- Take a reject into the table, unless only the route's next router may change it. -/
def takeReject (s : Storage R H D B G) (at_ : Arrival) (reject : RejectMessageToNetwork)
    (options : Options) : Storage R H D B G × RejectEffect :=
  let offPath :=
    options.nextHopRejects &&
      (s.table.lookup reject.network).any fun route =>
        !route.direct && !s.table.isServedViaPeer reject.network at_.port at_.source
  if offPath then (s.bump .notNextHop, .notNextHop)
  else
    let (table, effect) :=
      s.table.applyReject reject.network at_.port reject.reason at_.now options.timing
    (s.setTable table, effect)

def receivedReject [GroupClassifier G] (s : Storage R H D B G) (at_ : Arrival) (npdu : Npdu)
    (options : Options) (host : Claim → Bool) : Storage R H D B G × Received :=
  match RejectMessageToNetwork.decode npdu.payload with
  | none => s.badMessage
  | some reject =>
    let named := (Networks.parse (npdu.payload.drop 1)).toOption.getD Networks.empty
    s.authorized host (claimOf at_ npdu .reject (.networks named)) <|
      let (s, effect) := s.takeReject at_ reject options
      (s.observe (.rejectReceived reject.network reject.reason effect)).passOnReject at_ npdu

/-! ## Flow control -/

/-- Mark one network as a Router-Busy or Router-Available says. -/
def mark (s : Storage R H D B G) (busy : Bool) (deadline : Instant) (network : UInt16) :
    Storage R H D B G :=
  let table := if busy then s.table.markBusy network deadline else s.table.markAvailable network
  (s.setTable table).observe (.marked network busy)

/-- Mark every network served through a peer, ascending: each pass resumes after the last network
marked, so a pass for each route is enough. -/
def markServed (s : Storage R H D B G) (at_ : Arrival) (busy : Bool) (deadline : Instant) :
    ℕ → ℕ → Storage R H D B G
  | 0, _ => s
  | passes + 1, start =>
    let next :=
      (s.table.routesServedViaPeer at_.port at_.source).find? fun network =>
        decide (start ≤ network.toNat)
    match next with
    | none => s
    | some network =>
      (s.mark busy deadline network).markServed at_ busy deadline passes (network.toNat + 1)

def markListed (s : Storage R H D B G) (at_ : Arrival) (busy : Bool) (deadline : Instant)
    (network : UInt16) : Storage R H D B G :=
  if s.table.isServedViaPeer network at_.port at_.source then s.mark busy deadline network
  else if (s.table.lookup network).any fun route => !route.direct then s.bump .notNextHop
  else s

def flowControl (s : Storage R H D B G) (at_ : Arrival) (npdu : Npdu) (busy : Bool)
    (options : Options) (host : Claim → Bool) : Storage R H D B G × Received :=
  match Networks.parse npdu.payload with
  | .error _ => s.badMessage
  | .ok list =>
    let controlClass := if busy then ControlClass.busy else .available
    s.authorized host (claimOf at_ npdu controlClass (.networks list)) <|
      let kind : NetworkMessageType :=
        if busy then .routerBusyToNetwork else .routerAvailableToNetwork
      match s.repeatedRelay at_ npdu kind options with
      | (s, true) => (s, .discarded .duplicate)
      | (s, false) =>
        let deadline := satAdd at_.now options.timing.busyFor
        let s :=
          if list.isEmpty then s.markServed at_ busy deadline s.table.len 0
          else list.iter.foldl (fun s network => s.markListed at_ busy deadline network) s
        s.rebroadcast at_ npdu kind

/-! ## Routing tables on the wire -/

/-- The entries of an update, in order; the route cap ends it. -/
def updateAll (s : Storage R H D B G) (at_ : Arrival) (options : Options) :
    List RoutingEntry → Storage R H D B G
  | [] => s
  | entry :: rest =>
    let network := entry.network
    if network = 0 ∨ network = globalNetwork then s.updateAll at_ options rest
    else if entry.portId = 0 then
      let (table, removed) := s.table.applyManagementRemoval network
      let s := s.setTable table
      let s :=
        if removed then (s.note (.removed network)).observe (.updateRemoved network) else s
      s.updateAll at_ options rest
    else
      match PortId.fromWireId entry.portId s.ports.length with
      | none =>
        (s.observe (.unknownPortId network entry.portId)).updateAll at_ options rest
      | some port =>
        if options.cap R ≤ s.table.len ∧ s.table.lookup network = none then
          (s.setTable s.table.recordLearningCap).observe (.routeCap .initMgmt)
        else
          let (table, applied) :=
            s.table.applyManagementUpdate network port at_.sourceMac at_.now
          let s := s.setTable table
          let s :=
            if applied then (s.note (.wrote network)).observe (.updateApplied network port) else s
          s.updateAll at_ options rest

def initializeRoutingTable (s : Storage R H D B G) (at_ : Arrival) (npdu : Npdu)
    (options : Options) (host : Claim → Bool) : Storage R H D B G × Received :=
  match RoutingEntries.parse npdu.payload with
  | .error _ => s.badMessage
  | .ok entries =>
    if entries.count = 0 then (s.push (.tableAck at_.port at_.sourceMac), .handled)
    else
      s.authorized host (claimOf at_ npdu .initMgmt (.entries entries)) <|
        ((s.updateAll at_ options entries.iter).push (.updateAck at_.port at_.sourceMac), .handled)

def routingTableAck (s : Storage R H D B G) (at_ : Arrival) (npdu : Npdu) (options : Options)
    (host : Claim → Bool) : Storage R H D B G × Received :=
  if npdu.payload.isEmpty then (s, .handled)
  else
    match RoutingEntries.parse npdu.payload with
    | .error _ => s.badMessage
    | .ok entries =>
      s.authorized host (claimOf at_ npdu .initAck (.entries entries)) <|
        let networks :=
          (entries.iter.map RoutingEntry.network).filter fun network =>
            network != 0 && network != globalNetwork
        (s.claimAll at_ .initAck options networks [], .handled)

/-! ## The other types -/

def networkNumberIs (s : Storage R H D B G) (at_ : Arrival) (npdu : Npdu) :
    Storage R H D B G × Received :=
  if npdu.source.isSome || npdu.destination.isSome || !at_.linkGroup then s.badMessage
  else
    match NetworkNumberIs.parse npdu.payload with
    | .error _ => s.badMessage
    | .ok number =>
      if number.network ≠ at_.network then
        (s.observe (.numberConflict at_.port at_.network number.network number.isConfigured),
          .handled)
      else (s, .handled)

def whatIsNetworkNumber (s : Storage R H D B G) (at_ : Arrival) (npdu : Npdu) :
    Storage R H D B G × Received :=
  if npdu.source.isSome || npdu.destination.isSome || !npdu.payload.isEmpty then s.badMessage
  else (s.push (.numberIs at_.port), .handled)

def establishConnection (s : Storage R H D B G) (npdu : Npdu) : Storage R H D B G × Received :=
  match EstablishConnection.parse npdu.payload with
  | .error _ => s.badMessage
  | .ok request =>
    (s.observe (.establishConnection request.network request.terminationTime), .handled)

def disconnectConnection (s : Storage R H D B G) (npdu : Npdu) : Storage R H D B G × Received :=
  match DisconnectConnection.parse npdu.payload with
  | .error _ => s.badMessage
  | .ok request =>
    let s := s.observe (.disconnectIgnored request.network)
    (s.setTable s.table.recordDisconnectRemovalIgnored, .handled)

/-- A type no handler takes: a removed security message, or one that draws a reject. -/
def unknownMessage (s : Storage R H D B G) (at_ : Arrival) (npdu : Npdu)
    (kind : NetworkMessageType) : Storage R H D B G × Received :=
  if kind.isRemovedSecurity then (s.observe (.securityMessage kind), .handled)
  else
    ((s.observe (.unknownMessage kind)).reject at_ npdu.source 0 .unknownMessageType, .handled)

def handleMessage [GroupClassifier G] (s : Storage R H D B G) (at_ : Arrival) (npdu : Npdu)
    (kind : NetworkMessageType) (options : Options) (host : Claim → Bool) :
    Storage R H D B G × Received :=
  if kind = .whoIsRouterToNetwork then s.whoIsRouter at_ npdu options
  else if kind = .iAmRouterToNetwork then s.iAmRouter at_ npdu options host
  else if kind = .iCouldBeRouterToNetwork then s.iCouldBeRouter at_ npdu options host
  else if kind = .rejectMessageToNetwork then s.receivedReject at_ npdu options host
  else if kind = .routerBusyToNetwork then s.flowControl at_ npdu true options host
  else if kind = .routerAvailableToNetwork then s.flowControl at_ npdu false options host
  else if kind = .initializeRoutingTable then s.initializeRoutingTable at_ npdu options host
  else if kind = .initializeRoutingTableAck then s.routingTableAck at_ npdu options host
  else if kind = .establishConnectionToNetwork then s.establishConnection npdu
  else if kind = .disconnectConnectionToNetwork then s.disconnectConnection npdu
  else if kind = .whatIsNetworkNumber then s.whatIsNetworkNumber at_ npdu
  else if kind = .networkNumberIs then s.networkNumberIs at_ npdu
  else s.unknownMessage at_ npdu kind

def networkMessage [GroupClassifier G] (s : Storage R H D B G) (at_ : Arrival) (npdu : Npdu)
    (kind : NetworkMessageType) (options : Options) (host : Claim → Bool) :
    Storage R H D B G × Received :=
  match (elsewhere at_ npdu).filter fun _ => !alwaysHere kind with
  | some destination =>
    match s.findRoute at_ npdu destination.network options with
    | (s, none) => (s, .handled)
    | (s, some route) =>
      if s.groupOf route npdu ≠ .no then s.groupDrop else s.forward at_ npdu route
  | none => s.handleMessage at_ npdu kind options host

end Storage

end RustyBacnet.Router
