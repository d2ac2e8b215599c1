import RustyBacnet.Router.Ingress
import RustyBacnet.Router.Table.Ops

/-!
# The router

`router.rs`: how a router is built over its storage, its calls, and runs of calls. A call with a
time takes a time before the latest one as that latest one.
-/

namespace RustyBacnet.Router

/-- A router with its options, over its storage. -/
structure Engine (R H D B : ℕ) (G : Type) where
  storage : Storage R H D B G
  options : Options

def checkPort {G : Type} (ports : List (PortConfig G)) (scratch : ℕ) (index : ℕ)
    (port : PortConfig G) : Option ConfigError :=
  if port.network = 0 ∨ port.network = globalNetwork then
    some (.reservedNetwork ⟨UInt8.ofNat index⟩ port.network)
  else if (ports.take index).any fun other => other.network == port.network then
    some (.duplicateNetwork port.network)
  else if !limitsFit port.maxNpdu scratch then some (.limit ⟨UInt8.ofNat index⟩)
  else none

/-- The checks of `Router::new` for `capacity` ports, ahead of any change to the storage. -/
def checkConfig {G : Type} (R B capacity scratch : ℕ) (ports : List (PortConfig G))
    (options : Options) : Option ConfigError :=
  if ports = [] then some .noPorts
  else if min capacity 255 < ports.length then
    some (.tooManyPorts ports.length (min capacity 255))
  else
    match ports.zipIdx.findSome? fun (port, index) => checkPort ports scratch index port with
    | some refused => some refused
    | none =>
      if options.routeCap.any fun cap => decide (R < cap) then
        some (.routeCap (options.routeCap.getD 0) R)
      else if options.sweep = 0 then some .zeroSweep
      else if options.duplicates.isSome ∧ B = 0 then some .noDuplicateRecord
      else if options.congestion.any fun policy => !policy.isValid then some .congestion
      else none

/-- The table with every port's network, in port order. -/
def addPorts {R H : ℕ} {G : Type} (table : Table R H) :
    List (PortConfig G × ℕ) → Option (Table R H)
  | [] => some table
  | (port, index) :: rest =>
    match table.addDirect port.network ⟨UInt8.ofNat index⟩ with
    | (table, true) => addPorts table rest
    | (_, false) => none

namespace Storage

variable {R H D B : ℕ} {G : Type}

/-- The send just polled was refused for a full queue: on a clogged port its origin is told. -/
def refusedWhileClogged (s : Storage R H D B G) : Storage R H D B G :=
  let clogged := (s.flows[s.out.lastPort.index.toNat]?).any Flow.clogged
  match s.out.current.rejectOrigin.asOption with
  | some origin => if clogged then s.queueReject origin .routerBusy else s
  | none => s

/-- End the table answer the refused send belonged to. -/
def endRefusedAnswer (s : Storage R H D B G) : Storage R H D B G :=
  let ends := s.out.lastTableAck && s.out.tasks.head?.any fun task => task.kind == .tableAck
  let s := { s with out := { s.out with lastTableAck := false } }
  if ends then { s with out := s.out.pop } else s

def refusedLater (s : Storage R H D B G) (why : SendRefusal) (origin : Option RejectOrigin) :
    Storage R H D B G :=
  let s :=
    if why = .tooLong then
      let s := s.bump .egressTooLong
      match origin with
      | some origin => s.queueReject origin .messageTooLong
      | none => s
    else s
  s.bump .refused

def egressBacklog (s : Storage R H D B G) (port : PortId) (backlog : Backlog) (now : Instant)
    (policy : Congestion) : Storage R H D B G :=
  match s.flows[port.index.toNat]? with
  | none => s
  | some flow =>
    let (flow, announced) := flow.report backlog now policy
    let s := s.setFlow port.index.toNat flow
    match announced with
    | .busy => s.bump .busyAnnounced
    | .available => s.bump .availableAnnounced
    | .none => s

def observeAll (s : Storage R H D B G) (event : UInt16 → Event) (networks : List UInt16) :
    Storage R H D B G :=
  networks.foldl (fun s network => s.observe (event network)) s

def noteAll (s : Storage R H D B G) (note : UInt16 → Note) (networks : List UInt16) :
    Storage R H D B G :=
  networks.foldl (fun s network => s.note (note network)) s

def sweep (s : Storage R H D B G) (now : Instant) (options : Options) : Storage R H D B G :=
  let (table, purged) := s.table.purgeStale now options.learnedAge
  let s := ((s.setTable table).noteAll .purged purged).observeAll .purged purged
  let s := s.setTable (s.table.clearExpiredBusy now).1
  let (table, expired) := s.table.expirePending now options.timing
  let s := (s.setTable table).observeAll .pendingExpired expired
  let (discovery, forgotten) := s.discovery.expire now options.discoveryAge
  let s := { s with discovery := discovery }.observeAll .discoveryExpired forgotten
  let next := satAdd s.nextSweep options.sweep
  { s with nextSweep := if next ≤ now then satAdd now options.sweep else next }

/-- What a table operation notes: a route stored anew, removed or purged, or a claim. -/
def noteTable (s : Storage R H D B G) (op : TableOp) (outcome : TableOutcome) : Storage R H D B G :=
  match op, outcome with
  | .addDirect network _, .flag true => s.note (.wrote network)
  | .addLearned network _ _ _, .flag true => s.note (.wrote network)
  | .applyManagementUpdate network _ _ _, .flag true => s.note (.wrote network)
  | .learn network _ _ _, .learned learned =>
    if learned.isApplied then s.note (.wrote network) else s
  | .applyClaim network port _ now _, .learned learned =>
    s.note (.claimed network port now learned)
  | .remove network, .removed (some _) => s.note (.removed network)
  | .applyManagementRemoval network, .flag true => s.note (.removed network)
  | .purgeStale _ _, .networks purged => s.noteAll .purged purged
  | _, _ => s

end Storage

/-- A call into a router. `table` is an operation through `table_mut`. -/
inductive Call where
  | start
  | announcePort (port : PortId)
  | receive (frame : Frame) (now : Instant) (host : Claim → Bool)
  | originate (request : Request) (now : Instant)
  | poll
  | refused (why : SendRefusal)
  | refusedLater (why : SendRefusal) (origin : Option RejectOrigin)
  | egressBacklog (port : PortId) (backlog : Backlog) (now : Instant)
  | setPortMaxNpdu (port : PortId) (limits : NpduLimits)
  | onDeadline (now : Instant)
  | cancelDiscovery
  | takeCounters
  | table (op : TableOp)

/-- What a call returns. -/
inductive Reply where
  | done
  | flag (value : Bool)
  | received (received : Received)
  | originated (result : Except OriginateError Unit)
  | action (action : Action)
  | limit (result : Except LimitError Unit)
  | counters (counters : Counter → ℕ)
  | table (outcome : TableOutcome)

namespace Engine

variable {R H D B : ℕ} {G : Type}

def newStorage (D B : ℕ) {R H : ℕ} (scratch : List UInt8) (ports : List (PortConfig G))
    (table : Table R H) (options : Options) (now : Instant) : Storage R H D B G where
  ports := ports
  flows := List.replicate ports.length .clear
  table := table
  discovery := .new
  scratch := scratch
  out := .new
  counters := fun _ => 0
  recent := .new
  nextSweep := satAdd now options.sweep
  latest := now
  notes := []

/-- `Router::new` over a storage for `capacity` ports, of which only the scratch is kept. -/
def new (R H D B : ℕ) (capacity : ℕ) (scratch : List UInt8) (ports : List (PortConfig G))
    (options : Options) (now : Instant) : Except ConfigError (Engine R H D B G) :=
  match checkConfig R B capacity scratch.length ports options with
  | some refused => .error refused
  | none =>
    match addPorts ((Table.new : Table R H).setConvergence options.convergence) ports.zipIdx with
    | none => .error .tableTooSmall
    | some table => .ok ⟨newStorage D B scratch ports table options now, options⟩

theorem new_cases {capacity : ℕ} {scratch : List UInt8} {ports : List (PortConfig G)}
    {options : Options} {now : Instant} {router : Engine R H D B G}
    (h : new R H D B capacity scratch ports options now = .ok router) :
    checkConfig R B capacity scratch.length ports options = none ∧
      ∃ table, addPorts ((Table.new : Table R H).setConvergence options.convergence) ports.zipIdx
          = some table ∧
        router = ⟨newStorage D B scratch ports table options now, options⟩ := by
  unfold new at h
  split at h
  · cases h
  · split at h
    · cases h
    · cases h
      exact ⟨‹_›, _, ‹_›, rfl⟩

def withStorage (router : Engine R H D B G) (storage : Storage R H D B G) : Engine R H D B G :=
  { router with storage := storage }

def clocked (router : Engine R H D B G) (now : Instant) : Storage R H D B G :=
  { router.storage with latest := max router.storage.latest now }

/-- `Router::refused`: the send just polled was not taken. -/
def refused (router : Engine R H D B G) (why : SendRefusal) : Storage R H D B G :=
  let s := (router.storage.refusedLater why none).endRefusedAnswer
  if router.options.congestion.isSome ∧ why = .full then s.refusedWhileClogged else s

def setPortMaxNpdu (s : Storage R H D B G) (port : PortId) (limits : NpduLimits) :
    Storage R H D B G × Except LimitError Unit :=
  match s.portOf port with
  | none => (s, .error .unknownPort)
  | some config =>
    if !limitsFit limits s.scratch.length then (s, .error .outOfRange)
    else
      ({ s with ports := s.ports.set port.index.toNat { config with maxNpdu := limits } }, .ok ())

def step [GroupClassifier G] (router : Engine R H D B G) : Call → Engine R H D B G × Reply
  | .start => (router.withStorage (router.storage.dropUndrained.push .announce), .done)
  | .announcePort port =>
    if (router.storage.portOf port).isSome then
      (router.withStorage (router.storage.dropUndrained.push (.announcePort port)), .flag true)
    else (router, .flag false)
  | .receive frame now host =>
    let s := router.clocked now
    let (s, received) := s.receive frame s.latest router.options host
    (router.withStorage s, .received received)
  | .originate request now =>
    let s := router.clocked now
    let (s, result) := s.originate request s.latest router.options
    (router.withStorage s, .originated result)
  | .poll =>
    let (s, action) := router.storage.poll
    (router.withStorage s, .action action)
  | .refused why => (router.withStorage (router.refused why), .done)
  | .refusedLater why origin =>
    (router.withStorage (router.storage.refusedLater why origin), .done)
  | .egressBacklog port backlog now =>
    let s := router.clocked now
    match router.options.congestion with
    | some policy => (router.withStorage (s.egressBacklog port backlog s.latest policy), .done)
    | none => (router.withStorage s, .done)
  | .setPortMaxNpdu port limits =>
    let (s, result) := setPortMaxNpdu router.storage port limits
    (router.withStorage s, .limit result)
  | .onDeadline now =>
    let s := router.clocked now
    (router.withStorage (if s.latest < s.nextSweep then s else s.sweep s.latest router.options),
      .done)
  | .cancelDiscovery =>
    (router.withStorage { router.storage with discovery := router.storage.discovery.cancel },
      .done)
  | .takeCounters =>
    (router.withStorage { router.storage with counters := fun _ => 0 },
      .counters router.storage.counters)
  | .table op =>
    let (table, outcome) := router.storage.table.apply op
    (router.withStorage ((router.storage.setTable table).noteTable op outcome), .table outcome)

def run [GroupClassifier G] (router : Engine R H D B G) (calls : List Call) : Engine R H D B G :=
  calls.foldl (fun router call => (router.step call).1) router

def benchPorts : List (PortConfig Groups) :=
  [⟨1, ⟨[0x0A], by decide⟩, .both 64, .none⟩, ⟨2, ⟨[0x0B], by decide⟩, .both 64, .mstp⟩]

theorem bench_isSome (options : Options) (h : checkConfig 4 4 2 64 benchPorts options = none) :
    (new 4 2 2 4 2 (List.replicate 64 0) benchPorts options 0).toOption.isSome = true := by
  unfold new
  rw [List.length_replicate, h]
  rfl

theorem bench_standard : checkConfig 4 4 2 64 benchPorts .standard = none := by decide

def bench (options : Options) (h : checkConfig 4 4 2 64 benchPorts options = none) :
    Engine 4 2 2 4 Groups :=
  (new 4 2 2 4 2 (List.replicate 64 0) benchPorts options 0).toOption.get (bench_isSome options h)

theorem ok_of_isSome {ε α : Type} {result : Except ε α} (h : result.toOption.isSome = true) :
    result = .ok (result.toOption.get h) := by
  cases result with
  | error refused => cases h
  | ok value => rfl

theorem new_bench (options : Options) (h : checkConfig 4 4 2 64 benchPorts options = none) :
    new 4 2 2 4 2 (List.replicate 64 0) benchPorts options 0 = .ok (bench options h) :=
  ok_of_isSome (bench_isSome options h)

end Engine

end RustyBacnet.Router
