import Mathlib.Algebra.GroupWithZero.Nat
import RustyBacnet.Router.Output

/-!
# Writing what waits

`tasks.rs` and the announcements of `congestion.rs`: each queued task is written into the scratch
when polling reaches it, from the table as it is then, and behind the tasks the congestion
announcements. `poll` loops until it has a send or nothing is left.
-/

namespace RustyBacnet.Router

open BigEndian

def ackEntries : ℕ := (501 - 3 - 1) / RoutingEntries.entryLen

/-- Write a network message with no addresses: its header, then what `data` writes behind it. -/
def writeMessage (scratch : List UInt8) (kind : NetworkMessageType)
    (data : List UInt8 → Except DataError ℕ × List UInt8) : Option ℕ × List UInt8 :=
  let header := Npdu.message kind []
  let cut := header.encodedLen
  if scratch.length < cut then (none, scratch)
  else
    match data (scratch.drop cut) with
    | (.error _, rest) => (none, scratch.take cut ++ rest)
    | (.ok len, rest) =>
      match header.encodeInto (scratch.take cut) with
      | (.error _, head) => (none, head ++ rest)
      | (.ok _, head) => (some (cut + len), head ++ rest)

/-- Write an NPDU into the scratch: `encode_into(..).ok()`. -/
def writeNpdu (scratch : List UInt8) (npdu : Npdu) : Option ℕ × List UInt8 :=
  match npdu.encodeInto scratch with
  | (.ok len, scratch) => (some len, scratch)
  | (.error _, scratch) => (none, scratch)

/-- The routes from network `start` on that have a wire Port ID. -/
def wireEntries {R H : ℕ} (table : Table R H) (start : ℕ) : List (UInt16 × UInt8) :=
  (table.routes.filter fun (network, _) => start ≤ network.toNat).filterMap
    fun (network, route) => route.port.wireId.map fun id => (network, id)

def otherNetworks {G : Type} (ports : List (PortConfig G)) (port : PortId) : List UInt16 :=
  (ports.zipIdx.filter fun (_, index) => index != port.index.toNat).map
    fun (config, _) => config.network

/-- An output a task has written, or failed to write. -/
structure Written where
  len : Option ℕ
  kind : Kind
  cause : Cause
  target : Target

/-- What a task writes next: the scratch afterwards, the output, if it has any, and the cursor of
the one behind it. -/
structure TaskOutput where
  scratch : List UInt8
  output : Option Written
  next : Option ℕ

def TaskOutput.once (written : Option ℕ × List UInt8) (kind : Kind) (cause : Cause)
    (target : Target) : TaskOutput :=
  ⟨written.2, some ⟨written.1, kind, cause, target⟩, none⟩

namespace Storage

variable {R H D B : ℕ} {G : Type}

def writeNumberIs (s : Storage R H D B G) (port : PortId) : Option ℕ × List UInt8 :=
  match s.portOf port with
  | none => (none, s.scratch)
  | some config =>
    let data := NetworkNumberIs.toBytes ⟨config.network, NetworkNumberIs.configured⟩
    writeNpdu s.scratch (.message .networkNumberIs data)

def announceEnd (s : Storage R H D B G) : ℕ := 2 * s.ports.length

/-- Write the next startup announcement from `cursor` on, among those left: its cursor, its length
and the scratch. -/
def nextAnnouncement (s : Storage R H D B G) (cursor : ℕ) :
    ℕ → Option (ℕ × Option ℕ × List UInt8)
  | 0 => none
  | left + 1 =>
    let port : PortId := ⟨UInt8.ofNat (cursor / 2)⟩
    if cursor % 2 = 0 then some (cursor, s.writeNumberIs port)
    else if 1 < s.ports.length then
      some (cursor,
        writeMessage s.scratch .iAmRouterToNetwork
          (Networks.write (otherNetworks s.ports port)))
    else s.nextAnnouncement (cursor + 1) left

def rejectNpdu (task : Task) : Npdu :=
  let data := RejectMessageToNetwork.toBytes ⟨task.reason, task.network⟩
  let npdu := Npdu.message .rejectMessageToNetwork data
  if task.originNetwork ≠ 0 then
    { npdu with destination := some ⟨task.originNetwork, task.origin.octets⟩ }
  else npdu

/-- The networks an I-Am-Router answer lists: those behind other ports, unless unreachable. -/
def answeredNetworks (s : Storage R H D B G) (port : PortId) : List UInt16 :=
  (s.table.routes.filter fun (_, route) =>
    route.port != port && route.reachability != .unreachable).map Prod.fst

def iAmOutput (s : Storage R H D B G) (task : Task) (networks : List UInt16) : TaskOutput :=
  .once (writeMessage s.scratch .iAmRouterToNetwork (Networks.write networks))
    (.answer .iAmRouterToNetwork) .ingress (.broadcast task.port)

def tableAckOutput (s : Storage R H D B G) (task : Task) : TaskOutput :=
  let entries := (wireEntries s.table task.cursor).take ackEntries
  let last := entries.getLast?.map Prod.fst
  if task.cursor ≠ 0 ∧ last = none then ⟨s.scratch, none, none⟩
  else
    let message := NetworkMessageType.initializeRoutingTableAck
    let (len, scratch) := writeMessage s.scratch message (RoutingEntries.write entries)
    ⟨scratch, some ⟨len, .answer message, .ingress, .unicast task.port task.dest.octets⟩,
      if len.isSome then last.map fun network => network.toNat + 1 else none⟩

def announceOutput (s : Storage R H D B G) (task : Task) : TaskOutput :=
  let stop :=
    if task.kind = .announcePort then (task.port.index.toNat + 1) * 2 else s.announceEnd
  match s.nextAnnouncement task.cursor (s.announceEnd - task.cursor) with
  | none => ⟨s.scratch, none, none⟩
  | some (cursor, len, scratch) =>
    let kind :=
      if cursor % 2 = 0 then NetworkMessageType.networkNumberIs
      else NetworkMessageType.iAmRouterToNetwork
    ⟨scratch, some ⟨len, .announce kind, .own, .broadcast ⟨UInt8.ofNat (cursor / 2)⟩⟩,
      if cursor + 1 < stop then some (cursor + 1) else none⟩

def taskOutput (s : Storage R H D B G) (task : Task) : TaskOutput :=
  match task.kind with
  | .empty => ⟨s.scratch, none, none⟩
  | .solicit =>
    .once (writeNpdu s.scratch (.message .whoIsRouterToNetwork (toBytes16 task.network)))
      .solicit .ingress (.allBut task.port)
  | .reject =>
    .once (writeNpdu s.scratch (rejectNpdu task)) (.reject task.reason) .ingress
      (.unicast task.port task.dest.octets)
  | .iAmAnswer =>
    if task.network ≠ 0 then s.iAmOutput task [task.network]
    else if s.answeredNetworks task.port = [] then ⟨s.scratch, none, none⟩
    else s.iAmOutput task (s.answeredNetworks task.port)
  | .updateAck =>
    .once (writeNpdu s.scratch (.message .initializeRoutingTableAck []))
      (.answer .initializeRoutingTableAck) .ingress (.unicast task.port task.dest.octets)
  | .tableAck => s.tableAckOutput task
  | .numberIs =>
    .once (s.writeNumberIs task.port) (.answer .networkNumberIs) .ingress (.broadcast task.port)
  | .announce => s.announceOutput task
  | .announcePort => s.announceOutput task

def takeOutput (s : Storage R H D B G) (task : Task) : Option Written → Storage R H D B G
  | none => s
  | some written =>
    match written.len with
    | some len =>
      s.setCurrent
        { Current.new len written.kind written.cause .normal written.target with
          tableAck := task.kind == .tableAck }
    | none => s.bump .writeFailures

def setFlow (s : Storage R H D B G) (index : ℕ) (flow : Flow) : Storage R H D B G :=
  { s with flows := s.flows.set index flow }

/-- The smallest broadcast limit of the ports but one. -/
def smallestBroadcast (s : Storage R H D B G) (index : ℕ) : Option ℕ :=
  ((s.ports.zipIdx.filter fun (_, other) => other != index).map
    fun (config, _) => config.maxNpdu.broadcast.toNat).min?

/-- The next networks a congestion announcement of a port names. -/
def congestedNetworks (s : Storage R H D B G) (port : PortId) (cursor perMessage : ℕ) :
    List UInt16 :=
  ((s.table.routes.filter fun (network, route) =>
    decide (cursor ≤ network.toNat) && route.port == port &&
      route.reachability != .unreachable).map Prod.fst).take perMessage

/-- Write the next congestion announcement; `false` when no port waits with one. -/
def writeAnnouncement (s : Storage R H D B G) : Storage R H D B G × Bool :=
  match s.flows.findIdx? Flow.waits with
  | none => (s, false)
  | some index =>
    let flow := s.flows[index]?.getD .clear
    let port : PortId := ⟨UInt8.ofNat index⟩
    let kind : NetworkMessageType :=
      if flow.pending = .available then .routerAvailableToNetwork else .routerBusyToNetwork
    match s.smallestBroadcast index with
    | none => (s.setFlow index flow.takePending, true)
    | some limit =>
      let networks := s.congestedNetworks port flow.cursor ((limit - 3) / 2)
      match networks.getLast? with
      | none => (s.setFlow index flow.takePending, true)
      | some last =>
        match writeMessage s.scratch kind (Networks.write networks) with
        | (some len, scratch) =>
          let s := s.setScratch scratch
          let s := s.setCurrent (.new len (.congestion kind) .own .normal (.allBut port))
          (s.setFlow index { flow with cursor := last.toNat + 1 }, true)
        | (none, scratch) =>
          (((s.setScratch scratch).bump .writeFailures).setFlow index flow.takePending, true)

/-- Write the front task's next output as the current one; `false` when nothing waits. -/
def writeTask (s : Storage R H D B G) : Storage R H D B G × Bool :=
  match s.out.tasks.head? with
  | none => s.writeAnnouncement
  | some task =>
    let written := s.taskOutput task
    let s := (s.setScratch written.scratch).takeOutput task written.output
    match written.next with
    | some cursor => ({ s with out := s.out.advance cursor }, true)
    | none => ({ s with out := s.out.pop }, true)

def sendOf (s : Storage R H D B G) (port : PortId) (broadcast : Bool) : Send where
  port := port
  dest := if broadcast then .broadcast else .unicast s.out.current.dest.octets
  npdu := (s.scratch.take s.out.current.len).drop s.out.current.start
  priority := s.out.current.priority
  kind := s.out.current.kind
  cause := s.out.current.cause
  rejectOrigin := s.out.current.rejectOrigin.asOption

/-- The rounds of `poll`'s loop. -/
def pollLoop : ℕ → Storage R H D B G → Option (Storage R H D B G × Action)
  | 0, _ => none
  | rounds + 1, s =>
    match s.nextTarget with
    | (s, some (port, broadcast)) =>
      let s := { s with out := { s.out with lastTableAck := s.out.current.tableAck,
                                            lastPort := port } }
      some (s, .send (s.sendOf port broadcast))
    | (s, none) =>
      match s.writeTask with
      | (s, true) => pollLoop rounds s
      | (s, false) => some (s, .idle)

/-- The outputs a cursor has ahead of it at most, over the networks or over the ports. -/
def roundsFrom (ports cursor : ℕ) : ℕ := 65536 + 2 * ports - cursor + 1

/-- How many rounds `poll` can need: one for each output left. -/
def pollRounds (s : Storage R H D B G) : ℕ :=
  (s.out.tasks.map fun task => roundsFrom s.ports.length task.cursor).sum
    + (s.flows.map fun flow =>
        if flow.waits then roundsFrom s.ports.length flow.cursor else 0).sum + 1

def poll (s : Storage R H D B G) : Storage R H D B G × Action :=
  (pollLoop s.pollRounds s).getD (s, .idle)

end Storage

end RustyBacnet.Router
