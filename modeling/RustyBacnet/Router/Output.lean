import RustyBacnet.Npdu.Encode
import RustyBacnet.Router.Records

/-!
# What a router asks its caller to send

`output.rs` of the router, with its storage: the scratch holds one NPDU, the current output, which
goes to one port or fans out to every port but one; everything else waits as a small task.

Beside the source's fields the storage keeps `notes`, which no function reads: what the calls told
the host, which assertions failed, and what was done to the table.
-/

namespace RustyBacnet.Router

open Slices

/-- Where a reject about a routed send goes; network 0 stands for none. -/
structure RejectOrigin where
  port : PortId
  dest : Mac
  network : UInt16
  destinationNetwork : UInt16
  destination : Mac
  deriving DecidableEq

/-- A copy of octets that are within the bound: `Mac::from_slice(..).unwrap_or(Mac::EMPTY)`. -/
def macOrEmpty (octets : List UInt8) : Mac := (Mac.fromSlice octets).getD Mac.empty

namespace RejectOrigin

def none : RejectOrigin := ⟨⟨0⟩, Mac.empty, 0, 0, Mac.empty⟩

def asOption (origin : RejectOrigin) : Option RejectOrigin :=
  if origin.network ≠ 0 then some origin else Option.none

def new (port : PortId) (dest : List UInt8) (destination : Option Address) (network : UInt16) :
    RejectOrigin where
  port := port
  dest := macOrEmpty dest
  network := network
  destinationNetwork := destination.elim 0 Address.network
  destination := destination.elim Mac.empty fun address => macOrEmpty address.mac

end RejectOrigin

/-! ## Tasks -/

inductive TaskKind where
  | empty
  | solicit
  | reject
  | iAmAnswer
  | updateAck
  | tableAck
  | numberIs
  | announce
  | announcePort
  deriving DecidableEq

/-- A queued output. -/
structure Task where
  kind : TaskKind
  port : PortId
  network : UInt16
  reason : RejectMessageReason
  dest : Mac
  originNetwork : UInt16
  origin : Mac
  cursor : ℕ
  deriving DecidableEq

namespace Task

/-- `Task::of`: a task of a kind on a port, everything else empty. -/
def of (kind : TaskKind) (port : PortId) : Task where
  kind := kind
  port := port
  network := 0
  reason := .other
  dest := Mac.empty
  originNetwork := 0
  origin := Mac.empty
  cursor := 0

/-- A Who-Is-Router for `network` on every port but one. -/
def solicit (allBut : PortId) (network : UInt16) : Task :=
  { of .solicit allBut with network := network }

def reject (port : PortId) (dest : List UInt8) (origin : Option Address) (network : UInt16)
    (reason : RejectMessageReason) : Task :=
  { of .reject port with
    network := network
    reason := reason
    dest := macOrEmpty dest
    originNetwork := origin.elim 0 Address.network
    origin := origin.elim Mac.empty fun address => macOrEmpty address.mac }

def iAmAnswer (port : PortId) (network : Option UInt16) : Task :=
  { of .iAmAnswer port with network := network.getD 0 }

def updateAck (port : PortId) (dest : Mac) : Task := { of .updateAck port with dest := dest }

def tableAck (port : PortId) (dest : Mac) : Task := { of .tableAck port with dest := dest }

def numberIs (port : PortId) : Task := of .numberIs port

def announce : Task := of .announce ⟨0⟩

def announcePort (port : PortId) : Task :=
  { of .announcePort port with cursor := port.index.toNat * 2 }

end Task

def RejectOrigin.task (origin : RejectOrigin) (reason : RejectMessageReason) : Task :=
  Task.reject origin.port origin.dest.octets
    (if origin.destinationNetwork ≠ 0 then
      some ⟨origin.destinationNetwork, origin.destination.octets⟩
    else Option.none)
    origin.network reason

/-! ## Sends -/

/-- Why the router sends an NPDU. -/
inductive Kind where
  | forward
  | global
  | relay (messageType : NetworkMessageType)
  | reject (reason : RejectMessageReason)
  | answer (messageType : NetworkMessageType)
  | announce (messageType : NetworkMessageType)
  | solicit
  | congestion (messageType : NetworkMessageType)
  | originate
  deriving DecidableEq

inductive Cause where
  | ingress
  | own
  deriving DecidableEq

inductive Dest where
  | unicast (dest : List UInt8)
  | broadcast
  deriving DecidableEq

inductive SendRefusal where
  | full
  | tooLong
  | portDown
  | other
  deriving DecidableEq

/-- An NPDU for one port. -/
structure Send where
  port : PortId
  dest : Dest
  npdu : List UInt8
  priority : NetworkPriority
  kind : Kind
  cause : Cause
  rejectOrigin : Option RejectOrigin
  deriving DecidableEq

inductive Action where
  | send (send : Send)
  | idle
  deriving DecidableEq

/-- Where a written NPDU goes. -/
inductive Target where
  | toward (port : PortId) (dest : List UInt8)
  | unicast (port : PortId) (dest : List UInt8)
  | broadcast (port : PortId)
  | allBut (port : PortId)
  deriving DecidableEq

/-- The NPDU in the scratch and where it goes next. -/
structure Current where
  active : Bool
  len : ℕ
  kind : Kind
  cause : Cause
  priority : NetworkPriority
  fanOut : Bool
  port : PortId
  next : ℕ
  start : ℕ
  tail : ℕ
  tailControl : UInt8
  broadcast : Bool
  dest : Mac
  tableAck : Bool
  rejectOrigin : RejectOrigin
  deriving DecidableEq

namespace Current

def none : Current where
  active := false
  len := 0
  kind := .forward
  cause := .ingress
  priority := .normal
  fanOut := false
  port := ⟨0⟩
  next := 0
  start := 0
  tail := 0
  tailControl := 0
  broadcast := false
  dest := Mac.empty
  tableAck := false
  rejectOrigin := .none

/-- `len` octets of the scratch, going to `target`. -/
def new (len : ℕ) (kind : Kind) (cause : Cause) (priority : NetworkPriority) (target : Target) :
    Current :=
  let current : Current :=
    { none with active := true, len := len, kind := kind, cause := cause, priority := priority }
  match target with
  | .toward port dest =>
    { current with port := port, broadcast := dest.isEmpty, dest := macOrEmpty dest }
  | .unicast port dest => { current with port := port, dest := macOrEmpty dest }
  | .broadcast port => { current with port := port, broadcast := true }
  | .allBut port => { current with port := port, fanOut := true }

/-- End a fan-out with a send to its own port, of the NPDU without its source. -/
def withTail (current : Current) (offset : ℕ) (control : UInt8) : Current :=
  { current with tail := offset, tailControl := control }

/-- Whether it has a send left on a router with this many ports. -/
def hasMore (current : Current) (ports : ℕ) : Bool :=
  current.active &&
    (!current.fanOut || current.tail != 0 ||
      (List.range' current.next (ports - current.next)).any fun port =>
        port != current.port.index.toNat)

end Current

def queueLen : ℕ := 4

/-- The current output and the queued tasks. -/
structure Outputs where
  current : Current
  tasks : List Task
  lastTableAck : Bool
  lastPort : PortId
  deriving DecidableEq

namespace Outputs

def new : Outputs := ⟨.none, [], false, ⟨0⟩⟩

/-- How many outputs wait on a router with this many ports. -/
def pending (out : Outputs) (ports : ℕ) : ℕ :=
  (out.current.hasMore ports).toNat + out.tasks.length

def advance (out : Outputs) (cursor : ℕ) : Outputs :=
  { out with tasks := out.tasks.modifyHead fun task => { task with cursor := cursor } }

/-- Drop the front task: it moves to the back one swap at a time. -/
def pop (out : Outputs) : Outputs :=
  { out with tasks := (Swaps.float out.tasks 0).dropLast }

end Outputs

/-! ## The storage -/

inductive Counter where
  | addressLengthDrops
  | globalBroadcastDadrDrops
  | broadcastPduTypeDrops
  | groupDadrDrops
  | malformed
  | badMessages
  | unknownPort
  | hopCountDrops
  | denied
  | unroutableRejects
  | rejects
  | solicitations
  | writeFailures
  | egressTooLong
  | refused
  | undrained
  | busyAnnounced
  | availableAnnounced
  | duplicateDrops
  | ownSourceDrops
  | notNextHop
  | originated
  deriving DecidableEq

/-- A frame a port received. -/
structure Frame where
  port : PortId
  source : List UInt8
  linkGroup : Bool
  npdu : List UInt8
  deriving DecidableEq

/-- The assertions of the source. -/
inductive Assertion where
  | queueRoom
  | outputFirst
  | tailInside
  | bareHeader
  deriving DecidableEq

/-- What a call did that its result doesn't show. -/
inductive Note where
  | observed (event : Event)
  | failed (assertion : Assertion)
  | received (frame : Frame) (now : Instant)
  | claimed (network : UInt16) (port : PortId) (now : Instant) (learned : Learned)
  | wrote (network : UInt16)
  | removed (network : UInt16)
  | purged (network : UInt16)
  deriving DecidableEq

/-- A router's state. The port arrays are lists of the ports in use. -/
structure Storage (R H D B : ℕ) (G : Type) where
  ports : List (PortConfig G)
  flows : List Flow
  table : Table R H
  discovery : Discovery D
  scratch : List UInt8
  out : Outputs
  counters : Counter → ℕ
  recent : Recent B
  nextSweep : Instant
  latest : Instant
  notes : List Note

namespace Storage

variable {R H D B : ℕ} {G : Type}

/-! ### Small steps -/

/-- Count one more; a `u32` count stops at its maximum. -/
def bump (s : Storage R H D B G) (counter : Counter) : Storage R H D B G :=
  { s with
    counters := Function.update s.counters counter (min (s.counters counter + 1) u32Max) }

def note (s : Storage R H D B G) (note : Note) : Storage R H D B G :=
  { s with notes := s.notes ++ [note] }

/-- `host.observe`. -/
def observe (s : Storage R H D B G) (event : Event) : Storage R H D B G := s.note (.observed event)

/-- `debug_assert!`, which lets a release build go on. -/
def debugAssert (s : Storage R H D B G) (assertion : Assertion) (holds : Bool) :
    Storage R H D B G :=
  if holds then s else s.note (.failed assertion)

def setTable (s : Storage R H D B G) (table : Table R H) : Storage R H D B G :=
  { s with table := table }

def setScratch (s : Storage R H D B G) (scratch : List UInt8) : Storage R H D B G :=
  { s with scratch := scratch }

def setCurrent (s : Storage R H D B G) (current : Current) : Storage R H D B G :=
  { s with out := { s.out with current := current } }

def portOf (s : Storage R H D B G) (port : PortId) : Option (PortConfig G) :=
  s.ports[port.index.toNat]?

/-- `Outputs::push`. -/
def push (s : Storage R H D B G) (task : Task) : Storage R H D B G :=
  let s := s.debugAssert .queueRoom (s.out.tasks.length < queueLen)
  if s.out.tasks.length < queueLen then
    { s with out := { s.out with tasks := s.out.tasks ++ [task] } }
  else s

/-- Drop whatever the caller left unpolled, counting each output. -/
def dropUndrained (s : Storage R H D B G) : Storage R H D B G :=
  let announcements := s.flows.countP Flow.waits
  let s := { s with flows := s.flows.map Flow.takePending }
  let pending := s.out.pending s.ports.length + announcements
  if 0 < pending then
    { s with
      counters := Function.update s.counters .undrained
        (min (s.counters .undrained + min pending u32Max) u32Max)
      out := .new }
  else s

/-! ### A frame's own output -/

def writeNow (s : Storage R H D B G) (npdu : Npdu) (kind : Kind) (target : Target) :
    Storage R H D B G × Bool :=
  let s := s.debugAssert .outputFirst (s.out.pending s.ports.length == 0)
  match npdu.encodeInto s.scratch with
  | (.ok len, scratch) =>
    ((s.setScratch scratch).setCurrent (.new len kind .ingress npdu.priority target), true)
  | (.error _, scratch) => ((s.setScratch scratch).bump .writeFailures, false)

/-- Tell the host of each port but one that can't take a broadcast of this length. -/
def observeTooLong (s : Storage R H D B G) (octets : ℕ) (allBut : PortId) : Storage R H D B G :=
  s.ports.zipIdx.foldl
    (fun s (config, index) =>
      let limit := config.maxNpdu.get true
      if index ≠ allBut.index.toNat ∧ limit < octets then
        s.observe (.tooLong ⟨UInt8.ofNat index⟩ octets limit none)
      else s)
    s

/-- Write a frame's own fan-out to every port but one. -/
def writeFanOut (s : Storage R H D B G) (npdu : Npdu) (kind : Kind) (allBut : PortId) :
    Storage R H D B G × Bool :=
  let (s, written) := s.writeNow npdu kind (.allBut allBut)
  if written then (s.observeTooLong s.out.current.len allBut, true) else (s, false)

/-! ### The current output's next port -/

/-- Whether the current output from `start` on fits a port. -/
def fitsFrom (s : Storage R H D B G) (start : ℕ) (port : PortId) (broadcast : Bool) : Bool :=
  (s.portOf port).any fun config => s.out.current.len - start ≤ config.maxNpdu.get broadcast

/-- The `while` loop of a fan-out over the ports left: the next that can carry it. -/
def nextFanOut (s : Storage R H D B G) : ℕ → Storage R H D B G × Option PortId
  | 0 => (s, none)
  | left + 1 =>
    let port : PortId := ⟨UInt8.ofNat s.out.current.next⟩
    let s := s.setCurrent { s.out.current with next := s.out.current.next + 1 }
    if port = s.out.current.port then s.nextFanOut left
    else if s.fitsFrom 0 port true then (s, some port)
    else (s.bump .egressTooLong).nextFanOut left

/-- The header of a tail: a global broadcast's octets ahead of its hop count. -/
def tailHeader (current : Current) : List UInt8 :=
  [npduVersion, current.tailControl, 0xFF, 0xFF, 0]

/-- The end of a fan-out: its tail, written over the source fields, if it has one. -/
def nextTail (s : Storage R H D B G) : Storage R H D B G × Option (PortId × Bool) :=
  let tail := s.out.current.tail
  let header := tailHeader s.out.current
  let s := s.setCurrent { s.out.current with tail := 0 }
  let done := fun s : Storage R H D B G =>
    (s.setCurrent { s.out.current with active := false }, none)
  if tail ≠ 0 then
    let s := s.debugAssert .tailInside (tail + header.length < s.out.current.len)
    if tail + header.length ≤ s.scratch.length then
      let s := s.setScratch (splice s.scratch tail header)
      let s := s.setCurrent { s.out.current with start := tail }
      if s.fitsFrom tail s.out.current.port true then (s, some (s.out.current.port, true))
      else done (s.bump .egressTooLong)
    else done s
  else done s

/-- The current output's next port, and whether it is a broadcast there. -/
def nextTarget (s : Storage R H D B G) : Storage R H D B G × Option (PortId × Bool) :=
  let current := s.out.current
  if !current.active then (s, none)
  else if !current.fanOut then
    let s := s.setCurrent { current with active := false }
    if s.fitsFrom 0 current.port current.broadcast then (s, some (current.port, current.broadcast))
    else (s.bump .egressTooLong, none)
  else
    match s.nextFanOut (s.ports.length - current.next) with
    | (s, some port) => (s, some (port, true))
    | (s, none) => s.nextTail

end Storage

end RustyBacnet.Router
