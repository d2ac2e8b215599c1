import RustyBacnet.Bip.Bbmd.Bdt
import RustyBacnet.Bip.Bbmd.Fdt

/-!
# Where a BBMD sends a broadcast

`bbmd/nat.rs`, `subnet.rs` and `bbmd/forward.rs` of `bacnet-bip-core`: the two tables of a BBMD and
its forwarding decisions over them. The caller's storage for targets is the list written so far and
its length `room`.
-/

namespace RustyBacnet.Bip

/-- An address range, its host bits clear. -/
structure PrivateRange where
  network : Ip
  prefixLen : Fin 33
  deriving DecidableEq

def maskBits (prefixLen : ℕ) : UInt32 :=
  if prefixLen = 0 then 0 else 0xFFFFFFFF <<< UInt32.ofNat (32 - prefixLen)

def PrivateRange.contains (range : PrivateRange) (ip : Ip) : Bool :=
  (ip.bits ^^^ range.network.bits) &&& maskBits range.prefixLen == 0

def isRfc1918 (ip : Ip) : Bool :=
  ip.bits >>> 24 == 10 || ip.bits >>> 20 == 0xAC1 || ip.bits >>> 16 == 0xC0A8

/-- How a BBMD behind a NAT router is reached, with up to four private ranges of its own. -/
structure NatSetting where
  global : SocketAddr
  ranges : List PrivateRange
  deriving DecidableEq

def NatSetting.isPrivate (nat : NatSetting) (ip : Ip) : Bool :=
  isRfc1918 ip || nat.ranges.any fun range => range.contains ip

structure LocalSubnet where
  broadcast : SocketAddr
  mask : Option Ip
  alone : Bool
  directed : Option Ip
  deriving DecidableEq

/-- Whether the broadcast address is a multicast group. -/
def LocalSubnet.isGroup (subnet : LocalSubnet) : Bool := subnet.broadcast.ip.isMulticast

/-- How a datagram reached a node. -/
inductive Arrival where
  | unicast
  | broadcast
  deriving DecidableEq

/-! ## Targets -/

inductive Via where
  | localBroadcast
  | peer
  | foreignDevice
  deriving DecidableEq

structure Target where
  destination : SocketAddr
  via : Via
  deriving DecidableEq

/-- The time of a decision, and the most foreign devices it goes to. -/
structure Context where
  now : Instant
  fdtFanout : ℕ
  deriving DecidableEq

/-- The destinations written, and how the list was cut. -/
structure Fanout where
  targets : List Target
  deduplicated : ℕ
  fanoutCapped : Bool
  dropped : ℕ
  deriving DecidableEq

/-- A Forwarded-NPDU to send, and where. -/
structure Distribution where
  origin : SocketAddr
  npdu : List UInt8
  fanout : Fanout
  deriving DecidableEq

/-- The storage of one decision, with where its peer targets start and end. -/
structure Writer where
  room : ℕ
  targets : List Target
  peersStart : ℕ
  peersEnd : ℕ
  deduplicated : ℕ
  fanoutCapped : Bool
  dropped : ℕ
  deriving DecidableEq

namespace Writer

def new (room : ℕ) : Writer := ⟨room, [], 0, 0, 0, false, 0⟩

def push (writer : Writer) (destination : SocketAddr) (via : Via) : Writer :=
  if writer.targets.length < writer.room then
    { writer with targets := writer.targets ++ [⟨destination, via⟩] }
  else { writer with dropped := writer.dropped + 1 }

def pushLocal (writer : Writer) (destination : SocketAddr) : Writer :=
  let writer := writer.push destination .localBroadcast
  { writer with peersStart := writer.targets.length, peersEnd := writer.targets.length }

/-- A peer target, unless an earlier one has its address. -/
def pushUnique (writer : Writer) (destination : SocketAddr) (via : Via) : Writer :=
  if (writer.targets.drop writer.peersStart).any fun target => target.destination == destination then
    { writer with deduplicated := writer.deduplicated + 1 }
  else writer.push destination via

def isPeerTarget (writer : Writer) (destination : SocketAddr) : Bool :=
  ((writer.targets.take writer.peersEnd).drop writer.peersStart).any fun target =>
    target.destination == destination

def finish (writer : Writer) : Fanout :=
  ⟨writer.targets, writer.deduplicated, writer.fanoutCapped, writer.dropped⟩

end Writer

/-! ## The tables -/

/-- Why a Forwarded-NPDU is neither delivered nor forwarded. -/
inductive ForwardRefusal where
  | notFromPeer
  | ownEcho
  deriving DecidableEq

/-- A Distribute-Broadcast-To-Network from a sender with no live registration. -/
inductive DistributeRefusal where
  | notRegistered
  deriving DecidableEq

/-- A BBMD's two tables, and how it is reached through a NAT router. -/
structure Tables (B F : ℕ) where
  bdt : Bdt B
  fdt : Fdt F
  nat : Option NatSetting
  deriving DecidableEq

namespace Tables

variable {B F : ℕ}

def new (own : SocketAddr) : Tables B F := ⟨.new own, .new, none⟩

/-- The own address behind `nat`, checked, or `local_` without it. -/
def ownAddressFor (nat : Option NatSetting) (local_ : SocketAddr) : Except BdtError SocketAddr :=
  match nat with
  | some nat =>
    match validateEntry ⟨nat.global, twoHopMask⟩ with
    | .error reason => .error (.invalid ⟨nat.global, twoHopMask⟩ reason)
    | .ok () => .ok nat.global
  | none => .ok local_

/-- The old global address when `nat` turns NAT off. -/
def leavingNat (tables : Tables B F) (nat : Option NatSetting) : Option SocketAddr :=
  match tables.nat, nat with
  | some old, none => some old.global
  | _, _ => none

def setNat (tables : Tables B F) (nat : Option NatSetting) (local_ : SocketAddr) :
    Except BdtError Unit × Tables B F :=
  match ownAddressFor nat local_ with
  | .error refused => (.error refused, tables)
  | .ok own =>
    match tables.bdt.reconfigure own nat.isSome (tables.leavingNat nat) with
    | (.error refused, bdt) => (.error refused, { tables with bdt })
    | (.ok (), bdt) => (.ok (), { tables with bdt, nat })

def setNatAndBdt (tables : Tables B F) (nat : Option NatSetting) (local_ : SocketAddr)
    (table : List BdtEntry) : Except BdtError Unit × Tables B F :=
  match ownAddressFor nat local_ with
  | .error refused => (.error refused, tables)
  | .ok own =>
    match (tables.bdt.withNat own nat.isSome).setWithout table (tables.leavingNat nat) with
    | (.error refused, _) => (.error refused, tables)
    | (.ok (), bdt) => (.ok (), { tables with bdt, nat })

/-! ## Forwarding -/

/-- The originating address of a Forwarded-NPDU for a broadcast from `source`: the global one when
`isPrivate` says that other sites cannot reach it. -/
def originFor (tables : Tables B F) (source : SocketAddr) (isPrivate : NatSetting → Bool) : SocketAddr :=
  match tables.nat with
  | some nat => if isPrivate nat then nat.global else source
  | none => source

/-- The rows but this BBMD's own and `exclude`. -/
def peerTargets (tables : Tables B F) (writer : Writer) (exclude : SocketAddr) : Writer :=
  let writer := tables.bdt.rows.foldl (fun writer row =>
    if row.address = tables.bdt.own ∨ row.address = exclude then writer
    else writer.pushUnique (distributionAddress row) .peer) writer
  { writer with peersEnd := writer.targets.length }

/-- The live registrations but `exclude`, after any peers, `sent` of them so far. -/
def foreignDevicesFrom (fanout : ℕ) (exclude : SocketAddr) :
    List Registration → Writer → ℕ → Writer
  | [], writer, _ => writer
  | entry :: behind, writer, sent =>
    if entry.address = exclude then foreignDevicesFrom fanout exclude behind writer sent
    else if writer.isPeerTarget entry.address then
      foreignDevicesFrom fanout exclude behind
        { writer with deduplicated := writer.deduplicated + 1 } sent
    else if fanout ≤ sent then { writer with fanoutCapped := true }
    else
      foreignDevicesFrom fanout exclude behind (writer.push entry.address .foreignDevice) (sent + 1)

def foreignDeviceTargetsInto (tables : Tables B F) (writer : Writer) (cx : Context)
    (exclude : SocketAddr) : Writer :=
  foreignDevicesFrom cx.fdtFanout exclude (tables.fdt.liveAt cx.now) writer 0

def broadcastTargets (tables : Tables B F) (cx : Context) (exclude : SocketAddr) (room : ℕ) :
    Fanout :=
  let writer := tables.peerTargets (.new room) exclude
  (tables.foreignDeviceTargetsInto writer cx exclude).finish

/-- An Original-Broadcast-NPDU from `source` on this subnet. -/
def originalBroadcast (tables : Tables B F) (cx : Context) (source : SocketAddr) (npdu : List UInt8)
    (room : ℕ) : Distribution where
  origin := tables.originFor source fun _ => true
  npdu
  fanout := tables.broadcastTargets cx source room

/-- Whether a peer's Forwarded-NPDU still has to be broadcast on this BBMD's subnet. -/
def rebroadcastsForwarded (tables : Tables B F) (subnetMask : Option Ip) (sender : SocketAddr)
    (arrival : Arrival) : Bool :=
  let own := tables.bdt.own
  let peersSendHere := (tables.bdt.row own).all fun row => row.mask == twoHopMask
  let senderOnSubnet := tables.nat.isNone && sender.port == own.port &&
    subnetMask.any fun mask => (sender.ip.bits ^^^ own.ip.bits) &&& mask.bits == 0
  peersSendHere && arrival == .unicast && !senderOnSubnet

/-- A Forwarded-NPDU from `sender` that names `origin`. -/
def forwardedNpdu (tables : Tables B F) (cx : Context) (subnet : LocalSubnet) (sender : SocketAddr)
    (arrival : Arrival) (origin : SocketAddr) (room : ℕ) : Except ForwardRefusal Fanout :=
  if sender = tables.bdt.own then .error .ownEcho
  else if !tables.bdt.contains sender then .error .notFromPeer
  else
    let mask := subnet.mask.filter fun _ => !subnet.isGroup
    let writer := Writer.new room
    let writer := if !subnet.alone && tables.rebroadcastsForwarded mask sender arrival then
      writer.pushLocal subnet.broadcast else writer
    .ok (tables.foreignDeviceTargetsInto writer cx origin).finish

/-- A Distribute-Broadcast-To-Network from `sender`. -/
def distributeBroadcast (tables : Tables B F) (cx : Context) (subnet : LocalSubnet)
    (sender : SocketAddr) (npdu : List UInt8) (room : ℕ) : Except DistributeRefusal Distribution :=
  if !tables.fdt.isRegisteredAt sender cx.now then .error .notRegistered
  else
    let writer := Writer.new room
    let writer := if !subnet.alone then writer.pushLocal subnet.broadcast else writer
    let writer := tables.peerTargets writer sender
    .ok {
      origin := tables.originFor sender fun nat => nat.isPrivate sender.ip
      npdu
      fanout := (tables.foreignDeviceTargetsInto writer cx sender).finish }

end Tables

end RustyBacnet.Bip
