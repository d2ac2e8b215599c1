import RustyBacnet.Bip.Bbmd.Forward

/-!
# A port on a BBMD

`bbmd/serve.rs` and `port/bbmd.rs` of `bacnet-bip-core`: what the tables answer to a management
request, and the BBMD's share of a message that passed the link's receive rules. The datagrams a
share sends are returned as a list.
-/

namespace RustyBacnet.Bip

/-! ## Management requests -/

inductive Request where
  | register (sender : SocketAddr) (ttl : UInt16)
  | readBdt (sender : SocketAddr)
  | readFdt (sender : SocketAddr)
  | deleteFdtEntry (sender entry : SocketAddr)
  deriving DecidableEq

def Request.sender : Request → SocketAddr
  | .register sender _ => sender
  | .readBdt sender => sender
  | .readFdt sender => sender
  | .deleteFdtEntry sender _ => sender

/-- What the host's own rules say while a request is served. -/
structure Rules where
  registrationLimits : RegistrationLimits
  reservation : SocketAddr → Reservation
  admitRegistration : SocketAddr → Instant → Bool
  admitDelete : SocketAddr → SocketAddr → Bool

def Rules.permissive : Rules where
  registrationLimits := .default
  reservation _ := .ordinary
  admitRegistration _ _ := true
  admitDelete _ _ := true

inductive DeleteRefusal where
  | notRegistered
  | notAdmitted
  deriving DecidableEq

inductive Served where
  | register (result : Except RegistrationRefusal Registered) (purged : ℕ)
  | readBdt
  | readFdt (result : Except StorageFull ℕ)
  | deleteFdtEntry (result : Except DeleteRefusal Unit)

/-- An answer, and what the request came to. -/
structure Answer where
  at_ : SocketAddr
  message : Bvll
  served : Served

namespace Tables

variable {B F : ℕ}

/-- Answer a management request, with storage for `room` rows. -/
def serve (tables : Tables B F) (request : Request) (now : Instant) (rules : Rules) (room : ℕ) :
    Answer × Tables B F :=
  match request with
  | .register sender ttl =>
    let ((result, purged), fdt) := tables.fdt.register sender ttl now rules.registrationLimits
      (rules.reservation sender) (rules.admitRegistration sender now)
    let code := match result with
      | .ok _ => BvlcResultCode.successfulCompletion
      | .error _ => .registerForeignDeviceNak
    (⟨sender, .bvlcResult code, .register result purged⟩, { tables with fdt })
  | .readBdt sender =>
    (⟨sender, .readBroadcastDistributionTableAck (.typed tables.bdt.rows), .readBdt⟩, tables)
  | .readFdt sender =>
    match tables.fdt.wireEntries now room with
    | .ok entries =>
      (⟨sender, .readForeignDeviceTableAck (.typed entries), .readFdt (.ok entries.length)⟩, tables)
    | .error full => (⟨sender, .bvlcResult .readForeignDeviceTableNak, .readFdt (.error full)⟩, tables)
  | .deleteFdtEntry sender entry =>
    if rules.admitDelete sender entry then
      let live := tables.fdt.isRegisteredAt entry now
      let next := { tables with fdt := (tables.fdt.delete entry).2 }
      if live then
        (⟨sender, .bvlcResult .successfulCompletion, .deleteFdtEntry (.ok ())⟩, next)
      else
        (⟨sender, .bvlcResult .deleteForeignDeviceTableEntryNak,
          .deleteFdtEntry (.error .notRegistered)⟩, next)
    else
      (⟨sender, .bvlcResult .deleteForeignDeviceTableEntryNak,
        .deleteFdtEntry (.error .notAdmitted)⟩, tables)

end Tables

/-! ## The port -/

/-- The share of a message that a BBMD acts on. -/
inductive ForBbmd where
  | originalBroadcast (source : SocketAddr) (npdu : List UInt8)
  | forwarded (sender : SocketAddr) (arrival : Arrival) (origin : SocketAddr) (npdu : List UInt8)
  | distribute (sender : SocketAddr) (npdu : List UInt8)
  | management (request : Request)
  deriving DecidableEq

/-- A port on a BBMD: the link's address and subnet, the tables, and the lengths of its storage for
targets and rows. -/
structure BbmdPort (B F : ℕ) where
  address : SocketAddr
  subnet : LocalSubnet
  tables : Tables B F
  targets : ℕ
  rows : ℕ
  deriving DecidableEq

def Fanout.copies (fanout : Fanout) (origin : SocketAddr) (npdu : List UInt8) :
    List (SocketAddr × Bvll) :=
  fanout.targets.map fun target => (target.destination, .forwardedNpdu origin npdu)

namespace BbmdPort

variable {B F : ℕ}

/-- `Tables::MAX_TARGETS`. -/
def maxTargets (B F : ℕ) : ℕ := B + F + 1

def groups (port : BbmdPort B F) : Groups :=
  ⟨port.subnet.broadcast, port.address.ip, port.subnet.directed.getD .unspecified⟩

/-- Whether a reply to `source` could reach a peer. -/
def isAnswerable (port : BbmdPort B F) (source : SocketAddr) : Bool :=
  !source.ip.isUnspecified && source.port != 0 && !port.groups.containsIp source.ip
    && source != port.address

def share (port : BbmdPort B F) (share : ForBbmd) (now : Instant) (rules : Rules) :
    BbmdPort B F × List (SocketAddr × Bvll) :=
  let cx : Context := ⟨now, F⟩
  match share with
  | .originalBroadcast source npdu =>
    let sent := port.tables.originalBroadcast cx source npdu port.targets
    (port, sent.fanout.copies sent.origin sent.npdu)
  | .forwarded sender arrival origin npdu =>
    match port.tables.forwardedNpdu cx port.subnet sender arrival origin port.targets with
    | .ok fanout => (port, fanout.copies origin npdu)
    | .error _ => (port, [])
  | .distribute sender npdu =>
    match port.tables.distributeBroadcast cx port.subnet sender npdu port.targets with
    | .ok sent => (port, sent.fanout.copies sent.origin sent.npdu)
    | .error .notRegistered => (port, [(sender, .bvlcResult .distributeBroadcastToNetworkNak)])
  | .management request =>
    if !port.isAnswerable request.sender then (port, [])
    else
      let (answer, tables) := port.tables.serve request now rules port.rows
      ({ port with tables }, [(answer.at_, answer.message)])

end BbmdPort

end RustyBacnet.Bip
