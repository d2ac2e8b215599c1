import RustyBacnet.Bip.Bvll

/-!
# B/IPv6 BVLL messages

`bacnet-bip-codec`'s `ipv6`: VMACs and addresses (`address.rs`), the function and result codes with
each function's payload layout (`function.rs`), the header check, the reader and the checked encoder
(`message.rs`). The sink, the lengths of a header and of a message, and the shapes are those of
B/IP.
-/

namespace RustyBacnet.Bip

open BigEndian

/-- `[u8; N]`. -/
structure OctetArray (size : ℕ) where
  toList : List UInt8
  length_eq : toList.length = size
  deriving DecidableEq

def vmacLength : ℕ := 3

def ipv6Length : ℕ := 16

def bip6AddressLength : ℕ := 18

structure Bip6Vmac where
  octets : OctetArray vmacLength
  deriving DecidableEq

/-- An IPv6 address, by its octets, and a port. -/
structure Bip6Address where
  ip : OctetArray ipv6Length
  port : UInt16
  deriving DecidableEq

namespace Bip6Address

def toOctets (address : Bip6Address) : List UInt8 := address.ip.toList ++ toBytes16 address.port

def fromOctets (octets : OctetArray bip6AddressLength) : Bip6Address where
  ip := ⟨octets.toList.take ipv6Length, by
    rw [List.length_take, octets.length_eq]
    rfl⟩
  port := ofBytes16 (octets.toList.getD ipv6Length 0) (octets.toList.getD (ipv6Length + 1) 0)

end Bip6Address

/-! ## Codes -/

/-- A B/IPv6 function code; the set is open. -/
structure Bvlc6Function where
  raw : UInt8
  deriving DecidableEq

/-- A B/IPv6 result code; the set is open. -/
structure Bvlc6ResultCode where
  raw : UInt16
  deriving DecidableEq

namespace Bvlc6ResultCode

def successfulCompletion : Bvlc6ResultCode := ⟨0x0000⟩
def addressResolutionNak : Bvlc6ResultCode := ⟨0x0030⟩
def virtualAddressResolutionNak : Bvlc6ResultCode := ⟨0x0060⟩
def registerForeignDeviceNak : Bvlc6ResultCode := ⟨0x0090⟩
def deleteForeignDeviceTableEntryNak : Bvlc6ResultCode := ⟨0x00A0⟩
def distributeBroadcastToNetworkNak : Bvlc6ResultCode := ⟨0x00C0⟩

def allNamed : List Bvlc6ResultCode :=
  [successfulCompletion, addressResolutionNak, virtualAddressResolutionNak,
    registerForeignDeviceNak, deleteForeignDeviceTableEntryNak, distributeBroadcastToNetworkNak]

def isDefined (code : Bvlc6ResultCode) : Bool := allNamed.contains code

end Bvlc6ResultCode

namespace Bvlc6Function

def bvlcResult : Bvlc6Function := ⟨0x00⟩
def originalUnicastNpdu : Bvlc6Function := ⟨0x01⟩
def originalBroadcastNpdu : Bvlc6Function := ⟨0x02⟩
def addressResolution : Bvlc6Function := ⟨0x03⟩
def forwardedAddressResolution : Bvlc6Function := ⟨0x04⟩
def addressResolutionAck : Bvlc6Function := ⟨0x05⟩
def virtualAddressResolution : Bvlc6Function := ⟨0x06⟩
def virtualAddressResolutionAck : Bvlc6Function := ⟨0x07⟩
def forwardedNpdu : Bvlc6Function := ⟨0x08⟩
def registerForeignDevice : Bvlc6Function := ⟨0x09⟩
def deleteForeignDeviceTableEntry : Bvlc6Function := ⟨0x0A⟩
def distributeBroadcastToNetwork : Bvlc6Function := ⟨0x0C⟩

def allNamed : List Bvlc6Function :=
  [bvlcResult, originalUnicastNpdu, originalBroadcastNpdu, addressResolution,
    forwardedAddressResolution, addressResolutionAck, virtualAddressResolution,
    virtualAddressResolutionAck, forwardedNpdu, registerForeignDevice,
    deleteForeignDeviceTableEntry, distributeBroadcastToNetwork]

def isDefined (function : Bvlc6Function) : Bool := allNamed.contains function

def payloadShape (function : Bvlc6Function) : Option PayloadShape :=
  if function = virtualAddressResolution then some (.fixed vmacLength)
  else if function = bvlcResult ∨ function = registerForeignDevice then
    some (.fixed (vmacLength + 2))
  else if function = addressResolution ∨ function = addressResolutionAck ∨
      function = virtualAddressResolutionAck then some (.fixed (2 * vmacLength))
  else if function = deleteForeignDeviceTableEntry then
    some (.fixed (vmacLength + bip6AddressLength))
  else if function = forwardedAddressResolution then
    some (.fixed (2 * vmacLength + bip6AddressLength))
  else if function = originalBroadcastNpdu ∨ function = distributeBroadcastToNetwork then
    some (.npdu vmacLength)
  else if function = originalUnicastNpdu then some (.npdu (2 * vmacLength))
  else if function = forwardedNpdu then some (.npdu (vmacLength + bip6AddressLength))
  else none

end Bvlc6Function

inductive Bvll6Error where
  | tooShort (length : ℕ)
  | notBip6 (bvlcType : UInt8)
  | lengthMismatch (declared received : ℕ)
  | unknownFunction (function : UInt8)
  | payloadLength (function : Bvlc6Function) (length : ℕ)
  | tooLong (length : ℕ)
  | undefinedResultCode (code : UInt16)
  | bufferExhausted (needed available : ℕ)
  deriving DecidableEq

/-- A B/IPv6 BVLL message, its fields in wire order. -/
inductive Bvll6 where
  | bvlcResult (source : Bip6Vmac) (code : Bvlc6ResultCode)
  | originalUnicastNpdu (source destination : Bip6Vmac) (npdu : List UInt8)
  | originalBroadcastNpdu (source : Bip6Vmac) (npdu : List UInt8)
  | addressResolution (source target : Bip6Vmac)
  | forwardedAddressResolution (originalSource target : Bip6Vmac) (originalAddress : Bip6Address)
  | addressResolutionAck (source destination : Bip6Vmac)
  | virtualAddressResolution (source : Bip6Vmac)
  | virtualAddressResolutionAck (source destination : Bip6Vmac)
  | forwardedNpdu (originalSource : Bip6Vmac) (originalAddress : Bip6Address) (npdu : List UInt8)
  | registerForeignDevice (source : Bip6Vmac) (ttl : UInt16)
  | deleteForeignDeviceTableEntry (source : Bip6Vmac) (entry : Bip6Address)
  | distributeBroadcastToNetwork (originalSource : Bip6Vmac) (npdu : List UInt8)
  deriving DecidableEq

def bvlcTypeBip6 : UInt8 := 0x82

/-! ## Reading -/

/-- The fields still to be read. -/
structure Fields where
  rest : List UInt8

namespace Fields

/-- `split_first_chunk`. -/
def take (fields : Fields) (size : ℕ) : Option (OctetArray size × Fields) :=
  if h : size ≤ fields.rest.length then
    some (⟨fields.rest.take size, List.length_take_of_le h⟩, ⟨fields.rest.drop size⟩)
  else none

def vmac (fields : Fields) : Option (Bip6Vmac × Fields) :=
  (fields.take vmacLength).map fun (octets, fields) => (⟨octets⟩, fields)

def address (fields : Fields) : Option (Bip6Address × Fields) :=
  (fields.take bip6AddressLength).map fun (octets, fields) => (.fromOctets octets, fields)

def u16 (fields : Fields) : Option (UInt16 × Fields) :=
  (fields.take 2).map fun (octets, fields) =>
    (ofBytes16 (octets.toList.getD 0 0) (octets.toList.getD 1 0), fields)

/-- `message`, when no octets are left over. -/
def end_ {T : Type} (fields : Fields) (message : T) : Option T :=
  if fields.rest.isEmpty then some message else none

end Fields

/-- The message `payload` holds for `function`. -/
def read (function : Bvlc6Function) (payload : List UInt8) : Option Bvll6 := do
  let (source, fields) ← Fields.vmac ⟨payload⟩
  if function = .bvlcResult then
    let (code, fields) ← fields.u16
    fields.end_ (.bvlcResult source ⟨code⟩)
  else if function = .originalUnicastNpdu then
    let (destination, fields) ← fields.vmac
    some (.originalUnicastNpdu source destination fields.rest)
  else if function = .originalBroadcastNpdu then
    some (.originalBroadcastNpdu source fields.rest)
  else if function = .addressResolution then
    let (target, fields) ← fields.vmac
    fields.end_ (.addressResolution source target)
  else if function = .forwardedAddressResolution then
    let (target, fields) ← fields.vmac
    let (originalAddress, fields) ← fields.address
    fields.end_ (.forwardedAddressResolution source target originalAddress)
  else if function = .addressResolutionAck then
    let (destination, fields) ← fields.vmac
    fields.end_ (.addressResolutionAck source destination)
  else if function = .virtualAddressResolution then
    fields.end_ (.virtualAddressResolution source)
  else if function = .virtualAddressResolutionAck then
    let (destination, fields) ← fields.vmac
    fields.end_ (.virtualAddressResolutionAck source destination)
  else if function = .forwardedNpdu then
    let (originalAddress, fields) ← fields.address
    some (.forwardedNpdu source originalAddress fields.rest)
  else if function = .registerForeignDevice then
    let (ttl, fields) ← fields.u16
    fields.end_ (.registerForeignDevice source ttl)
  else if function = .deleteForeignDeviceTableEntry then
    let (entry, fields) ← fields.address
    fields.end_ (.deleteForeignDeviceTableEntry source entry)
  else if function = .distributeBroadcastToNetwork then
    some (.distributeBroadcastToNetwork source fields.rest)
  else none

/-- A message whose header checks out. -/
structure Bvll6Frame where
  function : Bvlc6Function
  payload : List UInt8
  deriving DecidableEq

namespace Bvll6Frame

def decode (datagram : List UInt8) : Except Bvll6Error Bvll6Frame :=
  match datagram with
  | bvlcType :: function :: high :: low :: payload =>
    let declared := (ofBytes16 high low).toNat
    if bvlcType ≠ bvlcTypeBip6 then .error (.notBip6 bvlcType)
    else if declared ≠ datagram.length then .error (.lengthMismatch declared datagram.length)
    else .ok ⟨⟨function⟩, payload⟩
  | _ => .error (.tooShort datagram.length)

def message (frame : Bvll6Frame) : Except Bvll6Error Bvll6 :=
  match read frame.function frame.payload with
  | some message => .ok message
  | none =>
    if frame.function.isDefined then
      .error (.payloadLength frame.function frame.payload.length)
    else .error (.unknownFunction frame.function.raw)

end Bvll6Frame

namespace Bvll6

def decode (datagram : List UInt8) : Except Bvll6Error Bvll6 :=
  match Bvll6Frame.decode datagram with
  | .ok frame => frame.message
  | .error refused => .error refused

/-! ## Writing -/

def function : Bvll6 → Bvlc6Function
  | bvlcResult .. => .bvlcResult
  | originalUnicastNpdu .. => .originalUnicastNpdu
  | originalBroadcastNpdu .. => .originalBroadcastNpdu
  | addressResolution .. => .addressResolution
  | forwardedAddressResolution .. => .forwardedAddressResolution
  | addressResolutionAck .. => .addressResolutionAck
  | virtualAddressResolution .. => .virtualAddressResolution
  | virtualAddressResolutionAck .. => .virtualAddressResolutionAck
  | forwardedNpdu .. => .forwardedNpdu
  | registerForeignDevice .. => .registerForeignDevice
  | deleteForeignDeviceTableEntry .. => .deleteForeignDeviceTableEntry
  | distributeBroadcastToNetwork .. => .distributeBroadcastToNetwork

def sourceVmac : Bvll6 → Bip6Vmac
  | bvlcResult source _ => source
  | originalUnicastNpdu source _ _ => source
  | originalBroadcastNpdu source _ => source
  | addressResolution source _ => source
  | forwardedAddressResolution originalSource _ _ => originalSource
  | addressResolutionAck source _ => source
  | virtualAddressResolution source => source
  | virtualAddressResolutionAck source _ => source
  | forwardedNpdu originalSource _ _ => originalSource
  | registerForeignDevice source _ => source
  | deleteForeignDeviceTableEntry source _ => source
  | distributeBroadcastToNetwork originalSource _ => originalSource

def npdu : Bvll6 → Option (List UInt8)
  | originalUnicastNpdu _ _ npdu => some npdu
  | originalBroadcastNpdu _ npdu => some npdu
  | forwardedNpdu _ _ npdu => some npdu
  | distributeBroadcastToNetwork _ npdu => some npdu
  | _ => none

/-- Octets after the header: the fixed fields of the function's shape, then the NPDU. -/
def payloadLength (message : Bvll6) : ℕ :=
  let fixed :=
    match message.function.payloadShape with
    | some (.fixed length) => length
    | some (.npdu length) => length
    | some (.table _) => 0
    | none => 0
  match message.npdu with
  | some npdu => fixed + npdu.length
  | none => fixed

def resultCode : Bvll6 → Option Bvlc6ResultCode
  | bvlcResult _ code => some code
  | _ => none

def encodedLen (message : Bvll6) : Except Bvll6Error ℕ :=
  match message.resultCode.filter fun code => !code.isDefined with
  | some code => .error (.undefinedResultCode code.raw)
  | none =>
    let length := headerLength + message.payloadLength
    if maxBvllLength < length then .error (.tooLong length) else .ok length

def pieces : Bvll6 → List (List UInt8)
  | virtualAddressResolution _ => []
  | bvlcResult _ code => [toBytes16 code.raw]
  | registerForeignDevice _ ttl => [toBytes16 ttl]
  | addressResolution _ target => [target.octets.toList]
  | addressResolutionAck _ destination => [destination.octets.toList]
  | virtualAddressResolutionAck _ destination => [destination.octets.toList]
  | forwardedAddressResolution _ target originalAddress =>
    [target.octets.toList, originalAddress.toOctets]
  | deleteForeignDeviceTableEntry _ entry => [entry.toOctets]
  | originalUnicastNpdu _ destination npdu => [destination.octets.toList, npdu]
  | forwardedNpdu _ originalAddress npdu => [originalAddress.toOctets, npdu]
  | originalBroadcastNpdu _ npdu => [npdu]
  | distributeBroadcastToNetwork _ npdu => [npdu]

def encodeToSink (message : Bvll6) (sink : SliceSink) : Except Bvll6Error ℕ × SliceSink :=
  match message.encodedLen with
  | .error refused => (.error refused, sink)
  | .ok length =>
    if sink.rest.length < length then (.error (.bufferExhausted length sink.rest.length), sink)
    else
      let header := bvlcTypeBip6 :: message.function.raw :: toBytes16 (UInt16.ofNat length)
        ++ message.sourceVmac.octets.toList
      match sink.writeAll (header :: message.pieces) with
      | (.ok (), sink) => (.ok length, sink)
      | (.error (needed, available), sink) => (.error (.bufferExhausted needed available), sink)

/-- Encode at the start of `output`: the wire length, and the slice afterwards. -/
def encodeInto (message : Bvll6) (output : List UInt8) : Except Bvll6Error ℕ × List UInt8 :=
  let (result, sink) := message.encodeToSink ⟨[], output⟩
  (result, sink.buffer)

end Bvll6

end RustyBacnet.Bip
