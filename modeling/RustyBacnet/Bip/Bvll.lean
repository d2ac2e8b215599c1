import RustyBacnet.Bip.Address

/-!
# BVLL messages

`bacnet-bip-codec`: the function and result codes (`function.rs`), table entries and the two forms
of a table (`table.rs`), the header check and the payload layouts, and the checked encoder over a
caller's slice (`message.rs`, `sink.rs`).
-/

namespace RustyBacnet.Bip

open BigEndian

/-! ## Codes -/

/-- A BVLC function code; the set is open. -/
structure BvlcFunction where
  raw : UInt8
  deriving DecidableEq

/-- How long a payload may be. -/
inductive PayloadShape where
  | fixed (octets : ℕ)
  | table (entryLength : ℕ)
  | npdu (before : ℕ)
  deriving DecidableEq

def PayloadShape.admits : PayloadShape → ℕ → Bool
  | fixed octets, length => length == octets
  | table entryLength, length => length % entryLength == 0
  | npdu before, length => before ≤ length

/-- A BVLC result code; the set is open. -/
structure BvlcResultCode where
  raw : UInt16
  deriving DecidableEq

namespace BvlcResultCode

def successfulCompletion : BvlcResultCode := ⟨0x0000⟩
def writeBroadcastDistributionTableNak : BvlcResultCode := ⟨0x0010⟩
def readBroadcastDistributionTableNak : BvlcResultCode := ⟨0x0020⟩
def registerForeignDeviceNak : BvlcResultCode := ⟨0x0030⟩
def readForeignDeviceTableNak : BvlcResultCode := ⟨0x0040⟩
def deleteForeignDeviceTableEntryNak : BvlcResultCode := ⟨0x0050⟩
def distributeBroadcastToNetworkNak : BvlcResultCode := ⟨0x0060⟩

def allNamed : List BvlcResultCode :=
  [successfulCompletion, writeBroadcastDistributionTableNak, readBroadcastDistributionTableNak,
    registerForeignDeviceNak, readForeignDeviceTableNak, deleteForeignDeviceTableEntryNak,
    distributeBroadcastToNetworkNak]

def isDefined (code : BvlcResultCode) : Bool := allNamed.contains code

end BvlcResultCode

def bipAddressLength : ℕ := 6

def entryLength : ℕ := 10

namespace BvlcFunction

def bvlcResult : BvlcFunction := ⟨0x00⟩
def writeBroadcastDistributionTable : BvlcFunction := ⟨0x01⟩
def readBroadcastDistributionTable : BvlcFunction := ⟨0x02⟩
def readBroadcastDistributionTableAck : BvlcFunction := ⟨0x03⟩
def forwardedNpdu : BvlcFunction := ⟨0x04⟩
def registerForeignDevice : BvlcFunction := ⟨0x05⟩
def readForeignDeviceTable : BvlcFunction := ⟨0x06⟩
def readForeignDeviceTableAck : BvlcFunction := ⟨0x07⟩
def deleteForeignDeviceTableEntry : BvlcFunction := ⟨0x08⟩
def distributeBroadcastToNetwork : BvlcFunction := ⟨0x09⟩
def originalUnicastNpdu : BvlcFunction := ⟨0x0A⟩
def originalBroadcastNpdu : BvlcFunction := ⟨0x0B⟩

def allNamed : List BvlcFunction :=
  [bvlcResult, writeBroadcastDistributionTable, readBroadcastDistributionTable,
    readBroadcastDistributionTableAck, forwardedNpdu, registerForeignDevice,
    readForeignDeviceTable, readForeignDeviceTableAck, deleteForeignDeviceTableEntry,
    distributeBroadcastToNetwork, originalUnicastNpdu, originalBroadcastNpdu]

def isDefined (function : BvlcFunction) : Bool := allNamed.contains function

def payloadShape (function : BvlcFunction) : Option PayloadShape :=
  if function = bvlcResult ∨ function = registerForeignDevice then some (.fixed 2)
  else if function = readBroadcastDistributionTable ∨ function = readForeignDeviceTable then
    some (.fixed 0)
  else if function = deleteForeignDeviceTableEntry then some (.fixed bipAddressLength)
  else if function = writeBroadcastDistributionTable ∨
      function = readBroadcastDistributionTableAck then some (.table entryLength)
  else if function = readForeignDeviceTableAck then some (.table entryLength)
  else if function = forwardedNpdu then some (.npdu bipAddressLength)
  else if function = distributeBroadcastToNetwork ∨ function = originalUnicastNpdu ∨
      function = originalBroadcastNpdu then some (.npdu 0)
  else none

end BvlcFunction

inductive BvllError where
  | tooShort (length : ℕ)
  | notBip (bvlcType : UInt8)
  | lengthMismatch (declared received : ℕ)
  | unknownFunction (function : UInt8)
  | payloadLength (function : BvlcFunction) (length : ℕ)
  | tableLength (length entryLength : ℕ)
  | addressLength (length : ℕ)
  | tooLong (length : ℕ)
  | undefinedResultCode (code : UInt16)
  | bufferExhausted (needed available : ℕ)
  deriving DecidableEq

/-! ## Addresses and entries -/

def Ip.octets (ip : Ip) : List UInt8 := toBytes32 ip.bits

def Ip.ofOctets (a b c d : UInt8) : Ip := ⟨ofBytes32 a b c d⟩

def addressToOctets (address : SocketAddr) : List UInt8 :=
  address.ip.octets ++ toBytes16 address.port

def addressFromOctets (a b c d high low : UInt8) : SocketAddr :=
  ⟨.ofOctets a b c d, ofBytes16 high low⟩

/-- `[u8; ENTRY_LENGTH]`: the octets of an address, then four more. -/
structure EntryOctets where
  a : UInt8
  b : UInt8
  c : UInt8
  d : UInt8
  high : UInt8
  low : UInt8
  e : UInt8
  f : UInt8
  g : UInt8
  h : UInt8
  deriving DecidableEq

def EntryOctets.toList (o : EntryOctets) : List UInt8 :=
  [o.a, o.b, o.c, o.d, o.high, o.low, o.e, o.f, o.g, o.h]

/-- `as_chunks`: whole entries, and what is left. -/
def asChunks : List UInt8 → List EntryOctets × List UInt8
  | a :: b :: c :: d :: high :: low :: e :: f :: g :: h :: rest =>
    let (entries, tail) := asChunks rest
    (⟨a, b, c, d, high, low, e, f, g, h⟩ :: entries, tail)
  | tail => ([], tail)

/-- The octets of an address and of the four behind it. -/
def EntryOctets.ofParts (address : SocketAddr) (w x y z : UInt8) : EntryOctets where
  a := (address.ip.bits >>> 24).toUInt8
  b := (address.ip.bits >>> 16).toUInt8
  c := (address.ip.bits >>> 8).toUInt8
  d := address.ip.bits.toUInt8
  high := UInt8.ofNat (address.port.toNat / 256)
  low := UInt8.ofNat (address.port.toNat % 256)
  e := w
  f := x
  g := y
  h := z

def EntryOctets.address (o : EntryOctets) : SocketAddr :=
  addressFromOctets o.a o.b o.c o.d o.high o.low

/-- One row of a broadcast distribution table. -/
structure BdtEntry where
  address : SocketAddr
  mask : Ip
  deriving DecidableEq

namespace BdtEntry

def toOctets (entry : BdtEntry) : EntryOctets :=
  .ofParts entry.address (entry.mask.bits >>> 24).toUInt8 (entry.mask.bits >>> 16).toUInt8
    (entry.mask.bits >>> 8).toUInt8 entry.mask.bits.toUInt8

def fromOctets (o : EntryOctets) : BdtEntry := ⟨o.address, .ofOctets o.e o.f o.g o.h⟩

end BdtEntry

/-- One row of a foreign device table, as it is read. -/
structure FdtEntry where
  address : SocketAddr
  ttl : UInt16
  remaining : UInt16
  deriving DecidableEq

namespace FdtEntry

def toOctets (entry : FdtEntry) : EntryOctets :=
  .ofParts entry.address (UInt8.ofNat (entry.ttl.toNat / 256))
    (UInt8.ofNat (entry.ttl.toNat % 256)) (UInt8.ofNat (entry.remaining.toNat / 256))
    (UInt8.ofNat (entry.remaining.toNat % 256))

def fromOctets (o : EntryOctets) : FdtEntry :=
  ⟨o.address, ofBytes16 o.e o.f, ofBytes16 o.g o.h⟩

end FdtEntry

@[simp] theorem EntryOctets.address_ofParts (address : SocketAddr) (w x y z : UInt8) :
    (EntryOctets.ofParts address w x y z).address = address := by
  unfold EntryOctets.address EntryOctets.ofParts addressFromOctets Ip.ofOctets
  rw [ofBytes32_octets, ofBytes16_octets]

@[simp] theorem EntryOctets.ofParts_address (o : EntryOctets) :
    EntryOctets.ofParts o.address o.e o.f o.g o.h = o := by
  have hip := toBytes32_ofBytes32 o.a o.b o.c o.d
  have hport := toBytes16_ofBytes16 o.high o.low
  simp only [toBytes32, toBytes16, List.cons.injEq, and_true] at hip hport
  unfold EntryOctets.ofParts EntryOctets.address addressFromOctets Ip.ofOctets
  rw [hip.1, hip.2.1, hip.2.2.1, hip.2.2.2, hport.1, hport.2]

/-- A type of table entries, with the ten octets of each. -/
class TableEntry (T : Type) where
  fromWire : EntryOctets → T
  toWire : T → EntryOctets
  fromWire_toWire : ∀ entry, fromWire (toWire entry) = entry
  toWire_fromWire : ∀ octets, toWire (fromWire octets) = octets

open TableEntry

instance : TableEntry BdtEntry where
  fromWire := BdtEntry.fromOctets
  toWire := BdtEntry.toOctets
  fromWire_toWire := by
    intro entry
    unfold BdtEntry.fromOctets BdtEntry.toOctets
    rw [EntryOctets.address_ofParts]
    exact congrArg (fun bits => BdtEntry.mk _ ⟨bits⟩) (ofBytes32_octets entry.mask.bits)
  toWire_fromWire := by
    intro o
    have hmask := toBytes32_ofBytes32 o.e o.f o.g o.h
    simp only [toBytes32, List.cons.injEq, and_true] at hmask
    unfold BdtEntry.fromOctets BdtEntry.toOctets Ip.ofOctets
    rw [hmask.1, hmask.2.1, hmask.2.2.1, hmask.2.2.2, EntryOctets.ofParts_address]

instance : TableEntry FdtEntry where
  fromWire := FdtEntry.fromOctets
  toWire := FdtEntry.toOctets
  fromWire_toWire := by
    intro entry
    unfold FdtEntry.fromOctets FdtEntry.toOctets
    rw [EntryOctets.address_ofParts]
    exact congrArg₂ (FdtEntry.mk _) (ofBytes16_octets entry.ttl) (ofBytes16_octets entry.remaining)
  toWire_fromWire := by
    intro o
    have httl := toBytes16_ofBytes16 o.e o.f
    have hremaining := toBytes16_ofBytes16 o.g o.h
    simp only [toBytes16, List.cons.injEq, and_true] at httl hremaining
    unfold FdtEntry.fromOctets FdtEntry.toOctets
    rw [httl.1, httl.2, hremaining.1, hremaining.2, EntryOctets.ofParts_address]

/-- A table in a payload: the octets of a decoded message, or entries to encode. -/
inductive Entries (T : Type) where
  | wire (entries : List EntryOctets)
  | typed (entries : List T)
  deriving DecidableEq

namespace Entries

variable {T : Type}

def fromWire (octets : List UInt8) : Except BvllError (Entries T) :=
  match asChunks octets with
  | (entries, []) => .ok (.wire entries)
  | _ => .error (.tableLength octets.length entryLength)

def len : Entries T → ℕ
  | wire entries => entries.length
  | typed entries => entries.length

def iter [TableEntry T] : Entries T → List T
  | wire entries => entries.map TableEntry.fromWire
  | typed entries => entries

def wireLength (table : Entries T) : ℕ := table.len * entryLength

def pieces [TableEntry T] : Entries T → List (List UInt8)
  | wire entries => [entries.flatMap EntryOctets.toList]
  | typed entries => entries.map fun entry => (toWire entry).toList

end Entries

/-! ## Messages -/

/-- A BVLL message. -/
inductive Bvll where
  | bvlcResult (code : BvlcResultCode)
  | writeBroadcastDistributionTable (table : Entries BdtEntry)
  | readBroadcastDistributionTable
  | readBroadcastDistributionTableAck (table : Entries BdtEntry)
  | forwardedNpdu (origin : SocketAddr) (npdu : List UInt8)
  | registerForeignDevice (ttl : UInt16)
  | readForeignDeviceTable
  | readForeignDeviceTableAck (table : Entries FdtEntry)
  | deleteForeignDeviceTableEntry (address : SocketAddr)
  | distributeBroadcastToNetwork (npdu : List UInt8)
  | originalUnicastNpdu (npdu : List UInt8)
  | originalBroadcastNpdu (npdu : List UInt8)
  deriving DecidableEq

def bvlcTypeBip : UInt8 := 0x81

def headerLength : ℕ := 4

def maxBvllLength : ℕ := 65535

/-- A message whose header checks out. -/
structure BvllFrame where
  function : BvlcFunction
  payload : List UInt8
  deriving DecidableEq

namespace BvllFrame

def decode (datagram : List UInt8) : Except BvllError BvllFrame :=
  match datagram with
  | bvlcType :: function :: high :: low :: payload =>
    let declared := (ofBytes16 high low).toNat
    if bvlcType ≠ bvlcTypeBip then .error (.notBip bvlcType)
    else if declared ≠ datagram.length then .error (.lengthMismatch declared datagram.length)
    else .ok ⟨⟨function⟩, payload⟩
  | _ => .error (.tooShort datagram.length)

/-- A table payload, whose length error names the function. -/
def tablePayload {T : Type} (frame : BvllFrame) (message : Entries T → Bvll) :
    Except BvllError Bvll :=
  match Entries.fromWire frame.payload with
  | .ok table => .ok (message table)
  | .error _ => .error (.payloadLength frame.function frame.payload.length)

def message (frame : BvllFrame) : Except BvllError Bvll :=
  let function := frame.function
  let wrongLength : Except BvllError Bvll :=
    .error (.payloadLength function frame.payload.length)
  if function = .bvlcResult then
    match frame.payload with
    | [high, low] => .ok (.bvlcResult ⟨ofBytes16 high low⟩)
    | _ => wrongLength
  else if function = .writeBroadcastDistributionTable then
    frame.tablePayload .writeBroadcastDistributionTable
  else if function = .readBroadcastDistributionTable then
    match frame.payload with
    | [] => .ok .readBroadcastDistributionTable
    | _ => wrongLength
  else if function = .readBroadcastDistributionTableAck then
    frame.tablePayload .readBroadcastDistributionTableAck
  else if function = .forwardedNpdu then
    match frame.payload with
    | a :: b :: c :: d :: high :: low :: npdu =>
      .ok (.forwardedNpdu (addressFromOctets a b c d high low) npdu)
    | _ => wrongLength
  else if function = .registerForeignDevice then
    match frame.payload with
    | [high, low] => .ok (.registerForeignDevice (ofBytes16 high low))
    | _ => wrongLength
  else if function = .readForeignDeviceTable then
    match frame.payload with
    | [] => .ok .readForeignDeviceTable
    | _ => wrongLength
  else if function = .readForeignDeviceTableAck then
    frame.tablePayload .readForeignDeviceTableAck
  else if function = .deleteForeignDeviceTableEntry then
    match frame.payload with
    | [a, b, c, d, high, low] =>
      .ok (.deleteForeignDeviceTableEntry (addressFromOctets a b c d high low))
    | _ => wrongLength
  else if function = .distributeBroadcastToNetwork then
    .ok (.distributeBroadcastToNetwork frame.payload)
  else if function = .originalUnicastNpdu then .ok (.originalUnicastNpdu frame.payload)
  else if function = .originalBroadcastNpdu then .ok (.originalBroadcastNpdu frame.payload)
  else if function.isDefined then wrongLength
  else .error (.unknownFunction function.raw)

end BvllFrame

/-- A sink over a slice: what it has written, and the room left. -/
structure SliceSink where
  written : List UInt8
  rest : List UInt8
  deriving DecidableEq

namespace SliceSink

def buffer (sink : SliceSink) : List UInt8 := sink.written ++ sink.rest

/-- Write at the front of the room, or report what was needed and what was there. -/
def write (sink : SliceSink) (octets : List UInt8) : Except (ℕ × ℕ) Unit × SliceSink :=
  if sink.rest.length < octets.length then (.error (octets.length, sink.rest.length), sink)
  else (.ok (), ⟨sink.written ++ octets, sink.rest.drop octets.length⟩)

def writeAll (sink : SliceSink) : List (List UInt8) → Except (ℕ × ℕ) Unit × SliceSink
  | [] => (.ok (), sink)
  | piece :: pieces =>
    match sink.write piece with
    | (.ok (), sink) => sink.writeAll pieces
    | (.error full, sink) => (.error full, sink)

end SliceSink

namespace Bvll

def decode (datagram : List UInt8) : Except BvllError Bvll :=
  match BvllFrame.decode datagram with
  | .ok frame => frame.message
  | .error refused => .error refused

def function : Bvll → BvlcFunction
  | bvlcResult _ => .bvlcResult
  | writeBroadcastDistributionTable _ => .writeBroadcastDistributionTable
  | readBroadcastDistributionTable => .readBroadcastDistributionTable
  | readBroadcastDistributionTableAck _ => .readBroadcastDistributionTableAck
  | forwardedNpdu _ _ => .forwardedNpdu
  | registerForeignDevice _ => .registerForeignDevice
  | readForeignDeviceTable => .readForeignDeviceTable
  | readForeignDeviceTableAck _ => .readForeignDeviceTableAck
  | deleteForeignDeviceTableEntry _ => .deleteForeignDeviceTableEntry
  | distributeBroadcastToNetwork _ => .distributeBroadcastToNetwork
  | originalUnicastNpdu _ => .originalUnicastNpdu
  | originalBroadcastNpdu _ => .originalBroadcastNpdu

def payloadLength : Bvll → ℕ
  | bvlcResult _ => 2
  | registerForeignDevice _ => 2
  | readBroadcastDistributionTable => 0
  | readForeignDeviceTable => 0
  | writeBroadcastDistributionTable table => table.wireLength
  | readBroadcastDistributionTableAck table => table.wireLength
  | readForeignDeviceTableAck table => table.wireLength
  | deleteForeignDeviceTableEntry _ => 6
  | forwardedNpdu _ npdu => 6 + npdu.length
  | distributeBroadcastToNetwork npdu => npdu.length
  | originalUnicastNpdu npdu => npdu.length
  | originalBroadcastNpdu npdu => npdu.length

def resultCode : Bvll → Option BvlcResultCode
  | bvlcResult code => some code
  | _ => none

def encodedLen (message : Bvll) : Except BvllError ℕ :=
  match message.resultCode.filter fun code => !code.isDefined with
  | some code => .error (.undefinedResultCode code.raw)
  | none =>
    let length := headerLength + message.payloadLength
    if maxBvllLength < length then .error (.tooLong length) else .ok length

def pieces : Bvll → List (List UInt8)
  | bvlcResult code => [toBytes16 code.raw]
  | registerForeignDevice ttl => [toBytes16 ttl]
  | readBroadcastDistributionTable => []
  | readForeignDeviceTable => []
  | writeBroadcastDistributionTable table => table.pieces
  | readBroadcastDistributionTableAck table => table.pieces
  | readForeignDeviceTableAck table => table.pieces
  | deleteForeignDeviceTableEntry address => [addressToOctets address]
  | forwardedNpdu origin npdu => [addressToOctets origin, npdu]
  | distributeBroadcastToNetwork npdu => [npdu]
  | originalUnicastNpdu npdu => [npdu]
  | originalBroadcastNpdu npdu => [npdu]

def encodeToSink (message : Bvll) (sink : SliceSink) : Except BvllError ℕ × SliceSink :=
  match message.encodedLen with
  | .error refused => (.error refused, sink)
  | .ok length =>
    if sink.rest.length < length then (.error (.bufferExhausted length sink.rest.length), sink)
    else
      let header := bvlcTypeBip :: message.function.raw :: toBytes16 (UInt16.ofNat length)
      match sink.writeAll (header :: message.pieces) with
      | (.ok (), sink) => (.ok length, sink)
      | (.error (needed, available), sink) => (.error (.bufferExhausted needed available), sink)

/-- Encode at the start of `output`: the wire length, and the slice afterwards. -/
def encodeInto (message : Bvll) (output : List UInt8) : Except BvllError ℕ × List UInt8 :=
  let (result, sink) := message.encodeToSink ⟨[], output⟩
  (result, sink.buffer)

end Bvll

end RustyBacnet.Bip
