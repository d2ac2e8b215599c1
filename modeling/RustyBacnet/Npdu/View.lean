import RustyBacnet.Lib.BigEndian
import RustyBacnet.Lib.Slices
import RustyBacnet.Npdu.Priority

/-!
# The view of an NPDU

`view.rs` of `bacnet-npdu`: the decoded NPDU and `Npdu::decode`, with the message codes of
`codes.rs`. The source reads the protocol control information with one cursor `at`; here each
optional field is one function that takes the cursor and returns the field with the cursor
behind it.
-/

namespace RustyBacnet

open Slices BigEndian

def npduVersion : UInt8 := 0x01

def maxMacLen : ℕ := 18

def maxNpdu : ℕ := 1497

def globalNetwork : UInt16 := 0xFFFF

/-! ## Control bits -/

def networkMessageBit : UInt8 := 0x80

def destinationBit : UInt8 := 0x20

def sourceBit : UInt8 := 0x08

def expectingReplyBit : UInt8 := 0x04

/-- A network message type code. -/
structure NetworkMessageType where
  raw : UInt8
  deriving DecidableEq

namespace NetworkMessageType

def whoIsRouterToNetwork : NetworkMessageType := ⟨0x00⟩
def iAmRouterToNetwork : NetworkMessageType := ⟨0x01⟩
def iCouldBeRouterToNetwork : NetworkMessageType := ⟨0x02⟩
def rejectMessageToNetwork : NetworkMessageType := ⟨0x03⟩
def routerBusyToNetwork : NetworkMessageType := ⟨0x04⟩
def routerAvailableToNetwork : NetworkMessageType := ⟨0x05⟩
def initializeRoutingTable : NetworkMessageType := ⟨0x06⟩
def initializeRoutingTableAck : NetworkMessageType := ⟨0x07⟩
def establishConnectionToNetwork : NetworkMessageType := ⟨0x08⟩
def disconnectConnectionToNetwork : NetworkMessageType := ⟨0x09⟩
def whatIsNetworkNumber : NetworkMessageType := ⟨0x12⟩
def networkNumberIs : NetworkMessageType := ⟨0x13⟩

/-- A vendor's own message, which carries a vendor id. -/
def isProprietary (kind : NetworkMessageType) : Bool := 0x80 ≤ kind.raw

/-- One of the security messages the standard has removed. -/
def isRemovedSecurity (kind : NetworkMessageType) : Bool := 0x0A ≤ kind.raw && kind.raw ≤ 0x11

end NetworkMessageType

/-- A network number and the MAC on that network. -/
structure Address where
  network : UInt16
  mac : List UInt8
  deriving DecidableEq

/-- A decoded NPDU. Its payload starts `payloadOffset` octets into the frame. -/
structure Npdu where
  expectingReply : Bool
  priority : NetworkPriority
  destination : Option Address
  source : Option Address
  hopCount : UInt8
  messageType : Option NetworkMessageType
  vendorId : Option UInt16
  payload : List UInt8
  payloadOffset : ℕ
  deriving DecidableEq

namespace Npdu

def apdu (payload : List UInt8) : Npdu where
  expectingReply := false
  priority := .normal
  destination := none
  source := none
  hopCount := 255
  messageType := none
  vendorId := none
  payload := payload
  payloadOffset := 0

def message (messageType : NetworkMessageType) (payload : List UInt8) : Npdu :=
  { apdu payload with messageType := some messageType }

def isNetworkMessage (npdu : Npdu) : Bool := npdu.messageType.isSome

end Npdu

inductive AddressField where
  | destination
  | source
  deriving DecidableEq

inductive Malformed where
  | truncated
  | version
  | reservedNetwork
  | emptySource
  deriving DecidableEq

/-- Why a frame is no NPDU. An over-long address keeps what a reject needs. -/
inductive DecodeError where
  | addressTooLong (field : AddressField) (length : UInt8) (dnet : Option UInt16)
      (source : Option Address)
  | malformed (fault : Malformed)
  deriving DecidableEq

namespace Npdu

/-! ## Decoding -/

/-- `length` octets of the frame from `cursor`. -/
def octets (frame : List UInt8) (cursor length : ℕ) : Except Malformed (List UInt8) :=
  if cursor + length ≤ frame.length then .ok (slice frame cursor length) else .error .truncated

def networkAndLength (frame : List UInt8) (cursor : ℕ) : Except Malformed (UInt16 × UInt8) :=
  match octets frame cursor 3 with
  | .ok [high, low, length] => .ok (ofBytes16 high low, length)
  | _ => .error .truncated

/-- The source behind an over-long destination, when the frame holds a valid one. -/
def sourceBehind (frame : List UInt8) (cursor : ℕ) : Option Address :=
  match networkAndLength frame cursor with
  | .error _ => none
  | .ok (network, length) =>
    if network == 0 || network == globalNetwork || length == 0 then none
    else if maxMacLen < length.toNat then none
    else
      match octets frame (cursor + 3) length.toNat with
      | .error _ => none
      | .ok mac => some ⟨network, mac⟩

/-- `From<Malformed> for DecodeError`. -/
def orMalformed {α : Type} : Except Malformed α → Except DecodeError α
  | .ok value => .ok value
  | .error fault => .error (.malformed fault)

/-- The DNET and DADR, when the control octet announces them. -/
def decodeDestination (frame : List UInt8) (control : UInt8) (cursor : ℕ) :
    Except DecodeError (Option Address × ℕ) :=
  if control &&& destinationBit = 0 then .ok (none, cursor)
  else do
    let (network, length) ← orMalformed (networkAndLength frame cursor)
    if network = 0 then
      .error (.malformed .reservedNetwork)
    else if maxMacLen < length.toNat then
      let source :=
        if control &&& sourceBit ≠ 0 then sourceBehind frame (cursor + 3 + length.toNat) else none
      .error (.addressTooLong .destination length (some network) source)
    else do
      let mac ← orMalformed (octets frame (cursor + 3) length.toNat)
      .ok (some ⟨network, mac⟩, cursor + 3 + mac.length)

/-- The SNET and SADR, when the control octet announces them. -/
def decodeSource (frame : List UInt8) (control : UInt8) (destination : Option Address)
    (cursor : ℕ) : Except DecodeError (Option Address × ℕ) :=
  if control &&& sourceBit = 0 then .ok (none, cursor)
  else do
    let (network, length) ← orMalformed (networkAndLength frame cursor)
    if network = 0 ∨ network = globalNetwork then
      .error (.malformed .reservedNetwork)
    else if length = 0 then
      .error (.malformed .emptySource)
    else if maxMacLen < length.toNat then
      .error (.addressTooLong .source length (destination.map Address.network) none)
    else do
      let mac ← orMalformed (octets frame (cursor + 3) length.toNat)
      .ok (some ⟨network, mac⟩, cursor + 3 + mac.length)

/-- The hop count, which only an NPDU with a destination carries. -/
def decodeHopCount (frame : List UInt8) (destination : Option Address) (cursor : ℕ) :
    Except DecodeError (UInt8 × ℕ) :=
  if destination.isSome then
    match frame[cursor]? with
    | some hopCount => .ok (hopCount, cursor + 1)
    | none => .error (.malformed .truncated)
  else .ok (255, cursor)

/-- The message type of a network message, with the vendor id of a proprietary one. -/
def decodeMessage (frame : List UInt8) (control : UInt8) (cursor : ℕ) :
    Except DecodeError (Option NetworkMessageType × Option UInt16 × ℕ) :=
  if control &&& networkMessageBit = 0 then .ok (none, none, cursor)
  else
    match frame[cursor]? with
    | none => .error (.malformed .truncated)
    | some raw =>
      if NetworkMessageType.isProprietary ⟨raw⟩ then
        match octets frame (cursor + 1) 2 with
        | .ok [high, low] => .ok (some ⟨raw⟩, some (ofBytes16 high low), cursor + 3)
        | _ => .error (.malformed .truncated)
      else .ok (some ⟨raw⟩, none, cursor + 1)

def decode (frame : List UInt8) : Except DecodeError Npdu :=
  match frame with
  | first :: control :: _ =>
    if first ≠ npduVersion then .error (.malformed .version)
    else do
      let (destination, cursor) ← decodeDestination frame control 2
      let (source, cursor) ← decodeSource frame control destination cursor
      let (hopCount, cursor) ← decodeHopCount frame destination cursor
      let (messageType, vendorId, cursor) ← decodeMessage frame control cursor
      .ok
        { expectingReply := control &&& expectingReplyBit ≠ 0
          priority := NetworkPriority.fromControl control
          destination := destination
          source := source
          hopCount := hopCount
          messageType := messageType
          vendorId := vendorId
          payload := frame.drop cursor
          payloadOffset := cursor }
  | _ => .error (.malformed .truncated)

end Npdu

end RustyBacnet
