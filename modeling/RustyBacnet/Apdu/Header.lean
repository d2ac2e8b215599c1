import RustyBacnet.Encoding.Error

/-!
# APDU headers

`apdu/header.rs` of `bacnet-encoding`: the two fields of a Confirmed-Request that name a limit, and
the header of an APDU read without an allocator.
-/

namespace RustyBacnet.Encoding

/-! ## Codes -/

def PduType.confirmedRequest : UInt8 := 0
def PduType.unconfirmedRequest : UInt8 := 1
def PduType.simpleAck : UInt8 := 2
def PduType.complexAck : UInt8 := 3
def PduType.segmentAck : UInt8 := 4
def PduType.error : UInt8 := 5
def PduType.reject : UInt8 := 6
def PduType.abort : UInt8 := 7

structure ConfirmedServiceChoice where
  raw : UInt8
  deriving DecidableEq

namespace ConfirmedServiceChoice

def addListElement : ConfirmedServiceChoice := ⟨8⟩
def removeListElement : ConfirmedServiceChoice := ⟨9⟩
def createObject : ConfirmedServiceChoice := ⟨10⟩
def writePropertyMultiple : ConfirmedServiceChoice := ⟨16⟩
def confirmedPrivateTransfer : ConfirmedServiceChoice := ⟨18⟩
def vtClose : ConfirmedServiceChoice := ⟨22⟩
def subscribeCovPropertyMultiple : ConfirmedServiceChoice := ⟨30⟩

end ConfirmedServiceChoice

structure UnconfirmedServiceChoice where
  raw : UInt8
  deriving DecidableEq

structure RejectReason where
  raw : UInt8
  deriving DecidableEq

structure AbortReason where
  raw : UInt8
  deriving DecidableEq

structure ErrorClass where
  raw : UInt16
  deriving DecidableEq

structure ErrorCode where
  raw : UInt16
  deriving DecidableEq

/-! ## The limits of a Confirmed-Request -/

/-- The max-segments-accepted field, in three bits. -/
structure MaxSegments where
  code : Fin 8
  deriving DecidableEq

namespace MaxSegments

/-- The field for a configured capacity, rounded down; `none` for 0 or 1. -/
def fromCapacity : Option UInt8 → Option MaxSegments
  | none => some ⟨0⟩
  | some capacity =>
    if capacity ≤ 1 then none
    else if capacity ≤ 3 then some ⟨1⟩
    else if capacity ≤ 7 then some ⟨2⟩
    else if capacity ≤ 15 then some ⟨3⟩
    else if capacity ≤ 31 then some ⟨4⟩
    else if capacity ≤ 63 then some ⟨5⟩
    else if capacity = 64 then some ⟨6⟩
    else some ⟨7⟩

def fromBits (bits : UInt8) : MaxSegments := ⟨Fin.ofNat 8 (bits &&& 0x07).toNat⟩

def bits (field : MaxSegments) : UInt8 := UInt8.ofNat field.code

/-- The segments the field names: `none` when unspecified, 255 for more than 64. -/
def count (field : MaxSegments) : Option UInt8 :=
  if field.code = 0 then none
  else if field.code = 7 then some 255
  else some (1 <<< field.bits)

end MaxSegments

/-- The max-APDU-length-accepted field: one of six sizes, in four bits. -/
structure MaxApdu where
  code : Fin 6
  deriving DecidableEq

def maxApduOctets : Vector UInt16 6 := #v[50, 128, 206, 480, 1024, 1476]

namespace MaxApdu

/-- The field naming exactly `octets`. -/
def fromOctets (octets : UInt16) : Option MaxApdu :=
  ((List.finRange 6).find? fun code => maxApduOctets[code] == octets).map fun code => ⟨code⟩

/-- The field in the low four bits; `none` for a reserved code. -/
def fromBits (bits : UInt8) : Option MaxApdu :=
  let code := bits &&& 0x0F
  if h : code.toNat < 6 then some ⟨⟨code.toNat, h⟩⟩ else none

def bits (field : MaxApdu) : UInt8 := UInt8.ofNat field.code

def octets (field : MaxApdu) : UInt16 := maxApduOctets[field.code]

end MaxApdu

/-! ## Headers -/

/-- The header of an unsegmented Confirmed-Request. -/
structure ConfirmedRequestHeader where
  segmentedResponseAccepted : Bool
  maxSegments : MaxSegments
  maxApdu : MaxApdu
  invokeId : UInt8
  serviceChoice : ConfirmedServiceChoice
  deriving DecidableEq

inductive ApduHeader where
  | confirmedRequest (header : ConfirmedRequestHeader)
  | unconfirmedRequest (serviceChoice : UnconfirmedServiceChoice)
  | complexAck (invokeId : UInt8) (serviceChoice : ConfirmedServiceChoice)
  | error (invokeId : UInt8) (serviceChoice : ConfirmedServiceChoice)
  | reject (invokeId : UInt8) (reason : RejectReason)
  | abort (server : Bool) (invokeId : UInt8) (reason : AbortReason)
  deriving DecidableEq

def reservedMaxApdu (bits : UInt8) : Error :=
  .decoding ((DecodeError.new .invalidEncoding 1
    "reserved max-APDU-length field value \x7b\x7d").withValue (bits &&& 0x0F).toNat)

def segmentedRefusal (label : String) : Error :=
  .decoding ((DecodeError.new .unsupported 0 label).within "APDU header")

/-- Split an APDU into its header and the service parameters behind it. -/
def ApduHeader.decode (apdu : List UInt8) : Except Error (ApduHeader × List UInt8) :=
  match apdu with
  | [] => .error (.decodingAt 0 "APDU data is empty")
  | first :: rest =>
    let pduType := first >>> 4
    let segmented := first &&& 0x08 != 0
    if pduType = PduType.confirmedRequest then
      match rest with
      | fields :: invokeId :: service :: parameters =>
        match MaxApdu.fromBits fields with
        | none => .error (reservedMaxApdu fields)
        | some maxApdu =>
          if segmented then .error (segmentedRefusal "segmented ConfirmedRequest")
          else
            .ok (.confirmedRequest
              { segmentedResponseAccepted := first &&& 0x02 != 0
                maxSegments := .fromBits (fields >>> 4)
                maxApdu
                invokeId
                serviceChoice := ⟨service⟩ }, parameters)
      | _ => .error (.bufferTooShort 4 apdu.length)
    else if pduType = PduType.unconfirmedRequest then
      match rest with
      | service :: parameters => .ok (.unconfirmedRequest ⟨service⟩, parameters)
      | _ => .error (.bufferTooShort 2 apdu.length)
    else if pduType = PduType.complexAck then
      match rest with
      | invokeId :: service :: parameters =>
        if segmented then .error (segmentedRefusal "segmented ComplexAck")
        else .ok (.complexAck invokeId ⟨service⟩, parameters)
      | _ => .error (.bufferTooShort 3 apdu.length)
    else if pduType = PduType.error ∨ pduType = PduType.reject ∨ pduType = PduType.abort then
      match rest with
      | invokeId :: third :: parameters =>
        if pduType = PduType.error then .ok (.error invokeId ⟨third⟩, parameters)
        else if pduType = PduType.reject then .ok (.reject invokeId ⟨third⟩, parameters)
        else .ok (.abort (first &&& 0x01 != 0) invokeId ⟨third⟩, parameters)
      | _ => .error (.bufferTooShort 3 apdu.length)
    else if pduType ≤ 7 then
      .error (.decoding ((DecodeError.new .unsupported 0
        "PDU type \x7b\x7d carries no service parameters this header reads").withValue
          pduType.toNat))
    else
      .error (.decoding ((DecodeError.new .invalidEncoding 0
        "unknown PDU type nibble: \x7b:#x\x7d").withValue pduType.toNat))

end RustyBacnet.Encoding
