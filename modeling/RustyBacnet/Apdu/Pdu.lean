import RustyBacnet.Apdu.FormalError

/-!
# APDUs

`apdu/mod.rs` of `bacnet-encoding`: the eight PDU types, `encode_apdu` and `decode_apdu`.

An encoder appends to the octets it is given. It returns them with its result, so that what a
refused PDU leaves behind is part of the model.
-/

namespace RustyBacnet.Encoding

/-! ## PDUs -/

structure ConfirmedRequest where
  segmented : Bool
  moreFollows : Bool
  segmentedResponseAccepted : Bool
  maxSegments : Option UInt8
  maxApduLength : UInt16
  invokeId : UInt8
  sequenceNumber : Option UInt8
  proposedWindowSize : Option UInt8
  serviceChoice : ConfirmedServiceChoice
  serviceRequest : List UInt8
  deriving DecidableEq

structure UnconfirmedRequest where
  serviceChoice : UnconfirmedServiceChoice
  serviceRequest : List UInt8
  deriving DecidableEq

structure SimpleAck where
  invokeId : UInt8
  serviceChoice : ConfirmedServiceChoice
  deriving DecidableEq

structure ComplexAck where
  segmented : Bool
  moreFollows : Bool
  invokeId : UInt8
  sequenceNumber : Option UInt8
  proposedWindowSize : Option UInt8
  serviceChoice : ConfirmedServiceChoice
  serviceAck : List UInt8
  deriving DecidableEq

structure SegmentAck where
  negativeAck : Bool
  sentByServer : Bool
  invokeId : UInt8
  sequenceNumber : UInt8
  actualWindowSize : UInt8
  deriving DecidableEq

/-- `errorData` is what follows the class and code, or the whole body when that is a formal one. -/
structure ErrorPdu where
  invokeId : UInt8
  serviceChoice : ConfirmedServiceChoice
  errorClass : ErrorClass
  errorCode : ErrorCode
  errorData : List UInt8
  deriving DecidableEq

structure RejectPdu where
  invokeId : UInt8
  rejectReason : RejectReason
  deriving DecidableEq

structure AbortPdu where
  sentByServer : Bool
  invokeId : UInt8
  abortReason : AbortReason
  deriving DecidableEq

inductive Apdu where
  | confirmedRequest (pdu : ConfirmedRequest)
  | unconfirmedRequest (pdu : UnconfirmedRequest)
  | simpleAck (pdu : SimpleAck)
  | complexAck (pdu : ComplexAck)
  | segmentAck (pdu : SegmentAck)
  | error (pdu : ErrorPdu)
  | reject (pdu : RejectPdu)
  | abort (pdu : AbortPdu)
  deriving DecidableEq

/-! ## Encoding -/

def encodeMaxSegments (value : Option UInt8) : Except Error UInt8 :=
  match MaxSegments.fromCapacity value with
  | some field => .ok field.bits
  | none => .error (.range ⟨"invalid max-segments-accepted \x7b\x7d; expected 2..=255 or unspecified",
      [(value.getD 0).toNat, 0]⟩)

def encodeMaxApdu (value : UInt16) : Except Error UInt8 :=
  match MaxApdu.fromOctets value with
  | some field => .ok field.bits
  | none => .error (.range
      ⟨"invalid max-APDU-length \x7b\x7d; expected one of 50, 128, 206, 480, 1024, 1476",
        [value.toNat, 0]⟩)

/-- `value` when it is a window size. -/
def validWindowSize (label : String) (value : UInt8) : Except Error UInt8 :=
  if 1 ≤ value ∧ value ≤ 127 then .ok value else .error (.range ⟨label, [value.toNat, 0]⟩)

/-- The window of a segmented PDU, 1 when it names none. -/
def segmentWindow (label : String) (segmented : Bool) (window : Option UInt8) :
    Except Error (Option UInt8) :=
  if segmented then (validWindowSize label (window.getD 1)).map some else .ok none

/-- The sequence number and window of a segmented PDU, none without a window. -/
def segmentFields (sequenceNumber window : Option UInt8) : List UInt8 :=
  match window with
  | some window => [sequenceNumber.getD 0, window]
  | none => []

/-- `mask` when the flag is set. -/
def flag (set : Bool) (mask : UInt8) : UInt8 := if set then mask else 0

def encodeConfirmedRequest (buf : List UInt8) (pdu : ConfirmedRequest) :
    Except Error Unit × List UInt8 :=
  match encodeMaxSegments pdu.maxSegments with
  | .error refused => (.error refused, buf)
  | .ok maxSegments =>
    match encodeMaxApdu pdu.maxApduLength with
    | .error refused => (.error refused, buf)
    | .ok maxApdu =>
      match segmentWindow "ConfirmedRequest proposed-window-size \x7b\x7d outside BACnet range 1..=127"
          pdu.segmented pdu.proposedWindowSize with
      | .error refused => (.error refused, buf)
      | .ok window =>
        let byte0 := PduType.confirmedRequest <<< 4 ||| flag pdu.segmented 0x08
          ||| flag pdu.moreFollows 0x04 ||| flag pdu.segmentedResponseAccepted 0x02
        let byte1 := maxSegments <<< 4 ||| maxApdu
        (.ok (), buf ++ (byte0 :: byte1 :: pdu.invokeId :: (segmentFields pdu.sequenceNumber window
          ++ pdu.serviceChoice.raw :: pdu.serviceRequest)))

def encodeUnconfirmedRequest (buf : List UInt8) (pdu : UnconfirmedRequest) : List UInt8 :=
  buf ++ (PduType.unconfirmedRequest <<< 4 :: pdu.serviceChoice.raw :: pdu.serviceRequest)

def encodeSimpleAck (buf : List UInt8) (pdu : SimpleAck) : List UInt8 :=
  buf ++ [PduType.simpleAck <<< 4, pdu.invokeId, pdu.serviceChoice.raw]

def encodeComplexAck (buf : List UInt8) (pdu : ComplexAck) : Except Error Unit × List UInt8 :=
  match segmentWindow "ComplexAck proposed-window-size \x7b\x7d outside BACnet range 1..=127"
      pdu.segmented pdu.proposedWindowSize with
  | .error refused => (.error refused, buf)
  | .ok window =>
    let byte0 := PduType.complexAck <<< 4 ||| flag pdu.segmented 0x08 ||| flag pdu.moreFollows 0x04
    (.ok (), buf ++ (byte0 :: pdu.invokeId :: (segmentFields pdu.sequenceNumber window
      ++ pdu.serviceChoice.raw :: pdu.serviceAck)))

def encodeSegmentAck (buf : List UInt8) (pdu : SegmentAck) : Except Error Unit × List UInt8 :=
  match validWindowSize "SegmentACK actual-window-size \x7b\x7d outside BACnet range 1..=127"
      pdu.actualWindowSize with
  | .error refused => (.error refused, buf)
  | .ok window =>
    let byte0 := PduType.segmentAck <<< 4 ||| flag pdu.negativeAck 0x02
      ||| flag pdu.sentByServer 0x01
    (.ok (), buf ++ [byte0, pdu.invokeId, pdu.sequenceNumber, window])

/-- The pair of a complete formal body; a body that is refused counts as no formal one. -/
def formalPair (pdu : ErrorPdu) : Option (ErrorClass × ErrorCode) :=
  match decodeFormalBody pdu.serviceChoice pdu.errorData with
  | .ok formal => formal
  | .error _ => none

def encodeErrorPdu (buf : List UInt8) (pdu : ErrorPdu) : Except Error Unit × List UInt8 :=
  let header := [PduType.error <<< 4, pdu.invokeId, pdu.serviceChoice.raw]
  match formalPair pdu with
  | some (errorClass, errorCode) =>
    if errorClass ≠ pdu.errorClass ∨ errorCode ≠ pdu.errorCode then
      (.error (.encode "formal Error body disagrees with ErrorPdu class/code"), buf)
    else (.ok (), buf ++ (header ++ pdu.errorData))
  | none =>
    (.ok (), buf ++ (header ++ (encodeAppEnumerated pdu.errorClass.raw.toUInt32
      ++ (encodeAppEnumerated pdu.errorCode.raw.toUInt32 ++ pdu.errorData))))

def encodeReject (buf : List UInt8) (pdu : RejectPdu) : List UInt8 :=
  buf ++ [PduType.reject <<< 4, pdu.invokeId, pdu.rejectReason.raw]

def encodeAbort (buf : List UInt8) (pdu : AbortPdu) : List UInt8 :=
  buf ++ [PduType.abort <<< 4 ||| flag pdu.sentByServer 0x01, pdu.invokeId, pdu.abortReason.raw]

def encodeApdu (buf : List UInt8) : Apdu → Except Error Unit × List UInt8
  | .confirmedRequest pdu => encodeConfirmedRequest buf pdu
  | .unconfirmedRequest pdu => (.ok (), encodeUnconfirmedRequest buf pdu)
  | .simpleAck pdu => (.ok (), encodeSimpleAck buf pdu)
  | .complexAck pdu => encodeComplexAck buf pdu
  | .segmentAck pdu => encodeSegmentAck buf pdu
  | .error pdu => encodeErrorPdu buf pdu
  | .reject pdu => (.ok (), encodeReject buf pdu)
  | .abort pdu => (.ok (), encodeAbort buf pdu)

/-! ## Decoding -/

def decodeMaxApdu (value : UInt8) : Except Error UInt16 :=
  match MaxApdu.fromBits value with
  | some field => .ok field.octets
  | none => .error (reservedMaxApdu value)

/-- The sequence number and window of a segmented PDU, then its service choice and parameters. With
the lengths checked here the service choice is always there. -/
def decodeSegmentFields (segmented : Bool) (short : Error) (behind : List UInt8) :
    Except Error ((Option UInt8 × Option UInt8) × UInt8 × List UInt8) :=
  if segmented then
    match behind with
    | sequence :: window :: service :: parameters =>
      .ok ((some sequence, some window), service, parameters)
    | _ => .error short
  else
    match behind with
    | service :: parameters => .ok ((none, none), service, parameters)
    | [] => .error short

def decodeConfirmedRequest (data : List UInt8) : Except Error ConfirmedRequest :=
  match data with
  | byte0 :: byte1 :: invokeId :: fourth :: behind => do
    let maxApduLength ← decodeMaxApdu (byte1 &&& 0x0F)
    let ((sequenceNumber, proposedWindowSize), service, parameters) ←
      decodeSegmentFields (byte0 &&& 0x08 != 0)
        (.decodingAt 3 "segmented ConfirmedRequest too short for sequence/window fields")
        (fourth :: behind)
    return {
      segmented := byte0 &&& 0x08 != 0
      moreFollows := byte0 &&& 0x04 != 0
      segmentedResponseAccepted := byte0 &&& 0x02 != 0
      maxSegments := (MaxSegments.fromBits ((byte1 >>> 4) &&& 0x07)).count
      maxApduLength
      invokeId
      sequenceNumber
      proposedWindowSize
      serviceChoice := ⟨service⟩
      serviceRequest := parameters }
  | _ => .error (.bufferTooShort 4 data.length)

def decodeUnconfirmedRequest (data : List UInt8) : Except Error UnconfirmedRequest :=
  match data with
  | _ :: service :: parameters => .ok ⟨⟨service⟩, parameters⟩
  | _ => .error (.bufferTooShort 2 data.length)

def decodeSimpleAck (data : List UInt8) : Except Error SimpleAck :=
  match data with
  | _ :: invokeId :: service :: _ => .ok ⟨invokeId, ⟨service⟩⟩
  | _ => .error (.bufferTooShort 3 data.length)

def decodeComplexAck (data : List UInt8) : Except Error ComplexAck :=
  match data with
  | byte0 :: invokeId :: third :: behind => do
    let ((sequenceNumber, proposedWindowSize), service, parameters) ←
      decodeSegmentFields (byte0 &&& 0x08 != 0)
        (.decodingAt 2 "segmented ComplexAck too short for sequence/window fields")
        (third :: behind)
    return {
      segmented := byte0 &&& 0x08 != 0
      moreFollows := byte0 &&& 0x04 != 0
      invokeId
      sequenceNumber
      proposedWindowSize
      serviceChoice := ⟨service⟩
      serviceAck := parameters }
  | _ => .error (.bufferTooShort 3 data.length)

def decodeSegmentAck (data : List UInt8) : Except Error SegmentAck :=
  match data with
  | byte0 :: invokeId :: sequence :: window :: _ =>
    if window = 0 ∨ 127 < window then
      .error (.decoding ((DecodeError.new .invalidEncoding 3
        "SegmentACK actual-window-size \x7b\x7d outside range 1..=127").withValue window.toNat))
    else .ok ⟨byte0 &&& 0x02 != 0, byte0 &&& 0x01 != 0, invokeId, sequence, window⟩
  | _ => .error (.bufferTooShort 4 data.length)

/-- The class or code of an Error at `offset`, with the labels of its two refusals. -/
def decodeErrorField (data : List UInt8) (offset : ℕ) (misplaced exceeds : String) :
    Except Error (UInt16 × ℕ) := do
  let (tag, tagEnd) ← decodeTag data offset
  if tag.cls ≠ .application ∨ tag.number ≠ AppTag.enumerated then
    .error (.decodingAt offset misplaced)
  else
    let (octets, fieldEnd) ← contents data tagEnd tag.length
    let raw ← decodeUnsigned octets
    if 65535 < raw.toNat then
      .error (.decoding ((DecodeError.new .outOfRange tagEnd exceeds).withValue raw.toNat))
    else return (UInt16.ofNat raw.toNat, fieldEnd)

/-- The class and code of an Error at `offset`, and the offset behind them. -/
def decodeErrorPair (data : List UInt8) (offset : ℕ) :
    Except Error ((ErrorClass × ErrorCode) × ℕ) := do
  let (errorClass, offset) ← decodeErrorField data offset
    "ErrorPDU error class: expected application-tagged enumerated"
    "ErrorPDU error class \x7b\x7d exceeds u16"
  let (errorCode, offset) ← decodeErrorField data offset
    "ErrorPDU error code: expected application-tagged enumerated"
    "ErrorPDU error code \x7b\x7d exceeds u16"
  return ((⟨errorClass⟩, ⟨errorCode⟩), offset)

def decodeErrorPdu (data : List UInt8) : Except Error ErrorPdu :=
  match data with
  | _ :: invokeId :: service :: body =>
    if data.length < 5 then .error (.bufferTooShort 5 data.length)
    else do
      match ← decodeFormalBody ⟨service⟩ body with
      | some (errorClass, errorCode) => return ⟨invokeId, ⟨service⟩, errorClass, errorCode, body⟩
      | none =>
        let ((errorClass, errorCode), behind) ← decodeErrorPair data 3
        return ⟨invokeId, ⟨service⟩, errorClass, errorCode, data.drop behind⟩
  | _ => .error (.bufferTooShort 5 data.length)

def decodeReject (data : List UInt8) : Except Error RejectPdu :=
  match data with
  | _ :: invokeId :: reason :: _ => .ok ⟨invokeId, ⟨reason⟩⟩
  | _ => .error (.bufferTooShort 3 data.length)

def decodeAbort (data : List UInt8) : Except Error AbortPdu :=
  match data with
  | byte0 :: invokeId :: reason :: _ => .ok ⟨byte0 &&& 0x01 != 0, invokeId, ⟨reason⟩⟩
  | _ => .error (.bufferTooShort 3 data.length)

def decodeApdu (data : List UInt8) : Except Error Apdu :=
  match data with
  | [] => .error (.decodingAt 0 "APDU data is empty")
  | byte0 :: _ =>
    let pduType := (byte0 >>> 4) &&& 0x0F
    if pduType = PduType.confirmedRequest then
      (decodeConfirmedRequest data).map .confirmedRequest
    else if pduType = PduType.unconfirmedRequest then
      (decodeUnconfirmedRequest data).map .unconfirmedRequest
    else if pduType = PduType.simpleAck then (decodeSimpleAck data).map .simpleAck
    else if pduType = PduType.complexAck then (decodeComplexAck data).map .complexAck
    else if pduType = PduType.segmentAck then (decodeSegmentAck data).map .segmentAck
    else if pduType = PduType.error then (decodeErrorPdu data).map .error
    else if pduType = PduType.reject then (decodeReject data).map .reject
    else if pduType = PduType.abort then (decodeAbort data).map .abort
    else
      .error (.decoding ((DecodeError.new .invalidEncoding 0
        "unknown PDU type nibble: \x7b:#x\x7d").withValue pduType.toNat))

end RustyBacnet.Encoding
