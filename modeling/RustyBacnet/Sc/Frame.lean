import RustyBacnet.Lib.BigEndian
import RustyBacnet.Lib.Slices

/-!
# BACnet/SC frames

`sc_frame.rs` of `bacnet-transport`: the function codes, the control octet, header options, the
encoder, the decoder with its offsets, and the second reader that looks for an option the recipient
must understand in the octets themselves.

An offset of the source is a `usize` into a slice, so the additions its second reader checks never
overflow and are plain sums here.
-/

namespace RustyBacnet.Sc

open BigEndian Slices

/-- `Error::Decoding`: an offset and what was wrong there. -/
structure DecodingError where
  offset : ℕ
  message : String
  deriving DecidableEq

/-! ## Function and control octets -/

inductive ScFunction where
  | result
  | encapsulatedNpdu
  | addressResolution
  | addressResolutionAck
  | advertisement
  | advertisementSolicitation
  | connectRequest
  | connectAccept
  | disconnectRequest
  | disconnectAck
  | heartbeatRequest
  | heartbeatAck
  | proprietaryMessage
  | unknown (raw : UInt8)
  deriving DecidableEq

namespace ScFunction

def fromRaw : UInt8 → ScFunction
  | 0x00 => result
  | 0x01 => encapsulatedNpdu
  | 0x02 => addressResolution
  | 0x03 => addressResolutionAck
  | 0x04 => advertisement
  | 0x05 => advertisementSolicitation
  | 0x06 => connectRequest
  | 0x07 => connectAccept
  | 0x08 => disconnectRequest
  | 0x09 => disconnectAck
  | 0x0A => heartbeatRequest
  | 0x0B => heartbeatAck
  | 0x0C => proprietaryMessage
  | raw => unknown raw

def toRaw : ScFunction → UInt8
  | result => 0x00
  | encapsulatedNpdu => 0x01
  | addressResolution => 0x02
  | addressResolutionAck => 0x03
  | advertisement => 0x04
  | advertisementSolicitation => 0x05
  | connectRequest => 0x06
  | connectAccept => 0x07
  | disconnectRequest => 0x08
  | disconnectAck => 0x09
  | heartbeatRequest => 0x0A
  | heartbeatAck => 0x0B
  | proprietaryMessage => 0x0C
  | unknown raw => raw

end ScFunction

/-- Which parts of the header follow the message identifier. -/
structure ScControl where
  hasOriginatingVmac : Bool
  hasDestinationVmac : Bool
  hasDestOptions : Bool
  hasDataOptions : Bool
  deriving DecidableEq

namespace ScControl

def toByte (control : ScControl) : UInt8 :=
  (if control.hasOriginatingVmac then 0x08 else 0) ||| (if control.hasDestinationVmac then 0x04 else 0)
    ||| (if control.hasDestOptions then 0x02 else 0) ||| (if control.hasDataOptions then 0x01 else 0)

def hasValidReservedBits (byte : UInt8) : Bool := byte &&& 0xF0 == 0

def fromByte (byte : UInt8) : ScControl where
  hasOriginatingVmac := byte &&& 0x08 != 0
  hasDestinationVmac := byte &&& 0x04 != 0
  hasDestOptions := byte &&& 0x02 != 0
  hasDataOptions := byte &&& 0x01 != 0

end ScControl

/-- A virtual MAC address, `[u8; 6]`. -/
abbrev Vmac := Vector UInt8 6

/-- A header option. -/
structure ScOption where
  optionType : UInt8
  mustUnderstand : Bool
  data : List UInt8
  deriving DecidableEq

def isValidScOptionType (optionType : UInt8) : Bool := 1 ≤ optionType && optionType ≤ 31

/-- A BVLC-SC message. -/
structure ScMessage where
  function : ScFunction
  messageId : UInt16
  originatingVmac : Option Vmac
  destinationVmac : Option Vmac
  destOptions : List ScOption
  dataOptions : List ScOption
  payload : List UInt8
  deriving DecidableEq

def scMinHeader : ℕ := 4

def scOptionMarker (option : ScOption) (moreFollows : Bool) : UInt8 :=
  option.optionType &&& 0x1F ||| (if moreFollows then 0x80 else 0)
    ||| (if option.mustUnderstand then 0x40 else 0) ||| (if !option.data.isEmpty then 0x20 else 0)

/-- The octets of one option. The length field saturates; the data behind it does not. -/
def encodeScOption (option : ScOption) (moreFollows : Bool) : List UInt8 :=
  scOptionMarker option moreFollows ::
    if !option.data.isEmpty then
      toBytes16 (UInt16.ofNat (min option.data.length 65535)) ++ option.data
    else []

def encodeScOptions : List ScOption → List UInt8
  | [] => []
  | option :: rest => encodeScOption option (!rest.isEmpty) ++ encodeScOptions rest

def ScMessage.control (message : ScMessage) : ScControl where
  hasOriginatingVmac := message.originatingVmac.isSome
  hasDestinationVmac := message.destinationVmac.isSome
  hasDestOptions := !message.destOptions.isEmpty
  hasDataOptions := !message.dataOptions.isEmpty

/-- Append a message to `buf`. -/
def encodeScMessage (buf : List UInt8) (message : ScMessage) : List UInt8 :=
  buf ++ (message.function.toRaw :: message.control.toByte :: toBytes16 message.messageId)
    ++ message.originatingVmac.elim [] Vector.toList
    ++ message.destinationVmac.elim [] Vector.toList
    ++ (if !message.destOptions.isEmpty then encodeScOptions message.destOptions else [])
    ++ (if !message.dataOptions.isEmpty then encodeScOptions message.dataOptions else [])
    ++ message.payload

/-! ## Decoding -/

/-- An address the control octet announces, and the offset behind it. -/
def decodeVmac (data : List UInt8) (present : Bool) (truncated : String) (offset : ℕ) :
    Except DecodingError (Option Vmac × ℕ) :=
  if present then
    if h : offset + 6 ≤ data.length then
      .ok (some ⟨(slice data offset 6).toArray, length_slice h⟩, offset + 6)
    else .error ⟨offset, truncated⟩
  else .ok (none, offset)

/-- One option, whether more follow, and the offset behind it. -/
def decodeScOption (data : List UInt8) (offset : ℕ) : Except DecodingError (ScOption × Bool × ℕ) :=
  match data[offset]? with
  | none => .error ⟨offset, "SC option truncated"⟩
  | some marker =>
    let optionType := marker &&& 0x1F
    let mustUnderstand := marker &&& 0x40 != 0
    let hasData := marker &&& 0x20 != 0
    let moreFollows := marker &&& 0x80 != 0
    if !isValidScOptionType optionType then .error ⟨offset, "invalid SC option type 0"⟩
    else if hasData then
      match data[offset + 1]?, data[offset + 2]? with
      | some high, some low =>
        let length := (ofBytes16 high low).toNat
        if data.length < offset + 3 + length then
          .error ⟨offset + 3, "SC option data truncated"⟩
        else
          .ok (⟨optionType, mustUnderstand, slice data (offset + 3) length⟩, moreFollows,
            offset + 3 + length)
      | _, _ => .error ⟨offset + 1, "SC option length truncated"⟩
    else .ok (⟨optionType, mustUnderstand, []⟩, moreFollows, offset + 1)

def maxScOptions : ℕ := 64

/-- The options from `offset` on, when `room` more may be pushed, and the offset behind them. -/
def decodeScOptionsFrom (data : List UInt8) (room offset : ℕ) :
    Except DecodingError (List ScOption × ℕ) :=
  match decodeScOption data offset with
  | .error refused => .error refused
  | .ok (option, moreFollows, offset) =>
    match room with
    | 0 => .error ⟨offset, "too many SC options"⟩
    | room + 1 =>
      if moreFollows then
        match decodeScOptionsFrom data room offset with
        | .error refused => .error refused
        | .ok (rest, offset) => .ok (option :: rest, offset)
      else .ok ([option], offset)

def decodeScOptions (data : List UInt8) (present : Bool) (offset : ℕ) :
    Except DecodingError (List ScOption × ℕ) :=
  if present then decodeScOptionsFrom data maxScOptions offset else .ok ([], offset)

def decodeScMessage (data : List UInt8) : Except DecodingError ScMessage :=
  match data with
  | function :: byte :: high :: low :: _ =>
    if !ScControl.hasValidReservedBits byte then
      .error ⟨1, "reserved BACnet/SC control bits set"⟩
    else
      let control := ScControl.fromByte byte
      match decodeVmac data control.hasOriginatingVmac "truncated originating VMAC" scMinHeader with
      | .error refused => .error refused
      | .ok (originatingVmac, offset) =>
        match decodeVmac data control.hasDestinationVmac "truncated destination VMAC" offset with
        | .error refused => .error refused
        | .ok (destinationVmac, offset) =>
          match decodeScOptions data control.hasDestOptions offset with
          | .error refused => .error refused
          | .ok (destOptions, offset) =>
            match decodeScOptions data control.hasDataOptions offset with
            | .error refused => .error refused
            | .ok (dataOptions, offset) =>
              .ok { function := .fromRaw function
                    messageId := ofBytes16 high low
                    originatingVmac
                    destinationVmac
                    destOptions
                    dataOptions
                    payload := data.drop offset }
  | _ => .error ⟨0, "BACnet/SC message too short"⟩

/-- Walk the options from `offset` on. Every turn takes an octet, so as many turns as there are
octets always reach the end. -/
def firstMustUnderstandFrom (data : List UInt8) : ℕ → ℕ → Option UInt8
  | 0, _ => none
  | turns + 1, offset =>
    match data[offset]? with
    | none => none
    | some marker =>
      if !isValidScOptionType (marker &&& 0x1F) then none
      else
        let behind : Option ℕ :=
          if marker &&& 0x20 != 0 then
            match data[offset + 1]?, data[offset + 2]? with
            | some high, some low =>
              let behind := offset + 3 + (ofBytes16 high low).toNat
              if data.length < behind then none else some behind
            | _, _ => none
          else some (offset + 1)
        match behind with
        | none => none
        | some behind =>
          if marker &&& 0x40 != 0 then some marker
          else if marker &&& 0x80 == 0 then none
          else firstMustUnderstandFrom data turns behind

def firstMustUnderstandDestinationOptionMarker (data : List UInt8) : Option UInt8 :=
  match data with
  | _ :: byte :: _ :: _ :: _ =>
    if !ScControl.hasValidReservedBits byte then none
    else
      let control := ScControl.fromByte byte
      if !control.hasDestOptions then none
      else
        let offset := scMinHeader + (if control.hasOriginatingVmac then 6 else 0)
          + (if control.hasDestinationVmac then 6 else 0)
        firstMustUnderstandFrom data data.length offset
  | _ => none

end RustyBacnet.Sc
