import Mathlib.Data.Nat.Find
import RustyBacnet.Encoding.Tags

/-!
# Application-tagged values

`primitives/` of `bacnet-encoding`: the raw codecs, the application-tagged encoders, and the three
readers of an application-tagged value: the borrowed view, the owned decoder and the validator.

A Real or Double is its bit pattern. A CharacterString is a `String`, and `core::str::from_utf8` is
`String.fromUTF8?`.
-/

namespace RustyBacnet.Encoding

open BigEndian Slices

/-! ## Values -/

/-- An object type and instance, in ten and twenty-two bits. -/
structure ObjectIdentifier where
  objectType : UInt32
  instanceNumber : UInt32
  objectType_le : objectType ≤ 0x3FF
  instanceNumber_le : instanceNumber ≤ 0x3FFFFF
  deriving DecidableEq

theorem analogValue_le : (2 : UInt32) ≤ 0x3FF := by decide

theorem instanceOne_le : (1 : UInt32) ≤ 0x3FFFFF := by decide

structure Date where
  year : UInt8
  month : UInt8
  day : UInt8
  dayOfWeek : UInt8
  deriving DecidableEq

def Date.actualYear (date : Date) : Option ℕ :=
  if date.year = 0xFF then none else some (1900 + date.year.toNat)

structure Time where
  hour : UInt8
  minute : UInt8
  second : UInt8
  hundredths : UInt8
  deriving DecidableEq

/-- A property value. -/
inductive PropertyValue where
  | null
  | boolean (value : Bool)
  | unsigned (value : UInt64)
  | signed (value : Int32)
  | real (bits : UInt32)
  | double (bits : UInt64)
  | octetString (octets : List UInt8)
  | characterString (text : String)
  | bitString (unusedBits : UInt8) (data : List UInt8)
  | enumerated (value : UInt32)
  | date (value : Date)
  | time (value : Time)
  | objectIdentifier (value : ObjectIdentifier)
  | list (values : List PropertyValue)
  | applicationData (octets : List UInt8)

/-- A value read in place; strings are slices of the data. -/
inductive ApplicationValueRef where
  | null
  | boolean (value : Bool)
  | unsigned (value : UInt64)
  | signed (value : Int32)
  | real (bits : UInt32)
  | double (bits : UInt64)
  | octetString (octets : List UInt8)
  | characterString (contents : List UInt8)
  | bitString (unusedBits : UInt8) (data : List UInt8)
  | enumerated (value : UInt32)
  | date (value : Date)
  | time (value : Time)
  | objectIdentifier (value : ObjectIdentifier)
  deriving DecidableEq

/-! ## Contents -/

/-- A fault in contents, naming a value; its offset is from their start. -/
def contentsFault (kind : DecodingKind) (label : String) (value : ℕ) : Error :=
  .decoding ((DecodeError.new kind 0 label).withValue value)

def decodeUnsigned (data : List UInt8) : Except Error UInt64 :=
  if data = [] ∨ 8 < data.length then
    .error (contentsFault .invalidEncoding "unsigned requires 1-8 bytes, got \x7b\x7d" data.length)
  else .ok (UInt64.ofNat (valueOf data))

/-- The octets `decode_signed` fills up with. -/
def signExtend : List UInt8 → UInt8
  | first :: _ => if first &&& 0x80 ≠ 0 then 0xFF else 0x00
  | [] => 0x00

def decodeSigned (data : List UInt8) : Except Error Int32 :=
  if data = [] ∨ 4 < data.length then
    .error (contentsFault .invalidEncoding "signed requires 1-4 bytes, got \x7b\x7d" data.length)
  else
    let bytes := List.replicate (4 - data.length) (signExtend data) ++ data
    .ok (.ofUInt32 (UInt32.ofNat (valueOf bytes)))

def redundantSign : List UInt8 → Bool
  | first :: second :: _ =>
    (first == 0 && second &&& 0x80 == 0) || (first == 0xFF && second &&& 0x80 != 0)
  | _ => false

def decodeSignedCanonical (data : List UInt8) : Except Error Int32 :=
  if redundantSign data then .error (.decodingAt 0 "signed contains a redundant sign octet")
  else decodeSigned data

def decodeReal (data : List UInt8) : Except Error UInt32 :=
  if data.length ≠ 4 then
    .error (contentsFault .invalidEncoding "Real expects exactly 4 bytes, got \x7b\x7d" data.length)
  else .ok (UInt32.ofNat (valueOf data))

def decodeDouble (data : List UInt8) : Except Error UInt64 :=
  if data.length ≠ 8 then
    .error
      (contentsFault .invalidEncoding "Double expects exactly 8 bytes, got \x7b\x7d" data.length)
  else .ok (UInt64.ofNat (valueOf data))

def decodeBitStringRef (data : List UInt8) : Except Error (UInt8 × List UInt8) :=
  match data with
  | [] => .error (.decodingAt 0 "BitString requires at least 1 byte for unused-bits count")
  | unused :: bits =>
    if 7 < unused then
      .error (contentsFault .invalidEncoding "BitString unused_bits must be 0-7, got \x7b\x7d"
        unused.toNat)
    else .ok (unused, bits)

def Date.encode (date : Date) : List UInt8 := [date.year, date.month, date.day, date.dayOfWeek]

def Date.decode (data : List UInt8) : Except Error Date :=
  match data with
  | [year, month, day, dayOfWeek] => .ok ⟨year, month, day, dayOfWeek⟩
  | _ =>
    .error (contentsFault .invalidEncoding "Date expects exactly 4 bytes, got \x7b\x7d" data.length)

def Time.encode (time : Time) : List UInt8 := [time.hour, time.minute, time.second, time.hundredths]

def Time.decode (data : List UInt8) : Except Error Time :=
  match data with
  | [hour, minute, second, hundredths] => .ok ⟨hour, minute, second, hundredths⟩
  | _ =>
    .error (contentsFault .invalidEncoding "Time expects exactly 4 bytes, got \x7b\x7d" data.length)

namespace ObjectIdentifier

def encode (identifier : ObjectIdentifier) : List UInt8 :=
  toBytes32 (identifier.objectType <<< 22 ||| identifier.instanceNumber)

/-- The identifier in the ten and twenty-two bits of a word. -/
def ofWord (word : UInt32) : ObjectIdentifier where
  objectType := (word >>> 22) &&& 0x3FF
  instanceNumber := word &&& 0x3FFFFF
  objectType_le := UInt32.le_iff_toNat_le.mpr (by rw [UInt32.toNat_and]; exact Nat.and_le_right)
  instanceNumber_le := UInt32.le_iff_toNat_le.mpr (by rw [UInt32.toNat_and]; exact Nat.and_le_right)

def decode (data : List UInt8) : Except Error ObjectIdentifier :=
  match data with
  | [a, b, c, d] => .ok (ofWord (ofBytes32 a b c d))
  | _ =>
    .error (contentsFault .invalidEncoding "ObjectIdentifier expects exactly 4 bytes, got \x7b\x7d"
      data.length)

end ObjectIdentifier

/-! ## Character strings -/

namespace Charset

def utf8 : UInt8 := 0
def ibmMicrosoftDbcs : UInt8 := 1
def jisX0208 : UInt8 := 2
def ucs4 : UInt8 := 3
def ucs2 : UInt8 := 4
def iso88591 : UInt8 := 5

end Charset

/-- `core::str::from_utf8`. -/
def fromUtf8 (octets : List UInt8) : Option String := String.fromUTF8? ⟨octets.toArray⟩

/-- `Utf8Error::valid_up_to`: the longest prefix that is valid. -/
def validUpTo (octets : List UInt8) : ℕ :=
  Nat.findGreatest (fun n => (fromUtf8 (octets.take n)).isSome = true) octets.length

/-- `char::from_u32`. -/
def charFromU32 (value : ℕ) : Option Char :=
  if h : value.isValidChar then some (Char.ofNatAux value h) else none

/-- The characters of UCS-2 octets, `none` for one that is no scalar value, and what is left. -/
def ucs2Characters : List UInt8 → List (Option Char) × List UInt8
  | high :: low :: rest =>
    let (characters, left) := ucs2Characters rest
    (charFromU32 (ofBytes16 high low).toNat :: characters, left)
  | left => ([], left)

def ucs4Characters : List UInt8 → List (Option Char) × List UInt8
  | a :: b :: c :: d :: rest =>
    let (characters, left) := ucs4Characters rest
    (charFromU32 (ofBytes32 a b c d).toNat :: characters, left)
  | left => ([], left)

def checkCharacterString (contents : List UInt8) : Except Error Unit :=
  match contents with
  | [] => .error (.decodingAt 0 "CharacterString requires at least 1 byte for charset")
  | charset :: payload =>
    if charset = Charset.utf8 then
      match fromUtf8 payload with
      | some _ => .ok ()
      | none =>
        .error (.decoding ((DecodeError.new .invalidEncoding 1
          "invalid UTF-8 after \x7b\x7d valid octets").withValue (validUpTo payload)))
    else if charset = Charset.ibmMicrosoftDbcs ∧ payload.length < 2 then
      .error (.decodingAt 1 "DBCS CharacterString requires a two-octet code page")
    else if charset = Charset.ucs2 then
      let (characters, left) := ucs2Characters payload
      if left ≠ [] then .error (.decodingAt 1 "UCS-2 data must have even length")
      else
        match characters.findIdx? Option.isNone with
        | some index => .error (.decodingAt (1 + index * 2) "invalid UCS-2 code point")
        | none => .ok ()
    else if charset = Charset.ucs4 then
      let (characters, left) := ucs4Characters payload
      if left ≠ [] then
        .error (.decodingAt 1 "UCS-4 CharacterString length must be a multiple of four")
      else
        match characters.findIdx? Option.isNone with
        | some index => .error (.decodingAt (1 + index * 4) "invalid UCS-4 code point")
        | none => .ok ()
    else if charset = Charset.ibmMicrosoftDbcs ∨ charset = Charset.jisX0208 ∨
        charset = Charset.iso88591 then .ok ()
    else .error (contentsFault .invalidEncoding "unknown charset: \x7b\x7d" charset.toNat)

def convertCharacterString (charset : UInt8) (payload : List UInt8) : String :=
  if charset = Charset.ucs2 then String.ofList ((ucs2Characters payload).1.filterMap id)
  else if charset = Charset.iso88591 then String.ofList (payload.map fun octet => Char.ofUInt8 octet)
  else (fromUtf8 payload).getD ""

def decodeCharacterString (data : List UInt8) : Except Error String :=
  match data with
  | [] =>
    match checkCharacterString [] with
    | .error refused => .error refused
    | .ok () => .ok ""
  | charset :: payload =>
    if charset = Charset.ibmMicrosoftDbcs ∨ charset = Charset.jisX0208 ∨ charset = Charset.ucs4 then
      .error (contentsFault .unsupported "unsupported charset: \x7b\x7d" charset.toNat)
    else
      match checkCharacterString (charset :: payload) with
      | .error refused => .error refused
      | .ok () => .ok (convertCharacterString charset payload)

/-! ## Encoding -/

def unsignedLen (value : UInt64) : ℕ :=
  if value ≤ 0xFF then 1
  else if value ≤ 0xFFFF then 2
  else if value ≤ 0xFFFFFF then 3
  else if value ≤ 0xFFFFFFFF then 4
  else if value ≤ 0xFFFFFFFFFF then 5
  else if value ≤ 0xFFFFFFFFFFFF then 6
  else if value ≤ 0xFFFFFFFFFFFFFF then 7
  else 8

def signedLen (value : Int32) : ℕ :=
  if -128 ≤ value.toInt ∧ value.toInt ≤ 127 then 1
  else if -32768 ≤ value.toInt ∧ value.toInt ≤ 32767 then 2
  else if -8388608 ≤ value.toInt ∧ value.toInt ≤ 8388607 then 3
  else 4

def encodeUnsigned (value : UInt64) : List UInt8 :=
  (octetsOf 8 value.toNat).drop (8 - unsignedLen value)

def encodeSigned (value : Int32) : List UInt8 :=
  (octetsOf 4 value.toUInt32.toNat).drop (4 - signedLen value)

/-- The contents of an Enumerated: the octets of a word. -/
def encodeEnumerated (value : UInt32) : List UInt8 :=
  (octetsOf 4 value.toNat).drop (4 - unsignedLen value.toUInt64)

def writeTagged (number : UInt8) (length : ℕ) (contents : List UInt8) : List UInt8 :=
  encodeTag number .application length ++ contents

/-- `u32::try_from(len).unwrap_or(u32::MAX)`. -/
def saturatedLength (length : ℕ) : ℕ := min length 4294967295

def encodeAppNull : List UInt8 := writeTagged AppTag.null 0 []

def encodeAppBoolean (value : Bool) : List UInt8 := writeTagged AppTag.boolean value.toNat []

def encodeAppUnsigned (value : UInt64) : List UInt8 :=
  writeTagged AppTag.unsigned (unsignedLen value) (encodeUnsigned value)

def encodeAppSigned (value : Int32) : List UInt8 :=
  writeTagged AppTag.signed (signedLen value) (encodeSigned value)

def encodeAppReal (bits : UInt32) : List UInt8 := writeTagged AppTag.real 4 (octetsOf 4 bits.toNat)

def encodeAppDouble (bits : UInt64) : List UInt8 :=
  writeTagged AppTag.double 8 (octetsOf 8 bits.toNat)

def encodeAppOctetString (data : List UInt8) : List UInt8 :=
  writeTagged AppTag.octetString (saturatedLength data.length) data

def utf8Octets (text : String) : List UInt8 := text.toUTF8.data.toList

def encodeAppCharacterString (text : String) : Except Error (List UInt8) :=
  if 4294967295 < 1 + (utf8Octets text).length then
    .error (.encode "CharacterString too long for BACnet encoding")
  else
    .ok (writeTagged AppTag.characterString (1 + (utf8Octets text).length)
      (Charset.utf8 :: utf8Octets text))

def encodeAppBitString (unusedBits : UInt8) (data : List UInt8) : List UInt8 :=
  writeTagged AppTag.bitString (min (saturatedLength data.length + 1) 4294967295)
    (unusedBits :: data)

def encodeAppEnumerated (value : UInt32) : List UInt8 :=
  writeTagged AppTag.enumerated (unsignedLen value.toUInt64) (encodeEnumerated value)

def encodeAppDate (date : Date) : List UInt8 := writeTagged AppTag.date 4 date.encode

def encodeAppTime (time : Time) : List UInt8 := writeTagged AppTag.time 4 time.encode

def encodeAppObjectId (identifier : ObjectIdentifier) : List UInt8 :=
  writeTagged AppTag.objectIdentifier 4 identifier.encode

mutual

/-- Append a value to `buf`; an error leaves what was appended before it. -/
def encodePropertyValue (buf : List UInt8) : PropertyValue → Except Error Unit × List UInt8
  | .null => (.ok (), buf ++ encodeAppNull)
  | .boolean value => (.ok (), buf ++ encodeAppBoolean value)
  | .unsigned value => (.ok (), buf ++ encodeAppUnsigned value)
  | .signed value => (.ok (), buf ++ encodeAppSigned value)
  | .real bits => (.ok (), buf ++ encodeAppReal bits)
  | .double bits => (.ok (), buf ++ encodeAppDouble bits)
  | .octetString octets => (.ok (), buf ++ encodeAppOctetString octets)
  | .characterString text =>
    match encodeAppCharacterString text with
    | .error refused => (.error refused, buf)
    | .ok octets => (.ok (), buf ++ octets)
  | .bitString unusedBits data => (.ok (), buf ++ encodeAppBitString unusedBits data)
  | .enumerated value => (.ok (), buf ++ encodeAppEnumerated value)
  | .date value => (.ok (), buf ++ encodeAppDate value)
  | .time value => (.ok (), buf ++ encodeAppTime value)
  | .objectIdentifier value => (.ok (), buf ++ encodeAppObjectId value)
  | .list values => encodePropertyValues buf values
  | .applicationData octets => (.ok (), buf ++ octets)

/-- Append values in turn, up to the first that is refused. -/
def encodePropertyValues (buf : List UInt8) : List PropertyValue → Except Error Unit × List UInt8
  | [] => (.ok (), buf)
  | value :: values =>
    match encodePropertyValue buf value with
    | (.error refused, buf) => (.error refused, buf)
    | (.ok (), buf) => encodePropertyValues buf values

end

/-! ## Decoding -/

/-- The label for a fixed-size type whose header gives another length, and its size. -/
def fixedLengthLabel (number : UInt8) : Option (String × ℕ) :=
  if number = AppTag.real then some ("application REAL has \x7b\x7d contents octets, expected 4", 4)
  else if number = AppTag.double then
    some ("application Double has \x7b\x7d contents octets, expected 8", 8)
  else if number = AppTag.date then
    some ("application Date has \x7b\x7d contents octets, expected 4", 4)
  else if number = AppTag.time then
    some ("application Time has \x7b\x7d contents octets, expected 4", 4)
  else if number = AppTag.objectIdentifier then
    some ("application BACnetObjectIdentifier has \x7b\x7d contents octets, expected 4", 4)
  else none

/-- A refusal of contents that start at `base`, its offset moved to the data's start. -/
def rebased (base : ℕ) : Error → Error
  | .decoding refused => .decoding { refused with offset := refused.offset + base }
  | refused => refused

/-- The value of contents of a datatype other than Boolean. -/
def decodeContents (at_ : Error → Error) (offset contentStart : ℕ) (number : UInt8)
    (content : List UInt8) : Except Error ApplicationValueRef :=
  if number = AppTag.null then .ok .null
  else if number = AppTag.unsigned then ((decodeUnsigned content).mapError at_).map .unsigned
  else if number = AppTag.signed then ((decodeSigned content).mapError at_).map .signed
  else if number = AppTag.real then ((decodeReal content).mapError at_).map .real
  else if number = AppTag.double then ((decodeDouble content).mapError at_).map .double
  else if number = AppTag.octetString then .ok (.octetString content)
  else if number = AppTag.characterString then .ok (.characterString content)
  else if number = AppTag.bitString then
    ((decodeBitStringRef content).mapError at_).map fun (unused, data) => .bitString unused data
  else if number = AppTag.enumerated then
    match (decodeUnsigned content).mapError at_ with
    | .error refused => .error refused
    | .ok value =>
      if 4294967295 < value then .error (.outOfRange contentStart "ENUMERATED exceeds u32")
      else .ok (.enumerated value.toUInt32)
  else if number = AppTag.date then ((Date.decode content).mapError at_).map .date
  else if number = AppTag.time then ((Time.decode content).mapError at_).map .time
  else if number = AppTag.objectIdentifier then
    ((ObjectIdentifier.decode content).mapError at_).map .objectIdentifier
  else
    .error (.decoding ((DecodeError.new .invalidTag offset
      "unknown application tag number \x7b\x7d").withValue number.toNat))

/-- The value whose header stands at `offset` and whose contents start at `contentStart`. With
`inData` a fault in the contents is reported at its offset in the data. -/
def decodeApplicationPrimitive (inData : Bool) (data : List UInt8) (offset : ℕ) (tag : Tag)
    (contentStart : ℕ) : Except Error (ApplicationValueRef × ℕ) :=
  if tag.isOpening ∨ tag.isClosing then
    .error (.invalidTag offset "unexpected opening/closing tag")
  else if tag.number = AppTag.null ∧ tag.length ≠ 0 then
    .error (.decodingAt offset "application NULL must have no contents")
  else if tag.number = AppTag.boolean ∧ 1 < tag.length then
    .error (.decodingAt offset "application BOOLEAN L/V/T must be 0 or 1")
  else if tag.number = AppTag.boolean then .ok (.boolean (tag.length != 0), contentStart)
  else
    match (fixedLengthLabel tag.number).filter fun (_, octets) => tag.length != octets with
    | some (label, _) =>
      .error (.decoding ((DecodeError.new .invalidEncoding offset label).withValue tag.length))
    | none =>
      let contentEnd := contentStart + tag.length
      if data.length < contentEnd then .error (.bufferTooShort contentEnd data.length)
      else
        let at_ := if inData then rebased contentStart else id
        match decodeContents at_ offset contentStart tag.number
            (slice data contentStart tag.length) with
        | .error refused => .error refused
        | .ok value => .ok (value, contentEnd)

/-- `decode_application_value_ref`: a value in place, its text checked. -/
def decodeApplicationValueRef (data : List UInt8) (offset : ℕ) :
    Except Error (ApplicationValueRef × ℕ) :=
  match decodeTag data offset with
  | .error refused => .error refused
  | .ok (tag, contentStart) =>
    if tag.cls = .context then
      .error (.invalidTag offset "expected an application-tagged value, found a context tag")
    else
      match decodeApplicationPrimitive true data offset tag contentStart with
      | .error refused => .error refused
      | .ok (.characterString contents, behind) =>
        match (checkCharacterString contents).mapError (rebased contentStart) with
        | .error refused => .error refused
        | .ok () => .ok (.characterString contents, behind)
      | .ok (value, behind) => .ok (value, behind)

def ApplicationValueRef.toPropertyValue : ApplicationValueRef → Except Error PropertyValue
  | null => .ok .null
  | boolean value => .ok (.boolean value)
  | unsigned value => .ok (.unsigned value)
  | signed value => .ok (.signed value)
  | real bits => .ok (.real bits)
  | double bits => .ok (.double bits)
  | octetString octets => .ok (.octetString octets)
  | characterString contents => (decodeCharacterString contents).map .characterString
  | bitString unusedBits data => .ok (.bitString unusedBits data)
  | enumerated value => .ok (.enumerated value)
  | date value => .ok (.date value)
  | time value => .ok (.time value)
  | objectIdentifier value => .ok (.objectIdentifier value)

/-- A value as its own copy; a context-tagged element is kept as it stands. -/
def decodeApplicationValue (data : List UInt8) (offset : ℕ) : Except Error (PropertyValue × ℕ) :=
  match decodeTag data offset with
  | .error refused => .error refused
  | .ok (tag, contentStart) =>
    if tag.cls = .context then
      if tag.isOpening then
        match extractContextValue data contentStart tag.number with
        | .error refused => .error refused
        | .ok (_, behind) => .ok (.applicationData (slice data offset (behind - offset)), behind)
      else if tag.isClosing then .error (.invalidTag offset "unexpected closing tag")
      else
        let contentEnd := contentStart + tag.length
        if data.length < contentEnd then .error (.bufferTooShort contentEnd data.length)
        else .ok (.applicationData (slice data offset (contentEnd - offset)), contentEnd)
    else
      match decodeApplicationPrimitive false data offset tag contentStart with
      | .error refused => .error refused
      | .ok (value, behind) =>
        match value.toPropertyValue with
        | .error refused => .error refused
        | .ok value => .ok (value, behind)

/-! ## Misplaced tags

`misplaced_kind` and `misplaced_tag` of `constructed/tagged.rs`. -/

/-- Walk the tags of `data` from `pos` to `at_`: whether a closing tag `number` there closes the
innermost frame open, the open ones standing innermost first. -/
def closesOpenFrame (data : List UInt8) (at_ : ℕ) (number : UInt8) : ℕ → List UInt8 → ℕ → Bool
  | 0, _, _ => false
  | turns + 1, opened, pos =>
    if at_ ≤ pos then pos == at_ && opened.head? == some number
    else
      match decodeTag data pos with
      | .error _ => false
      | .ok (tag, next) =>
        if tag.isOpening then
          if opened.length = maxContextNestingDepth then false
          else closesOpenFrame data at_ number turns (tag.number :: opened) next
        else if tag.isClosing then
          if opened.head? ≠ some tag.number then false
          else closesOpenFrame data at_ number turns opened.tail next
        else if tag.cls = .application ∧ tag.number = AppTag.boolean then
          closesOpenFrame data at_ number turns opened next
        else closesOpenFrame data at_ number turns opened (next + tag.length)

/-- What kind of fault a tag is where a required member is due. -/
def misplacedKind (data : List UInt8) (at_ : ℕ) (found : Tag) (expected : Option UInt8) :
    DecodingKind :=
  let later := expected.any fun number =>
    found.cls == .context && !found.isClosing && number < found.number
  if later || (found.isClosing && closesOpenFrame data at_ found.number (data.length + 1) [] 0) then
    .missing
  else .invalidTag

/-- Check that a well-formed application-tagged value starts at `offset`, and where it ends. -/
def validateApplicationValue (data : List UInt8) (offset : ℕ) : Except Error ℕ :=
  match decodeTag data offset with
  | .error refused => .error refused
  | .ok (tag, contentStart) =>
    if tag.cls ≠ .application ∨ tag.isOpening ∨ tag.isClosing then
      .error (.decodingKind (misplacedKind data offset tag none) offset
        "expected an application-tagged value")
    else if tag.number ≠ AppTag.characterString ∧ tag.number ≠ AppTag.signed then
      (decodeApplicationValue data offset).map Prod.snd
    else
      let contentEnd := contentStart + tag.length
      if data.length < contentEnd then .error (.bufferTooShort contentEnd data.length)
      else
        let content := slice data contentStart tag.length
        if tag.number = AppTag.signed then
          match decodeSignedCanonical content with
          | .error refused => .error refused
          | .ok _ => .ok contentEnd
        else
          match (checkCharacterString content).mapError (rebased contentStart) with
          | .error refused => .error refused
          | .ok () => .ok contentEnd

end RustyBacnet.Encoding
