import RustyBacnet.Encoding.Error

/-!
# Tags

`tags.rs` and `tags/encode.rs` of `bacnet-encoding`: the tag header with its three forms of length,
opening and closing tags, and the walk to the closing tag of a frame.

Offsets and lengths are natural numbers: a header's length is at most 1 MiB and an offset lies in a
slice, so the sums the source checks never overflow.
-/

namespace RustyBacnet.Encoding

open BigEndian Slices

inductive TagClass where
  | application
  | context
  deriving DecidableEq

/-- `class as u8`. -/
def TagClass.raw : TagClass → UInt8
  | application => 0
  | context => 1

namespace AppTag

def null : UInt8 := 0
def boolean : UInt8 := 1
def unsigned : UInt8 := 2
def signed : UInt8 := 3
def real : UInt8 := 4
def double : UInt8 := 5
def octetString : UInt8 := 6
def characterString : UInt8 := 7
def bitString : UInt8 := 8
def enumerated : UInt8 := 9
def date : UInt8 := 10
def time : UInt8 := 11
def objectIdentifier : UInt8 := 12

end AppTag

/-- A tag header. The length of an application Boolean is its value. -/
structure Tag where
  number : UInt8
  cls : TagClass
  length : ℕ
  isOpening : Bool
  isClosing : Bool
  deriving DecidableEq

namespace Tag

def isContext (tag : Tag) (number : UInt8) : Bool :=
  tag.cls == .context && tag.number == number && !tag.isOpening && !tag.isClosing

def isOpeningTag (tag : Tag) (number : UInt8) : Bool :=
  tag.cls == .context && tag.number == number && tag.isOpening

end Tag

def maxTagLength : ℕ := 1048576

def maxContextNestingDepth : ℕ := 32

/-! ## Decoding -/

/-- A malformed header, naming the value of its octet. -/
def headerFault (offset : ℕ) (label : String) (value : ℕ) : Error :=
  .decoding ((DecodeError.new .invalidTag offset label).withValue value)

/-- The tag number, in the octet at `pos` when the nibble says so. -/
def decodeTagNumber (data : List UInt8) (pos : ℕ) (nibble : UInt8) : Except Error (UInt8 × ℕ) :=
  if nibble = 0x0F then
    match data[pos]? with
    | none => .error (.missing pos "truncated extended tag number")
    | some number =>
      if ¬(15 ≤ number ∧ number ≤ 254) then
        .error (headerFault pos "invalid extended tag number \x7b\x7d" number.toNat)
      else .ok (number, pos + 1)
  else .ok (nibble, pos)

/-- The length, in one, two or four octets behind `pos` when the header says so. -/
def decodeTagLength (data : List UInt8) (pos : ℕ) (lvt : UInt8) : Except Error (ℕ × ℕ) :=
  if lvt < 5 then .ok (lvt.toNat, pos)
  else
    match data[pos]? with
    | none => .error (.missing pos "truncated extended length")
    | some ext =>
      if ext ≤ 4 then
        .error (headerFault pos "non-canonical extended tag length \x7b\x7d" ext.toNat)
      else if ext ≤ 253 then .ok (ext.toNat, pos + 1)
      else if ext = 254 then
        match data[pos + 1]?, data[pos + 2]? with
        | some high, some low =>
          let length := (ofBytes16 high low).toNat
          if length < 254 then
            .error (headerFault (pos + 1) "non-canonical 2-byte extended tag length \x7b\x7d" length)
          else .ok (length, pos + 3)
        | _, _ => .error (.missing (pos + 1) "truncated 2-byte extended length")
      else
        match data[pos + 1]?, data[pos + 2]?, data[pos + 3]?, data[pos + 4]? with
        | some a, some b, some c, some d =>
          let length := (ofBytes32 a b c d).toNat
          if length < 65536 then
            .error (headerFault (pos + 1) "non-canonical 4-byte extended tag length \x7b\x7d" length)
          else .ok (length, pos + 5)
        | _, _, _, _ => .error (.missing (pos + 1) "truncated 4-byte extended length")

/-- The header at `offset`, and the offset behind it. -/
def decodeTag (data : List UInt8) (offset : ℕ) : Except Error (Tag × ℕ) :=
  match data[offset]? with
  | none => .error (.missing offset "tag decode: offset beyond buffer length")
  | some initial =>
    let cls : TagClass := if (initial >>> 3) &&& 0x01 = 1 then .context else .application
    let lvt := initial &&& 0x07
    if cls = .application ∧ 5 < lvt then
      .error (.invalidTag offset "reserved application tag L/V/T")
    else
      match decodeTagNumber data (offset + 1) ((initial >>> 4) &&& 0x0F) with
      | .error refused => .error refused
      | .ok (number, pos) =>
        if cls = .context ∧ lvt = 6 then .ok (⟨number, cls, 0, true, false⟩, pos)
        else if cls = .context ∧ lvt = 7 then .ok (⟨number, cls, 0, false, true⟩, pos)
        else
          match decodeTagLength data pos lvt with
          | .error refused => .error refused
          | .ok (length, pos) =>
            if maxTagLength < length then
              .error (.decoding ((DecodeError.new .overflow offset
                "tag length (\x7b\x7d) exceeds sanity limit (\x7b\x7d)").withValues
                  length maxTagLength))
            else .ok (⟨number, cls, length, false, false⟩, pos)

def unclosed (offset : ℕ) (tagNumber : UInt8) : Error :=
  .decoding ((DecodeError.new .missing offset "missing closing tag \x7b\x7d").withValue
    tagNumber.toNat)

/-- Walk the members of a frame from `pos`, with the open tags innermost first, to the end of the
outermost one: where its closing tag stands, and the offset behind it. Every turn takes an octet,
so as many turns as there are octets always suffice. -/
def closeContext (data : List UInt8) (start : ℕ) (tagNumber : UInt8) :
    ℕ → List UInt8 → ℕ → Except Error (ℕ × ℕ)
  | 0, _, _ => .error (unclosed start tagNumber)
  | _, [], _ => .error (unclosed start tagNumber)
  | turns + 1, opened :: outer, pos =>
    if data.length ≤ pos then .error (unclosed start tagNumber)
    else
      match decodeTag data pos with
      | .error refused => .error refused
      | .ok (tag, next) =>
        if tag.isOpening then
          if (opened :: outer).length = maxContextNestingDepth then
            .error (.decoding ((DecodeError.new .invalidTag pos
              "context tag nesting depth exceeds maximum (\x7b\x7d)").withValue
                maxContextNestingDepth))
          else closeContext data start tagNumber turns (tag.number :: opened :: outer) next
        else if tag.isClosing then
          if tag.number ≠ opened then
            .error (.decoding ((DecodeError.new .invalidTag pos
              "closing tag \x7b\x7d does not match opening tag \x7b\x7d").withValues
                tag.number.toNat opened.toNat))
          else if outer = [] then .ok (pos, next)
          else closeContext data start tagNumber turns outer next
        else if tag.cls = .application ∧ tag.number = AppTag.boolean then
          closeContext data start tagNumber turns (opened :: outer) next
        else if data.length < next + tag.length then
          .error (.bufferTooShort (next + tag.length) data.length)
        else closeContext data start tagNumber turns (opened :: outer) (next + tag.length)

/-- The octets of the frame `tagNumber` whose contents start at `offset`, and the offset behind its
closing tag. -/
def extractContextValue (data : List UInt8) (offset : ℕ) (tagNumber : UInt8) :
    Except Error (List UInt8 × ℕ) :=
  match closeContext data offset tagNumber (data.length + 1) [tagNumber] offset with
  | .error refused => .error refused
  | .ok (valueEnd, behind) => .ok (slice data offset (valueEnd - offset), behind)

/-- The octets of a length the first octet does not hold. -/
def tagLengthOctets (length : ℕ) : List UInt8 :=
  if 4 < length then
    if length ≤ 253 then [UInt8.ofNat length]
    else if length ≤ 65535 then 254 :: toBytes16 (UInt16.ofNat length)
    else 255 :: toBytes32 (UInt32.ofNat length)
  else []

def encodeTag (tagNumber : UInt8) (cls : TagClass) (length : ℕ) : List UInt8 :=
  let nibble := if tagNumber ≤ 14 then tagNumber <<< 4 else 0xF0
  let lvt := if length ≤ 4 then UInt8.ofNat length else 5
  (nibble ||| cls.raw <<< 3 ||| lvt) ::
    ((if 14 < tagNumber then [tagNumber] else []) ++ tagLengthOctets length)

def encodeMarker (tagNumber marker : UInt8) : List UInt8 :=
  if tagNumber ≤ 14 then [tagNumber <<< 4 ||| marker] else [0xF0 ||| marker, tagNumber]

def encodeOpeningTag (tagNumber : UInt8) : List UInt8 := encodeMarker tagNumber 0x0E

def encodeClosingTag (tagNumber : UInt8) : List UInt8 := encodeMarker tagNumber 0x0F

/-- The octets of this header, in the encoder's form for it. -/
def Tag.encode (tag : Tag) : List UInt8 :=
  if tag.isOpening then encodeOpeningTag tag.number
  else if tag.isClosing then encodeClosingTag tag.number
  else encodeTag tag.number tag.cls tag.length

end RustyBacnet.Encoding
