import RustyBacnet.Encoding.Primitives

/-!
# Tagged fields

The readers of `constructed/tagged.rs` that the formal Error bodies use, and the two references they
read with them (`read_access.rs`, `object_property_reference.rs`). Each reads one field at an offset
and returns the offset behind it.
-/

namespace RustyBacnet.Encoding

open BigEndian Slices

/-- The unsigned integer type a value is narrowed to, by its name and its largest value. -/
structure UnsignedWidth where
  name : String
  max : ℕ
  deriving DecidableEq

namespace UnsignedWidth

def u16 : UnsignedWidth := ⟨"u16", 65535⟩
def u32 : UnsignedWidth := ⟨"u32", 4294967295⟩
def u64 : UnsignedWidth := ⟨"u64", 18446744073709551615⟩

end UnsignedWidth

/-- The refusal of a tag where a member is due; `named` fills the label's placeholder. -/
def misplacedMember (data : List UInt8) (found : Tag) (expected : Option UInt8) (offset : ℕ)
    (what label : String) (named : UInt8) : Error :=
  .decoding (((DecodeError.new (misplacedKind data offset found expected) offset label).within
    what).withValue named.toNat)

/-- Whether a primitive context tag stands at `offset`; no at the end of the data. -/
def nextIsContext (data : List UInt8) (offset : ℕ) (tag : UInt8) : Except Error Bool :=
  if data.length ≤ offset then .ok false
  else do
    let (found, _) ← decodeTag data offset
    return found.isContext tag

def expectOpening (data : List UInt8) (offset : ℕ) (tag : UInt8) (what : String) :
    Except Error ℕ := do
  let (found, pos) ← decodeTag data offset
  if !found.isOpeningTag tag then
    .error (misplacedMember data found (some tag) offset what "expected opening tag [\x7b\x7d]" tag)
  else return pos

def decodeCtxConstructed (data : List UInt8) (offset : ℕ) (tag : UInt8) (what : String) :
    Except Error (List UInt8 × ℕ) := do
  let content ← expectOpening data offset tag what
  extractContextValue data content tag

/-- A value that stopped at `stop` has used all of `data`; `at_` is the offset reported if not. -/
def expectEnd (data : List UInt8) (stop at_ : ℕ) (what : String) : Except Error Unit :=
  if stop = data.length then .ok ()
  else
    let kind : DecodingKind := match decodeTag data stop with
      | .ok (tag, _) => if !tag.isClosing then .trailing else .invalidTag
      | .error _ => .invalidTag
    .error (.decoding (((DecodeError.new kind at_ "\x7b\x7d trailing byte(s)").within
      what).withValue (data.length - stop)))

/-! ## Primitive contents -/

/-- The contents octets of a primitive, and the offset behind them. -/
def contents (data : List UInt8) (start length : ℕ) : Except Error (List UInt8 × ℕ) :=
  if data.length < start + length then .error (.bufferTooShort (start + length) data.length)
  else .ok (slice data start length, start + length)

def ctxHeader (data : List UInt8) (offset : ℕ) (tag : UInt8) (misplaced what : String) :
    Except Error (Tag × ℕ) := do
  let (found, start) ← decodeTag data offset
  if !found.isContext tag then
    .error (misplacedMember data found (some tag) offset what misplaced tag)
  else return (found, start)

def decodeCtxPrimitive (data : List UInt8) (offset : ℕ) (tag : UInt8) (what : String) :
    Except Error (List UInt8 × ℕ) := do
  let (found, start) ← ctxHeader data offset tag "expected context tag [\x7b\x7d]" what
  contents data start found.length

/-- A fixed-size primitive type: its size, and the labels of its two refusals. -/
structure Fixed where
  octets : ℕ
  misplaced : String
  wrongLength : String
  deriving DecidableEq

def Fixed.objectIdentifier : Fixed where
  octets := 4
  misplaced := "expected context tag [\x7b\x7d] object identifier"
  wrongLength := "[\x7b\x7d] object identifier has \x7b\x7d contents octets, expected 4"

def decodeCtxFixed (data : List UInt8) (offset : ℕ) (tag : UInt8) (fixed : Fixed) (what : String) :
    Except Error (List UInt8 × ℕ) := do
  let (found, start) ← ctxHeader data offset tag fixed.misplaced what
  if found.length ≠ fixed.octets then
    .error (.decoding (((DecodeError.new .invalidEncoding offset fixed.wrongLength).within
      what).withValues tag.toNat found.length))
  else contents data start fixed.octets

def decodeCtxObjectId (data : List UInt8) (offset : ℕ) (tag : UInt8) (what : String) :
    Except Error (ObjectIdentifier × ℕ) := do
  let (octets, behind) ← decodeCtxFixed data offset tag .objectIdentifier what
  let identifier ← ObjectIdentifier.decode octets
  return (identifier, behind)

/-! ## Unsigned and Enumerated -/

def decodeCtxUnsigned (width : UnsignedWidth) (data : List UInt8) (offset : ℕ) (tag : UInt8)
    (what : String) : Except Error (ℕ × ℕ) := do
  let (octets, behind) ← decodeCtxPrimitive data offset tag what
  let value ← decodeUnsigned octets
  if width.max < value.toNat then
    .error (.decoding (((DecodeError.new .outOfRange offset
      ("[\x7b\x7d] value \x7b\x7d exceeds " ++ width.name)).within what).withValues tag.toNat
        value.toNat))
  else return (value.toNat, behind)

/-- The optional member under a primitive context tag. -/
def decodeOptionalCtx {T : Type} (data : List UInt8) (offset : ℕ) (tag : UInt8) (what : String)
    (decode : List UInt8 → ℕ → UInt8 → String → Except Error (T × ℕ)) :
    Except Error (Option T × ℕ) := do
  if !(← nextIsContext data offset tag) then return (none, offset)
  else
    let (value, behind) ← decode data offset tag what
    return (some value, behind)

def decodeAppPrimitive (data : List UInt8) (offset : ℕ) (number : UInt8) (what : String) :
    Except Error (List UInt8 × ℕ) :=
  if number = AppTag.boolean then
    .error (.decoding ((DecodeError.new .invalidEncoding offset
      "an application-tagged BOOLEAN has no contents to read").within what))
  else do
    let (found, start) ← decodeTag data offset
    if found.cls ≠ .application ∨ found.number ≠ number then
      .error (misplacedMember data found none offset what "expected application-tagged \x7bt\x7d"
        number)
    else contents data start found.length

/-- An application-tagged Unsigned or Enumerated that fits the width. -/
def decodeAppNarrowed (number : UInt8) (exceeds : String) (width : UnsignedWidth)
    (data : List UInt8) (offset : ℕ) (what : String) : Except Error (ℕ × ℕ) := do
  let (octets, behind) ← decodeAppPrimitive data offset number what
  let value ← decodeUnsigned octets
  if width.max < value.toNat then
    .error (.decoding ((DecodeError.new .outOfRange (behind - octets.length)
      (exceeds ++ width.name)).within what))
  else return (value.toNat, behind)

def decodeAppUnsigned : UnsignedWidth → List UInt8 → ℕ → String → Except Error (ℕ × ℕ) :=
  decodeAppNarrowed AppTag.unsigned "Unsigned exceeds "

def decodeAppEnumerated : UnsignedWidth → List UInt8 → ℕ → String → Except Error (ℕ × ℕ) :=
  decodeAppNarrowed AppTag.enumerated "ENUMERATED exceeds "

structure PropertyReference where
  propertyIdentifier : ℕ
  propertyArrayIndex : Option ℕ
  deriving DecidableEq

def decodePropertyReference (data : List UInt8) (offset : ℕ) :
    Except Error (PropertyReference × ℕ) := do
  let (property, next) ←
    decodeCtxUnsigned .u32 data offset 0 "PropertyReference property-id"
  let (index, behind) ←
    decodeOptionalCtx data next 1 "PropertyReference array-index" (decodeCtxUnsigned .u32)
  return (⟨property, index⟩, behind)

structure ObjectPropertyReference where
  objectIdentifier : ObjectIdentifier
  propertyIdentifier : ℕ
  propertyArrayIndex : Option ℕ
  deriving DecidableEq

def objectPropertyReferenceWhat : String := "BACnetObjectPropertyReference"

def decodeObjectPropertyReferenceAt (data : List UInt8) (offset : ℕ) :
    Except Error (ObjectPropertyReference × ℕ) := do
  let what := objectPropertyReferenceWhat
  let (identifier, offset) ← decodeCtxObjectId data offset 0 what
  let (property, offset) ← decodeCtxUnsigned .u32 data offset 1 what
  let (index, offset) ← decodeOptionalCtx data offset 2 what (decodeCtxUnsigned .u32)
  if ← nextIsContext data offset 3 then
    .error (.decoding ((DecodeError.new .invalidEncoding offset
      "[3] device-identifier is not part of this production").within what))
  else return (⟨identifier, property, index⟩, offset)

def decodeObjectPropertyReference (data : List UInt8) : Except Error ObjectPropertyReference := do
  let (reference, behind) ← decodeObjectPropertyReferenceAt data 0
  expectEnd data behind behind objectPropertyReferenceWhat
  return reference

end RustyBacnet.Encoding
