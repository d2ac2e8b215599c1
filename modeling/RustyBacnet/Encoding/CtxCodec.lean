import RustyBacnet.Encoding.Tagged
import RustyBacnet.Encoding.ValueCodec

/-!
# Context-tagged fields

The encoders of context-tagged primitives, and that the readers of `Tagged` take a field for what was
written wherever it stands.
-/

namespace RustyBacnet.Encoding

open BigEndian Slices Fields

def writeCtx (tag : UInt8) (length : ℕ) (contents : List UInt8) : List UInt8 :=
  encodeTag tag .context length ++ contents

def encodeCtxUnsigned (tag : UInt8) (value : UInt64) : List UInt8 :=
  writeCtx tag (unsignedLen value) (encodeUnsigned value)

def encodeCtxEnumerated (tag : UInt8) (value : UInt32) : List UInt8 :=
  writeCtx tag (unsignedLen value.toUInt64) (encodeEnumerated value)

def encodeCtxObjectId (tag : UInt8) (identifier : ObjectIdentifier) : List UInt8 :=
  writeCtx tag 4 identifier.encode

def encodeCtxBitString (tag unusedBits : UInt8) (data : List UInt8) : List UInt8 :=
  writeCtx tag (min (saturatedLength data.length + 1) 4294967295) (unusedBits :: data)

/-! ## Reading -/

variable {data : List UInt8} {offset : ℕ} {tag : UInt8} {octets : List UInt8}

theorem decodeTag_writeCtx (htag : tag ≤ 254) (hlong : octets.length ≤ maxTagLength)
    (h : At data offset (writeCtx tag octets.length octets)) :
    decodeTag data offset = .ok (⟨tag, .context, octets.length, false, false⟩,
      offset + (encodeTag tag .context octets.length).length) :=
  decodeTag_encodeTag htag hlong (at_append.mp h).1

theorem contents_writeCtx (h : At data offset (writeCtx tag octets.length octets)) :
    contents data (offset + (encodeTag tag .context octets.length).length) octets.length
      = .ok (octets, offset + (writeCtx tag octets.length octets).length) := by
  obtain ⟨-, hat⟩ := at_append.mp h
  unfold contents writeCtx
  rw [if_neg (Nat.not_lt.mpr hat.bound), hat.slice_eq, List.length_append, Nat.add_assoc]

@[simp] theorem isContext_context (length : ℕ) :
    (⟨tag, .context, length, false, false⟩ : Tag).isContext tag = true := by
  simp [Tag.isContext]

theorem ctxHeader_writeCtx (misplaced what : String) (htag : tag ≤ 254)
    (hlong : octets.length ≤ maxTagLength) (h : At data offset (writeCtx tag octets.length octets))
    :
    ctxHeader data offset tag misplaced what
      = .ok (⟨tag, .context, octets.length, false, false⟩,
        offset + (encodeTag tag .context octets.length).length) := by
  unfold ctxHeader
  rw [decodeTag_writeCtx htag hlong h, ok_bind]
  dsimp only
  rw [isContext_context]
  rfl

theorem decodeCtxPrimitive_writeCtx (what : String) (htag : tag ≤ 254)
    (hlong : octets.length ≤ maxTagLength) (h : At data offset (writeCtx tag octets.length octets))
    :
    decodeCtxPrimitive data offset tag what
      = .ok (octets, offset + (writeCtx tag octets.length octets).length) := by
  unfold decodeCtxPrimitive
  rw [ctxHeader_writeCtx _ what htag hlong h, ok_bind]
  exact contents_writeCtx h

theorem nextIsContext_writeCtx (other : UInt8) (htag : tag ≤ 254)
    (hlong : octets.length ≤ maxTagLength) (h : At data offset (writeCtx tag octets.length octets))
    : nextIsContext data offset other = .ok (tag == other) := by
  have hread := decodeTag_writeCtx htag hlong h
  unfold nextIsContext
  have hlt : ¬ data.length ≤ offset := by
    intro hle
    have hnone : data[offset]? = none := List.getElem?_eq_none hle
    unfold decodeTag at hread
    rw [hnone] at hread
    cases hread
  rw [if_neg hlt, hread, ok_bind]
  simp [Tag.isContext, pure, Except.pure]

/-! ## Each kind of field -/

theorem encodeCtxUnsigned_eq (value : UInt64) :
    encodeCtxUnsigned tag value = writeCtx tag (encodeUnsigned value).length (encodeUnsigned value) := by
  rw [length_encodeUnsigned]
  rfl

theorem encodeCtxEnumerated_eq (value : UInt32) :
    encodeCtxEnumerated tag value = encodeCtxUnsigned tag value.toUInt64 := by
  unfold encodeCtxEnumerated encodeCtxUnsigned
  rw [encodeEnumerated_eq]

theorem length_objectId (identifier : ObjectIdentifier) : identifier.encode.length = 4 := rfl

theorem encodeUnsigned_long (value : UInt64) : (encodeUnsigned value).length ≤ maxTagLength := by
  rw [length_encodeUnsigned]
  exact unsignedLen_le_max value

theorem decodeCtxUnsigned_of_at {width : UnsignedWidth} {value : UInt64} (what : String)
    (htag : tag ≤ 254) (hfits : value.toNat ≤ width.max)
    (h : At data offset (encodeCtxUnsigned tag value)) :
    decodeCtxUnsigned width data offset tag what
      = .ok (value.toNat, offset + (encodeCtxUnsigned tag value).length) := by
  rw [encodeCtxUnsigned_eq] at h ⊢
  unfold decodeCtxUnsigned
  rw [decodeCtxPrimitive_writeCtx what htag (encodeUnsigned_long value) h, ok_bind]
  dsimp only
  rw [decodeUnsigned_encode, ok_bind, if_neg (Nat.not_lt.mpr hfits)]
  rfl

theorem decodeCtxObjectId_of_at {identifier : ObjectIdentifier} (what : String) (htag : tag ≤ 254)
    (h : At data offset (encodeCtxObjectId tag identifier)) :
    decodeCtxObjectId data offset tag what
      = .ok (identifier, offset + (encodeCtxObjectId tag identifier).length) := by
  have hat : At data offset (writeCtx tag identifier.encode.length identifier.encode) := h
  have hlong : identifier.encode.length ≤ maxTagLength := by
    rw [length_objectId]
    decide
  unfold decodeCtxObjectId decodeCtxFixed
  rw [ctxHeader_writeCtx _ what htag hlong hat, ok_bind]
  dsimp only
  have hcontents := contents_writeCtx hat
  rw [length_objectId] at hcontents ⊢
  rw [show Fixed.objectIdentifier.octets = 4 from rfl, if_neg (not_not_intro rfl), hcontents, ok_bind]
  rw [decodeObjectId_encode]
  rfl

end RustyBacnet.Encoding
