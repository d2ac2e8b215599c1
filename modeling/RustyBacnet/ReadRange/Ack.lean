import RustyBacnet.Encoding.CtxCodec
import RustyBacnet.Encoding.Frames
import RustyBacnet.Log.ReadRange

/-!
# The answer to a ReadRange

`ReadRangeAck` with its encoder and decoder. The encoder writes the item data as they are; an answer
whose item data are elements, and empty exactly when it counts no items, is read back from its own
octets (`decode_encode`).
-/

namespace RustyBacnet.ReadRange

open Encoding Fields Slices
open Log (ResultFlags)

/-- The parameters of a ReadRange-ACK. -/
structure ReadRangeAck where
  objectIdentifier : ObjectIdentifier
  propertyIdentifier : UInt32
  propertyArrayIndex : Option UInt32
  resultFlags : ResultFlags
  itemCount : UInt32
  itemData : List UInt8
  firstSequenceNumber : Option UInt64
  deriving DecidableEq

def flagsOctet (flags : ResultFlags) : UInt8 :=
  (if flags.firstItem then 0x80 else 0) ||| (if flags.lastItem then 0x40 else 0)
    ||| (if flags.moreItems then 0x20 else 0)

def flagsOfOctet (octet : UInt8) : ResultFlags where
  firstItem := octet &&& 0x80 != 0
  lastItem := octet &&& 0x40 != 0
  moreItems := octet &&& 0x20 != 0

def encodeOptionalUnsigned (tag : UInt8) : Option UInt64 → List UInt8
  | none => []
  | some value => encodeCtxUnsigned tag value

namespace ReadRangeAck

def encodeHead (ack : ReadRangeAck) : List UInt8 :=
  encodeCtxObjectId 0 ack.objectIdentifier
    ++ (encodeCtxEnumerated 1 ack.propertyIdentifier
    ++ (encodeOptionalUnsigned 2 (ack.propertyArrayIndex.map (·.toUInt64))
    ++ (encodeCtxBitString 3 5 [flagsOctet ack.resultFlags]
    ++ encodeCtxUnsigned 4 ack.itemCount.toUInt64)))

def encode (ack : ReadRangeAck) : List UInt8 :=
  ack.encodeHead
    ++ (encodeOpeningTag 5 ++ ((ack.itemData ++ encodeClosingTag 5)
    ++ encodeOptionalUnsigned 6 ack.firstSequenceNumber))

/-- `misplaced_tag`: the refusal of a tag where a member is due. -/
def misplacedTag (data : List UInt8) (found : Tag) (expected : Option UInt8) (offset : ℕ)
    (label : String) : Error :=
  .decoding (DecodeError.new (misplacedKind data offset found expected) offset label)

/-- The flags field at `offset`. -/
def decodeFlags (data : List UInt8) (offset : ℕ) : Except Error (ResultFlags × ℕ) := do
  let (content, behind) ← decodeCtxPrimitive data offset 3 "ReadRange ACK result-flags"
  let (unusedBits, bits) ← decodeBitStringRef content
  let refused := Error.decodingAt offset
    "ReadRange ACK result-flags must contain three bits with zero padding"
  match bits with
  | [octet] =>
    if unusedBits ≠ 5 ∨ octet &&& 0x1f ≠ 0 then .error refused
    else return (flagsOfOctet octet, behind)
  | _ => .error refused

/-- The item data at `offset`, for an answer that counts `itemCount` items. -/
def decodeItems (data : List UInt8) (offset itemCount : ℕ) : Except Error (List UInt8 × ℕ) := do
  let (tag, behind) ← decodeTag data offset
  if !tag.isOpeningTag 5 then
    .error (misplacedTag data tag (some 5) offset "ReadRange ACK item-data expected opening tag 5")
  else
    let (content, next) ← extractContextValue data behind 5
    if (itemCount == 0) != content.isEmpty then
      .error (.decodingAt offset "ReadRange ACK item-count contradicts empty item-data")
    else return (content, next)

/-- The first sequence number at `offset`, unless the data end there. -/
def decodeSequence (data : List UInt8) (offset itemCount : ℕ) : Except Error (Option ℕ × ℕ) :=
  if offset < data.length then do
    let (tag, _) ← decodeTag data offset
    if !tag.isContext 6 then
      .error (misplacedTag data tag (some 6) offset
        "ReadRange ACK expected context tag 6 for first-sequence-number")
    else if itemCount = 0 then
      .error (.decodingAt offset
        "ReadRange ACK first-sequence-number requires a nonzero item-count")
    else
      let (number, behind) ←
        decodeCtxUnsigned .u64 data offset 6 "ReadRange ACK first-sequence-number"
      return (some number, behind)
  else .ok (none, offset)

def decode (data : List UInt8) : Except Error ReadRangeAck := do
  let (identifier, offset) ← decodeCtxObjectId data 0 0 "ReadRange ACK object-id"
  let (property, offset) ← decodeCtxUnsigned .u32 data offset 1 "ReadRange ACK property-id"
  let (index, offset) ←
    decodeOptionalCtx data offset 2 "ReadRange ACK array-index" (decodeCtxUnsigned .u32)
  let (flags, offset) ← decodeFlags data offset
  let (count, offset) ← decodeCtxUnsigned .u32 data offset 4 "ReadRange ACK item-count"
  let (items, offset) ← decodeItems data offset count
  let (number, offset) ← decodeSequence data offset count
  expectEnd data offset offset "ReadRange ACK"
  return {
    objectIdentifier := identifier
    propertyIdentifier := UInt32.ofNat property
    propertyArrayIndex := index.map UInt32.ofNat
    resultFlags := flags
    itemCount := UInt32.ofNat count
    itemData := items
    firstSequenceNumber := number.map UInt64.ofNat }

end ReadRangeAck

/-! ## Each field is read where it stands -/

theorem flags_octet (flags : ResultFlags) :
    flagsOctet flags &&& 0x1f = 0 ∧ flagsOfOctet (flagsOctet flags) = flags := by
  obtain ⟨first, last, more⟩ := flags
  cases first <;> cases last <;> cases more <;> decide

variable {data : List UInt8} {offset : ℕ}

namespace ReadRangeAck

theorem decodeFlags_of_at {flags : ResultFlags}
    (h : At data offset (encodeCtxBitString 3 5 [flagsOctet flags])) :
    decodeFlags data offset
      = .ok (flags, offset + (encodeCtxBitString 3 5 [flagsOctet flags]).length) := by
  obtain ⟨hpadding, hflags⟩ := flags_octet flags
  have hat : At data offset (writeCtx 3 [5, flagsOctet flags].length [5, flagsOctet flags]) := h
  have hlong : [5, flagsOctet flags].length ≤ maxTagLength := by
    show 2 ≤ maxTagLength
    decide
  unfold decodeFlags
  rw [decodeCtxPrimitive_writeCtx _ (by decide) hlong hat, ok_bind]
  dsimp only
  rw [show decodeBitStringRef [5, flagsOctet flags] = .ok (5, [flagsOctet flags]) from rfl, ok_bind]
  dsimp only
  rw [if_neg (by simp [hpadding]), hflags]
  rfl

/-- An index is read where it was written, and its absence where another field stands. -/
theorem decodeIndex_of_at {index : Option UInt32} {octets : List UInt8} (what : String)
    (hlong : octets.length ≤ maxTagLength)
    (h : At data offset (encodeOptionalUnsigned 2 (index.map (·.toUInt64))))
    (hbehind : At data (offset + (encodeOptionalUnsigned 2 (index.map (·.toUInt64))).length)
      (writeCtx 3 octets.length octets)) :
    decodeOptionalCtx data offset 2 what (decodeCtxUnsigned .u32)
      = .ok (index.map (·.toNat),
        offset + (encodeOptionalUnsigned 2 (index.map (·.toUInt64))).length) := by
  unfold decodeOptionalCtx
  cases index with
  | none =>
    have hhere : At data offset (writeCtx 3 octets.length octets) := hbehind
    rw [nextIsContext_writeCtx 2 (by decide) hlong hhere, ok_bind]
    rfl
  | some index =>
    have hindex : index.toUInt64.toNat = index.toNat := UInt32.toNat_toUInt64 index
    have hfits : index.toUInt64.toNat ≤ UnsignedWidth.u32.max := by
      rw [hindex]
      exact Nat.le_of_lt_succ index.toNat_lt
    have hfield : At data offset (encodeCtxUnsigned 2 index.toUInt64) := h
    have hwritten := hfield
    rw [encodeCtxUnsigned_eq] at hwritten
    rw [nextIsContext_writeCtx 2 (by decide) (encodeUnsigned_long index.toUInt64) hwritten, ok_bind]
    rw [decodeCtxUnsigned_of_at what (by decide) hfits hfield, hindex]
    rfl

variable {count : ℕ}

theorem decodeItems_of_at {items : List UInt8}
    (hitems : Elements (maxContextNestingDepth - 1) items) (hcount : count = 0 ↔ items = [])
    (h : At data offset (encodeOpeningTag 5 ++ (items ++ encodeClosingTag 5))) :
    decodeItems data offset count
      = .ok (items, offset + (encodeOpeningTag 5 ++ (items ++ encodeClosingTag 5)).length) := by
  obtain ⟨hopening, hframe⟩ := at_append.mp h
  have hclosing : Header (encodeClosingTag 5) ⟨5, .context, 0, false, true⟩ :=
    decodeTag_encodeClosingTag (by decide) (at_zero _)
  have hread := extractContextValue_iff.mpr ⟨_, hitems, hclosing, hframe, rfl⟩
  unfold decodeItems
  rw [decodeTag_encodeOpeningTag (by decide) hopening, ok_bind]
  dsimp only
  rw [if_neg (by decide), hread, ok_bind]
  have hsame : ((count == 0) != items.isEmpty) = false := by
    rw [bne_eq_false_iff_eq, Bool.eq_iff_iff, beq_iff_eq, List.isEmpty_iff]
    exact hcount
  rw [hsame, if_neg Bool.false_ne_true, List.length_append, List.length_append]
  show Except.ok (items, _) = _
  congr 2
  omega

theorem decodeSequence_of_at {number : Option UInt64} (hcount : number.isSome → count ≠ 0)
    (h : At data offset (encodeOptionalUnsigned 6 number))
    (hend : data.length = offset + (encodeOptionalUnsigned 6 number).length) :
    decodeSequence data offset count = .ok (number.map (·.toNat), data.length) := by
  unfold decodeSequence
  cases number with
  | none =>
    have hhere : data.length = offset := hend
    rw [hhere, if_neg (Nat.lt_irrefl offset)]
    rfl
  | some number =>
    have hfield : At data offset (encodeCtxUnsigned 6 number) := h
    have hwritten := hfield
    rw [encodeCtxUnsigned_eq] at hwritten
    have hlt : offset < data.length := by
      have hpos := Tag.encode_pos ⟨6, .context, (encodeUnsigned number).length, false, false⟩
      have hbound := (at_append.mp hwritten).1.bound
      unfold Tag.encode at hpos
      rw [if_neg Bool.false_ne_true, if_neg Bool.false_ne_true] at hpos
      dsimp only at hpos
      omega
    have hfits : number.toNat ≤ UnsignedWidth.u64.max := Nat.le_of_lt_succ number.toNat_lt
    rw [if_pos hlt, decodeTag_writeCtx (by decide) (encodeUnsigned_long number) hwritten, ok_bind]
    dsimp only
    rw [isContext_context, if_neg (by decide), if_neg (hcount rfl),
      decodeCtxUnsigned_of_at _ (by decide) hfits hfield, ok_bind, hend]
    rfl

/-! ## Whole answers -/

theorem length_encode (ack : ReadRangeAck) (items : List UInt8) :
    ({ ack with itemData := items } : ReadRangeAck).encode.length
      = ({ ack with itemData := [] } : ReadRangeAck).encode.length + items.length := by
  unfold encode encodeHead
  simp only [List.length_append, List.length_nil]
  omega

/-- An answer is read back from its octets. -/
theorem decode_encode (ack : ReadRangeAck)
    (hitems : Elements (maxContextNestingDepth - 1) ack.itemData)
    (hcount : ack.itemCount = 0 ↔ ack.itemData = [])
    (hnumber : ack.firstSequenceNumber.isSome → ack.itemCount ≠ 0) :
    decode ack.encode = .ok ack := by
  obtain ⟨hhead, hrest⟩ := at_append.mp (at_zero ack.encode)
  obtain ⟨hidentifier, hhead⟩ := at_append.mp hhead
  obtain ⟨hproperty, hhead⟩ := at_append.mp hhead
  obtain ⟨hindex, hhead⟩ := at_append.mp hhead
  obtain ⟨hflags, hcountAt⟩ := at_append.mp hhead
  have hproperty' := hproperty
  rw [encodeCtxEnumerated_eq] at hproperty'
  have hpropertyFits : ack.propertyIdentifier.toUInt64.toNat ≤ UnsignedWidth.u32.max := by
    rw [UInt32.toNat_toUInt64]
    exact Nat.le_of_lt_succ ack.propertyIdentifier.toNat_lt
  have hcountFits : ack.itemCount.toUInt64.toNat ≤ UnsignedWidth.u32.max := by
    rw [UInt32.toNat_toUInt64]
    exact Nat.le_of_lt_succ ack.itemCount.toNat_lt
  unfold decode
  rw [decodeCtxObjectId_of_at _ (by decide) hidentifier, ok_bind]
  dsimp only
  rw [decodeCtxUnsigned_of_at _ (by decide) hpropertyFits hproperty', ok_bind]
  have hflagsLong : [5, flagsOctet ack.resultFlags].length ≤ maxTagLength := by
    show 2 ≤ maxTagLength
    decide
  rw [← encodeCtxEnumerated_eq, decodeIndex_of_at _ hflagsLong hindex hflags, ok_bind]
  rw [decodeFlags_of_at hflags, ok_bind]
  rw [decodeCtxUnsigned_of_at _ (by decide) hcountFits hcountAt, ok_bind]
  have hbehind : 0 + ack.encodeHead.length = 0 + (encodeCtxObjectId 0 ack.objectIdentifier).length
      + (encodeCtxEnumerated 1 ack.propertyIdentifier).length
      + (encodeOptionalUnsigned 2 (ack.propertyArrayIndex.map (·.toUInt64))).length
      + (encodeCtxBitString 3 5 [flagsOctet ack.resultFlags]).length
      + (encodeCtxUnsigned 4 ack.itemCount.toUInt64).length := by
    unfold encodeHead
    simp only [List.length_append]
    omega
  rw [← hbehind]
  rw [← List.append_assoc] at hrest
  obtain ⟨hframe, hsequence⟩ := at_append.mp hrest
  have hcount' : ack.itemCount.toUInt64.toNat = 0 ↔ ack.itemData = [] := by
    rw [UInt32.toNat_toUInt64, ← hcount, ← UInt32.toNat_inj]
    rfl
  have hnumber' : ack.firstSequenceNumber.isSome → ack.itemCount.toUInt64.toNat ≠ 0 := by
    intro hsome
    rw [Ne, hcount', ← hcount]
    exact hnumber hsome
  have hend : ack.encode.length = 0 + ack.encodeHead.length
      + (encodeOpeningTag 5 ++ (ack.itemData ++ encodeClosingTag 5)).length
      + (encodeOptionalUnsigned 6 ack.firstSequenceNumber).length := by
    unfold encode
    simp only [List.length_append]
    omega
  rw [decodeItems_of_at hitems hcount' hframe, ok_bind]
  rw [decodeSequence_of_at hnumber' hsequence hend, ok_bind]
  unfold expectEnd
  rw [if_pos rfl, ok_bind]
  obtain ⟨identifier, property, index, flags, count, items, number⟩ := ack
  simp [Option.map_map, Function.comp_def, pure, Except.pure]

end ReadRangeAck

end RustyBacnet.ReadRange
