import Mathlib.Tactic.NormNum
import RustyBacnet.Encoding.Primitives
import RustyBacnet.Encoding.TagCodec

/-!
# The codec of application-tagged values

1. The contents of each datatype are read back (`decodeUnsigned_encode`, `decodeSigned_encode` and
   so on), and integers have no shorter contents (`unsignedLen_le`, `signedLen_le`).
2. A header and contents are read wherever they stand (`decodeApplicationValue_of_at`), so a list of
   values is, one behind the other.
3. The view and the owned decoder differ only in the errors of contents and in the text of a
   CharacterString (`decodeApplicationPrimitive_ok`), and the validator goes through one of them or
   makes the same checks.
-/

namespace RustyBacnet.Encoding

open BigEndian Slices Fields

theorem ok_bind {T S : Type} (value : T) (f : T → Except Error S) :
    (Except.ok value >>= f) = f value := rfl

theorem bind_ok {T S : Type} {x : Except Error T} {f : T → Except Error S} {result : S}
    (h : x >>= f = .ok result) : ∃ value, x = .ok value ∧ f value = .ok result := by
  cases x with
  | error refused => cases h
  | ok value => exact ⟨value, rfl, h⟩

/-! ## Unsigned contents -/

theorem unsignedLen_spec (value : UInt64) :
    1 ≤ unsignedLen value ∧ unsignedLen value ≤ 8 ∧ value.toNat < 256 ^ unsignedLen value ∧
      (unsignedLen value = 1 ∨ 256 ^ (unsignedLen value - 1) ≤ value.toNat) := by
  have hvalue := value.toNat_lt
  unfold unsignedLen
  simp only [UInt64.le_iff_toNat_le]
  split_ifs with h1 h2 h3 h4 h5 h6 h7 <;> simp at * <;> omega

theorem encodeUnsigned_eq (value : UInt64) :
    encodeUnsigned value = octetsOf (unsignedLen value) value.toNat := by
  obtain ⟨-, hle, -⟩ := unsignedLen_spec value
  unfold encodeUnsigned
  have hsplit : 8 = (8 - unsignedLen value) + unsignedLen value := by omega
  conv_lhs => rw [hsplit]
  rw [Nat.add_sub_cancel, drop_octetsOf]

@[simp] theorem length_encodeUnsigned (value : UInt64) :
    (encodeUnsigned value).length = unsignedLen value := by
  rw [encodeUnsigned_eq, length_octetsOf]

theorem decodeUnsigned_encode (value : UInt64) : decodeUnsigned (encodeUnsigned value) = .ok value := by
  obtain ⟨hpos, hle, hlt, -⟩ := unsignedLen_spec value
  have hlength := length_encodeUnsigned value
  unfold decodeUnsigned
  rw [if_neg, encodeUnsigned_eq, valueOf_octetsOf, Nat.mod_eq_of_lt hlt, UInt64.ofNat_toNat]
  rintro (hnil | hlong)
  · rw [hnil] at hlength
    rw [← hlength] at hpos
    exact Nat.not_succ_le_zero 0 hpos
  · omega

variable {octets : List UInt8}

/-- What `decode_unsigned` reads. -/
theorem decodeUnsigned_ok {value : UInt64} (h : decodeUnsigned octets = .ok value) :
    1 ≤ octets.length ∧ octets.length ≤ 8 ∧ value.toNat = valueOf octets := by
  unfold decodeUnsigned at h
  split_ifs at h with hbad
  cases h
  rw [not_or] at hbad
  have hlt := valueOf_lt octets
  have hpow : 256 ^ octets.length ≤ 256 ^ 8 := Nat.pow_le_pow_right (by decide) (by omega)
  refine ⟨List.length_pos_iff.mpr hbad.1, by omega, ?_⟩
  rw [UInt64.toNat_ofNat']
  exact Nat.mod_eq_of_lt (by omega)

theorem unsignedLen_le {value : UInt64} (h : decodeUnsigned octets = .ok value) :
    unsignedLen value ≤ octets.length := by
  obtain ⟨hpos, -, hvalue⟩ := decodeUnsigned_ok h
  obtain ⟨-, -, -, hone | hleast⟩ := unsignedLen_spec value
  · omega
  · by_contra hlt
    have hpow : 256 ^ octets.length ≤ 256 ^ (unsignedLen value - 1) :=
      Nat.pow_le_pow_right (by decide) (by omega)
    have hbound := valueOf_lt octets
    omega

theorem encodeEnumerated_eq (value : UInt32) :
    encodeEnumerated value = encodeUnsigned value.toUInt64 := by
  obtain ⟨hpos, -, -, hleast⟩ := unsignedLen_spec value.toUInt64
  have hvalue : value.toUInt64.toNat = value.toNat := UInt32.toNat_toUInt64 value
  have hlt := value.toNat_lt
  have hfour : unsignedLen value.toUInt64 ≤ 4 := by
    rcases hleast with hone | hleast
    · omega
    · by_contra hlong
      have hpow : 256 ^ 4 ≤ 256 ^ (unsignedLen value.toUInt64 - 1) :=
        Nat.pow_le_pow_right (by decide) (by omega)
      omega
  rw [encodeUnsigned_eq]
  unfold encodeEnumerated
  have hsplit : 4 = (4 - unsignedLen value.toUInt64) + unsignedLen value.toUInt64 := by omega
  conv_lhs => rw [hsplit]
  rw [Nat.add_sub_cancel, drop_octetsOf, hvalue]

/-! ## Signed contents -/

theorem valueOf_append (xs ys : List UInt8) :
    valueOf (xs ++ ys) = valueOf xs * 256 ^ ys.length + valueOf ys := by
  unfold valueOf
  rw [List.foldl_append]
  exact foldl_octets ys _

theorem valueOf_replicate_ones (count : ℕ) :
    valueOf (List.replicate count 0xFF) = 256 ^ count - 1 := by
  induction count with
  | zero => rfl
  | succ count ih =>
    have hpos : 0 < 256 ^ count := Nat.pow_pos (by decide)
    rw [List.replicate_succ, valueOf_cons, ih, List.length_replicate, Nat.pow_succ]
    show 255 * 256 ^ count + _ = _
    omega

theorem valueOf_replicate_zeros (count : ℕ) : valueOf (List.replicate count 0x00) = 0 := by
  induction count with
  | zero => rfl
  | succ count ih =>
    rw [List.replicate_succ, valueOf_cons, ih]
    exact (Nat.zero_mul _)

theorem sign_bit (octet : UInt8) : octet &&& 0x80 ≠ 0 ↔ 128 ≤ octet.toNat := by
  induction octet using octet_cases with
  | octet n =>
    revert n
    decide +kernel

/-- The octets `decode_signed` fills up with are the sign of the number. -/
theorem signExtend_eq (hne : octets ≠ []) :
    signExtend octets
      = if 128 * 256 ^ (octets.length - 1) ≤ valueOf octets then 0xFF else 0x00 := by
  cases octets with
  | nil => exact absurd rfl hne
  | cons first rest =>
    have hiff : 128 * 256 ^ rest.length ≤ valueOf (first :: rest) ↔ 128 ≤ first.toNat := by
      have hlt := valueOf_lt rest
      rw [valueOf_cons]
      constructor
      · intro h
        by_contra hsmall
        have hmul := Nat.mul_le_mul_right (256 ^ rest.length) (show first.toNat ≤ 127 by omega)
        omega
      · intro h
        have hmul := Nat.mul_le_mul_right (256 ^ rest.length) h
        omega
    unfold signExtend
    rw [List.length_cons, Nat.add_sub_cancel]
    simp only [hiff, sign_bit]

theorem toInt_eq (value : Int32) :
    value.toInt = if value.toUInt32.toNat < 2 ^ 31 then (value.toUInt32.toNat : ℤ)
      else (value.toUInt32.toNat : ℤ) - 2 ^ 32 := by
  show value.toUInt32.toBitVec.toInt = _
  rw [BitVec.toInt_eq_toNat_cond]
  show (if 2 * value.toUInt32.toNat < 2 ^ 32 then (value.toUInt32.toNat : ℤ)
    else (value.toUInt32.toNat : ℤ) - ((2 ^ 32 : ℕ) : ℤ)) = _
  split_ifs <;> omega

/-- The bits of the number `count` octets stand for, most significant octet extended. -/
theorem decodeSigned_bits (hne : octets ≠ []) (hlong : octets.length ≤ 4) :
    ∃ value : Int32, decodeSigned octets = .ok value ∧ value.toUInt32.toNat
      = if 128 * 256 ^ (octets.length - 1) ≤ valueOf octets then
          (256 ^ (4 - octets.length) - 1) * 256 ^ octets.length + valueOf octets
        else valueOf octets := by
  have hextend := signExtend_eq hne
  have hlt := valueOf_lt octets
  unfold decodeSigned
  rw [if_neg (by rintro (h | h); exacts [hne h, absurd hlong (Nat.not_le.mpr h)])]
  refine ⟨_, rfl, ?_⟩
  rw [UInt32.toNat_ofNat', valueOf_append, hextend]
  have hpow : 256 ^ (4 - octets.length) * 256 ^ octets.length = 256 ^ 4 := by
    rw [← Nat.pow_add, Nat.sub_add_cancel hlong]
  split_ifs with hsign
  · rw [valueOf_replicate_ones]
    apply Nat.mod_eq_of_lt
    have hpos : 0 < 256 ^ (4 - octets.length) := Nat.pow_pos (by decide)
    have hle : (256 ^ (4 - octets.length) - 1) * 256 ^ octets.length + 256 ^ octets.length
        = 256 ^ 4 := by
      rw [← Nat.succ_mul, Nat.succ_eq_add_one, Nat.sub_add_cancel hpos, hpow]
    omega
  · rw [valueOf_replicate_zeros, Nat.zero_mul, Nat.zero_add]
    apply Nat.mod_eq_of_lt
    have hpow' : 256 ^ octets.length ≤ 256 ^ 4 := Nat.pow_le_pow_right (by decide) hlong
    omega

theorem decodeSigned_range {value : Int32} (h : decodeSigned octets = .ok value) :
    1 ≤ octets.length ∧ octets.length ≤ 4 ∧
      -(128 * 256 ^ (octets.length - 1) : ℤ) ≤ value.toInt ∧
      value.toInt < 128 * 256 ^ (octets.length - 1) := by
  have hbad : ¬(octets = [] ∨ 4 < octets.length) := by
    intro hbad
    unfold decodeSigned at h
    rw [if_pos hbad] at h
    cases h
  rw [not_or] at hbad
  have hpos : 1 ≤ octets.length := List.length_pos_iff.mpr hbad.1
  obtain ⟨value', hdecode, hbits⟩ := decodeSigned_bits hbad.1 (Nat.not_lt.mp hbad.2)
  rw [h] at hdecode
  cases hdecode
  have hlt := valueOf_lt octets
  have hint := toInt_eq value
  refine ⟨hpos, Nat.not_lt.mp hbad.2, ?_⟩
  have hcases : octets.length = 1 ∨ octets.length = 2 ∨ octets.length = 3 ∨ octets.length = 4 := by
    omega
  rcases hcases with hn | hn | hn | hn <;>
  · rw [hn] at hbits hlt ⊢
    norm_num at hbits hlt hint ⊢
    split_ifs at hbits hint <;> omega

theorem signedLen_le {value : Int32} (h : decodeSigned octets = .ok value) :
    signedLen value ≤ octets.length := by
  obtain ⟨hpos, hlong, hlow, hhigh⟩ := decodeSigned_range h
  have hcases : octets.length = 1 ∨ octets.length = 2 ∨ octets.length = 3 ∨ octets.length = 4 := by
    omega
  unfold signedLen
  rcases hcases with hn | hn | hn | hn <;>
  · rw [hn] at hlow hhigh ⊢
    norm_num at hlow hhigh
    split_ifs <;> omega

theorem signedLen_cases (value : Int32) :
    signedLen value = 1 ∧ -128 ≤ value.toInt ∧ value.toInt ≤ 127 ∨
      signedLen value = 2 ∧ -32768 ≤ value.toInt ∧ value.toInt ≤ 32767 ∨
      signedLen value = 3 ∧ -8388608 ≤ value.toInt ∧ value.toInt ≤ 8388607 ∨
      signedLen value = 4 := by
  unfold signedLen
  split_ifs with h1 h2 h3
  · exact .inl ⟨rfl, h1⟩
  · exact .inr (.inl ⟨rfl, h2⟩)
  · exact .inr (.inr (.inl ⟨rfl, h3⟩))
  · exact .inr (.inr (.inr rfl))

theorem encodeSigned_eq (value : Int32) :
    encodeSigned value = octetsOf (signedLen value) value.toUInt32.toNat := by
  have hle : signedLen value ≤ 4 := by
    rcases signedLen_cases value with h | h | h | h <;> omega
  unfold encodeSigned
  have hsplit : 4 = (4 - signedLen value) + signedLen value := by omega
  conv_lhs => rw [hsplit]
  rw [Nat.add_sub_cancel, drop_octetsOf]

@[simp] theorem length_encodeSigned (value : Int32) :
    (encodeSigned value).length = signedLen value := by
  rw [encodeSigned_eq, length_octetsOf]

theorem decodeSigned_encode (value : Int32) : decodeSigned (encodeSigned value) = .ok value := by
  have hlength := length_encodeSigned value
  have hcases := signedLen_cases value
  have hne : encodeSigned value ≠ [] := by
    intro hnil
    rw [hnil, List.length_nil] at hlength
    omega
  obtain ⟨value', hdecode, hbits⟩ := decodeSigned_bits hne (by omega)
  have hlt := value.toUInt32.toNat_lt
  have hint := toInt_eq value
  rw [hdecode]
  have heq : value'.toUInt32.toNat = value.toUInt32.toNat := by
    rw [hbits, hlength, encodeSigned_eq, valueOf_octetsOf]
    rcases hcases with ⟨hn, hrange⟩ | ⟨hn, hrange⟩ | ⟨hn, hrange⟩ | hn <;> rw [hn] <;>
      norm_num at hint ⊢ <;> split_ifs at hint ⊢ <;> omega
  obtain ⟨bits⟩ := value
  obtain ⟨bits'⟩ := value'
  exact congrArg (fun bits => Except.ok (Int32.ofUInt32 bits)) (UInt32.toNat_inj.mp heq)

/-! ## The other contents -/

theorem fromUtf8_octets (text : String) : fromUtf8 (utf8Octets text) = some text := by
  have harray : (⟨(utf8Octets text).toArray⟩ : ByteArray) = text.toByteArray := by
    unfold utf8Octets
    rw [Array.toArray_toList]
    rfl
  unfold fromUtf8 String.fromUTF8?
  rw [harray, dif_pos text.isValidUTF8]
  rfl

theorem decodeCharacterString_utf8 (text : String) :
    decodeCharacterString (Charset.utf8 :: utf8Octets text) = .ok text := by
  unfold decodeCharacterString
  dsimp only
  rw [if_neg (by decide)]
  have hcheck : checkCharacterString (Charset.utf8 :: utf8Octets text) = .ok () := by
    unfold checkCharacterString
    dsimp only
    rw [if_pos rfl, fromUtf8_octets]
  rw [hcheck]
  unfold convertCharacterString
  rw [if_neg (by decide), if_neg (by decide), fromUtf8_octets]
  rfl

theorem decodeReal_octets (bits : UInt32) : decodeReal (octetsOf 4 bits.toNat) = .ok bits := by
  have hlt : bits.toNat < 256 ^ 4 := by
    have h := bits.toNat_lt
    omega
  unfold decodeReal
  rw [if_neg (not_not.mpr (length_octetsOf 4 _)), valueOf_octetsOf, Nat.mod_eq_of_lt hlt,
    UInt32.ofNat_toNat]

theorem decodeDouble_octets (bits : UInt64) : decodeDouble (octetsOf 8 bits.toNat) = .ok bits := by
  have hlt : bits.toNat < 256 ^ 8 := by
    have h := bits.toNat_lt
    omega
  unfold decodeDouble
  rw [if_neg (not_not.mpr (length_octetsOf 8 _)), valueOf_octetsOf, Nat.mod_eq_of_lt hlt,
    UInt64.ofNat_toNat]

variable (identifier : ObjectIdentifier)

theorem ofWord_encode :
    ObjectIdentifier.ofWord (identifier.objectType <<< 22 ||| identifier.instanceNumber)
      = identifier := by
  obtain ⟨objectType, instanceNumber, htype, hinstance⟩ := identifier
  have htype' : objectType.toNat ≤ 1023 := UInt32.le_iff_toNat_le.mp htype
  have hinstance' : instanceNumber.toNat < 2 ^ 22 :=
    Nat.lt_succ_of_le (UInt32.le_iff_toNat_le.mp hinstance)
  have hword : (objectType <<< 22 ||| instanceNumber).toNat
      = objectType.toNat * 2 ^ 22 + instanceNumber.toNat := by
    rw [UInt32.toNat_or, UInt32.toNat_shiftLeft]
    show objectType.toNat <<< 22 % 2 ^ 32 ||| instanceNumber.toNat = _
    rw [Nat.shiftLeft_eq, Nat.mod_eq_of_lt (by omega), ← Nat.shiftLeft_eq, shiftLeft_or hinstance',
      Nat.shiftLeft_eq]
  have hhigh : (objectType <<< 22 ||| instanceNumber) >>> 22 &&& 0x3FF = objectType := by
    apply UInt32.toNat_inj.mp
    rw [UInt32.toNat_and, UInt32.toNat_shiftRight, hword]
    show (objectType.toNat * 2 ^ 22 + instanceNumber.toNat) >>> 22 &&& (2 ^ 10 - 1) = _
    rw [Nat.and_two_pow_sub_one_eq_mod, Nat.shiftRight_eq_div_pow]
    omega
  have hlow : (objectType <<< 22 ||| instanceNumber) &&& 0x3FFFFF = instanceNumber := by
    apply UInt32.toNat_inj.mp
    rw [UInt32.toNat_and, hword]
    show (objectType.toNat * 2 ^ 22 + instanceNumber.toNat) &&& (2 ^ 22 - 1) = _
    rw [Nat.and_two_pow_sub_one_eq_mod]
    omega
  unfold ObjectIdentifier.ofWord
  simp only [hhigh, hlow]

theorem decodeObjectId_encode : ObjectIdentifier.decode identifier.encode = .ok identifier := by
  unfold ObjectIdentifier.encode
  show Except.ok (ObjectIdentifier.ofWord (ofBytes32 _ _ _ _)) = _
  rw [ofBytes32_octets, ofWord_encode]

/-! ## One value -/

/-- The contents of a datatype other than Boolean, with what they are read as. -/
structure Contents (number : UInt8) (contents : List UInt8) (ref : ApplicationValueRef) : Prop where
  number_le : number ≤ 14
  notBoolean : number ≠ AppTag.boolean
  long : contents.length ≤ maxTagLength
  null : number = AppTag.null → contents = []
  fixed : ((fixedLengthLabel number).filter fun (_, octets) => contents.length != octets) = none
  read : ∀ at_ offset start, decodeContents at_ offset start number contents = .ok ref

variable {ref : ApplicationValueRef} {contents : List UInt8} {number : UInt8}

theorem contents_fixed {label : String}
    (hfixed : fixedLengthLabel number = some (label, contents.length)) (hnumber : number ≤ 14)
    (hbool : number ≠ AppTag.boolean) (hnull : number ≠ AppTag.null)
    (hlong : contents.length ≤ maxTagLength)
    (hread : ∀ at_ offset start, decodeContents at_ offset start number contents = .ok ref) :
    Contents number contents ref := by
  refine ⟨hnumber, hbool, hlong, fun h => absurd h hnull, ?_, hread⟩
  rw [hfixed]
  exact Option.filter_eq_none_iff.mpr fun _ hmem => by cases hmem; simp

theorem contents_variable (hfixed : fixedLengthLabel number = none) (hnumber : number ≤ 14)
    (hbool : number ≠ AppTag.boolean) (hnull : number ≠ AppTag.null)
    (hlong : contents.length ≤ maxTagLength)
    (hread : ∀ at_ offset start, decodeContents at_ offset start number contents = .ok ref) :
    Contents number contents ref := by
  refine ⟨hnumber, hbool, hlong, fun h => absurd h hnull, ?_, hread⟩
  rw [hfixed]
  rfl

theorem unsignedLen_le_max (value : UInt64) : unsignedLen value ≤ maxTagLength :=
  Nat.le_trans (unsignedLen_spec value).2.1 (by decide)

theorem contents_unsigned (value : UInt64) :
    Contents AppTag.unsigned (encodeUnsigned value) (.unsigned value) := by
  refine contents_variable rfl (by decide) (by decide) (by decide) ?_ fun at_ offset start => ?_
  · rw [length_encodeUnsigned]
    exact unsignedLen_le_max value
  · show ((decodeUnsigned (encodeUnsigned value)).mapError at_).map _ = _
    rw [decodeUnsigned_encode]
    rfl

theorem contents_signed (value : Int32) :
    Contents AppTag.signed (encodeSigned value) (.signed value) := by
  refine contents_variable rfl (by decide) (by decide) (by decide) ?_ fun at_ offset start => ?_
  · have hcases := signedLen_cases value
    rw [length_encodeSigned]
    unfold maxTagLength
    omega
  · show ((decodeSigned (encodeSigned value)).mapError at_).map _ = _
    rw [decodeSigned_encode]
    rfl

theorem contents_enumerated (value : UInt32) :
    Contents AppTag.enumerated (encodeEnumerated value) (.enumerated value) := by
  have hsmall : ¬4294967295 < value.toUInt64 := by
    rw [UInt64.lt_iff_toNat_lt, UInt32.toNat_toUInt64]
    exact Nat.not_lt.mpr (Nat.le_of_lt_succ value.toNat_lt)
  refine contents_variable rfl (by decide) (by decide) (by decide) ?_ fun at_ offset start => ?_
  · rw [encodeEnumerated_eq, length_encodeUnsigned]
    exact unsignedLen_le_max _
  · unfold decodeContents
    rw [encodeEnumerated_eq, decodeUnsigned_encode]
    show (if 4294967295 < value.toUInt64 then _ else _) = _
    rw [if_neg hsmall, UInt32.toUInt32_toUInt64]

theorem contents_real (bits : UInt32) : Contents AppTag.real (octetsOf 4 bits.toNat) (.real bits) := by
  refine contents_fixed rfl (by decide) (by decide) (by decide) (by decide : 4 ≤ maxTagLength)
    fun at_ offset start => ?_
  show ((decodeReal (octetsOf 4 bits.toNat)).mapError at_).map _ = _
  rw [decodeReal_octets]
  rfl

theorem contents_double (bits : UInt64) :
    Contents AppTag.double (octetsOf 8 bits.toNat) (.double bits) := by
  refine contents_fixed rfl (by decide) (by decide) (by decide) (by decide : 8 ≤ maxTagLength)
    fun at_ offset start => ?_
  show ((decodeDouble (octetsOf 8 bits.toNat)).mapError at_).map _ = _
  rw [decodeDouble_octets]
  rfl

theorem contents_objectId :
    Contents AppTag.objectIdentifier identifier.encode (.objectIdentifier identifier) := by
  refine contents_fixed rfl (by decide) (by decide) (by decide) (by decide : 4 ≤ maxTagLength)
    fun at_ offset start => ?_
  show ((ObjectIdentifier.decode identifier.encode).mapError at_).map _ = _
  rw [decodeObjectId_encode]
  rfl

variable {data : List UInt8}

theorem contents_bitString {unusedBits : UInt8} (hunused : unusedBits ≤ 7)
    (hlong : 1 + data.length ≤ maxTagLength) :
    Contents AppTag.bitString (unusedBits :: data) (.bitString unusedBits data) := by
  refine contents_variable rfl (by decide) (by decide) (by decide) ?_ fun at_ offset start => ?_
  · rw [List.length_cons, Nat.add_comm]
    exact hlong
  · have hread : decodeBitStringRef (unusedBits :: data) = .ok (unusedBits, data) :=
      if_neg (UInt8.not_lt.mpr hunused)
    show ((decodeBitStringRef (unusedBits :: data)).mapError at_).map _ = _
    rw [hread]
    rfl

variable {offset : ℕ} {value : PropertyValue}

theorem decodeApplicationValue_of_at (hcontents : Contents number contents ref)
    (hvalue : ref.toPropertyValue = .ok value)
    (h : At data offset (writeTagged number contents.length contents)) :
    decodeApplicationValue data offset
      = .ok (value, offset + (writeTagged number contents.length contents).length) := by
  obtain ⟨hheader, hat⟩ := at_append.mp h
  have hbound := hat.bound
  have hslice := hat.slice_eq
  have hprimitive : decodeApplicationPrimitive false data offset
      ⟨number, .application, contents.length, false, false⟩
      (offset + (encodeTag number .application contents.length).length)
      = .ok (ref, offset + (writeTagged number contents.length contents).length) := by
    unfold decodeApplicationPrimitive writeTagged
    dsimp only
    rw [if_neg (by decide), if_neg (fun hn => hn.2 (congrArg List.length (hcontents.null hn.1))),
      if_neg (fun hb => hcontents.notBoolean hb.1), if_neg hcontents.notBoolean, hcontents.fixed]
    dsimp only
    rw [if_neg (Nat.not_lt.mpr hbound), hslice, hcontents.read]
    rw [List.length_append, Nat.add_assoc]
  unfold decodeApplicationValue
  rw [decodeTag_encodeTag (UInt8.le_trans hcontents.number_le (by decide)) hcontents.long hheader]
  dsimp only
  rw [if_neg (by decide), hprimitive]
  dsimp only
  rw [hvalue]

theorem decodeApplicationValue_boolean (value : Bool) (h : At data offset (encodeAppBoolean value))
    :
    decodeApplicationValue data offset
      = .ok (.boolean value, offset + (encodeAppBoolean value).length) := by
  have hheader : At data offset (encodeTag AppTag.boolean .application value.toNat) :=
    (at_append.mp h).1
  have hlength : (encodeAppBoolean value).length
      = (encodeTag AppTag.boolean .application value.toNat).length :=
    congrArg List.length (List.append_nil _)
  unfold decodeApplicationValue
  rw [decodeTag_encodeTag (by decide) (by cases value <;> decide) hheader, hlength]
  dsimp only
  rw [if_neg (by decide)]
  cases value <;> rfl

/-- The values a list is made of: primitive, with contents a header can announce. -/
def PropertyValue.Sendable : PropertyValue → Prop
  | .octetString octets => octets.length ≤ maxTagLength
  | .characterString text => 1 + (utf8Octets text).length ≤ maxTagLength
  | .bitString unusedBits data =>
    1 + data.length ≤ maxTagLength ∧ unusedBits ≤ 7 ∧ (data = [] → unusedBits = 0)
  | .list _ => False
  | .applicationData _ => False
  | _ => True

/-- What is appended for a value is read back as the value. -/
theorem roundTrip (value : PropertyValue) (h : value.Sendable) :
    ∃ octets, octets ≠ [] ∧ (∀ buf, encodePropertyValue buf value = (.ok (), buf ++ octets)) ∧
      ∀ {data : List UInt8} {offset : ℕ}, At data offset octets →
        decodeApplicationValue data offset = .ok (value, offset + octets.length) := by
  have hwrite : ∀ {number : UInt8} {contents : List UInt8} {ref : ApplicationValueRef},
      Contents number contents ref → ref.toPropertyValue = .ok value →
      (∀ buf, encodePropertyValue buf value
        = (.ok (), buf ++ writeTagged number contents.length contents)) →
      ∃ octets, octets ≠ [] ∧ (∀ buf, encodePropertyValue buf value = (.ok (), buf ++ octets)) ∧
        ∀ {data : List UInt8} {offset : ℕ}, At data offset octets →
          decodeApplicationValue data offset = .ok (value, offset + octets.length) := by
    intro number contents ref hcontents hvalue hencode
    exact ⟨_, List.cons_ne_nil _ _, hencode, decodeApplicationValue_of_at hcontents hvalue⟩
  cases value with
  | null =>
    have hcontents : Contents AppTag.null [] .null := by
      refine ⟨?_, ?_, ?_, fun _ => rfl, rfl, ?_⟩
      · decide
      · decide
      · decide
      · exact fun _ _ _ => rfl
    exact hwrite hcontents rfl fun _ => rfl
  | boolean value =>
    exact ⟨_, List.cons_ne_nil _ _, fun _ => rfl, decodeApplicationValue_boolean value⟩
  | unsigned value =>
    refine hwrite (contents_unsigned value) rfl fun buf => ?_
    rw [length_encodeUnsigned]
    rfl
  | signed value =>
    refine hwrite (contents_signed value) rfl fun buf => ?_
    rw [length_encodeSigned]
    rfl
  | real bits => exact hwrite (contents_real bits) rfl fun _ => rfl
  | double bits => exact hwrite (contents_double bits) rfl fun _ => rfl
  | octetString octets =>
    have hlong : octets.length ≤ maxTagLength := h
    have hcontents : Contents AppTag.octetString octets (.octetString octets) :=
      contents_variable rfl (by decide) (by decide) (by decide) hlong fun _ _ _ => rfl
    refine hwrite hcontents rfl fun buf => ?_
    show (_, buf ++ writeTagged _ (min octets.length 4294967295) _) = _
    rw [Nat.min_eq_left (Nat.le_trans hlong (by decide))]
  | characterString text =>
    have hlong : 1 + (utf8Octets text).length ≤ maxTagLength := h
    have hcons : (Charset.utf8 :: utf8Octets text).length = 1 + (utf8Octets text).length :=
      Nat.add_comm _ _
    have hcontents : Contents AppTag.characterString (Charset.utf8 :: utf8Octets text)
        (.characterString (Charset.utf8 :: utf8Octets text)) :=
      contents_variable rfl (by decide) (by decide) (by decide) (hcons ▸ hlong) fun _ _ _ => rfl
    refine hwrite hcontents ?_ fun buf => ?_
    · show (decodeCharacterString _).map PropertyValue.characterString = _
      rw [decodeCharacterString_utf8]
      rfl
    · have hmax : ¬4294967295 < 1 + (utf8Octets text).length :=
        Nat.not_lt.mpr (Nat.le_trans hlong (by decide))
      have hencode : encodeAppCharacterString text = .ok (writeTagged AppTag.characterString
          (1 + (utf8Octets text).length) (Charset.utf8 :: utf8Octets text)) := if_neg hmax
      unfold encodePropertyValue
      rw [hencode, hcons]
  | bitString unusedBits data =>
    obtain ⟨hlong, hunused, -⟩ := h
    have hmax : data.length + 1 ≤ 4294967295 := by
      unfold maxTagLength at hlong
      omega
    refine hwrite (contents_bitString hunused hlong) rfl fun buf => ?_
    show (_, buf ++ writeTagged _ (min (min data.length 4294967295 + 1) 4294967295) _) = _
    rw [Nat.min_eq_left (Nat.le_of_succ_le hmax), Nat.min_eq_left hmax]
    rfl
  | enumerated value =>
    refine hwrite (contents_enumerated value) rfl fun buf => ?_
    rw [encodeEnumerated_eq, length_encodeUnsigned, ← encodeEnumerated_eq]
    rfl
  | date value =>
    have hcontents : Contents AppTag.date value.encode (.date value) :=
      contents_fixed rfl (by decide) (by decide) (by decide) (by decide : 4 ≤ maxTagLength)
        fun _ _ _ => rfl
    exact hwrite hcontents rfl fun _ => rfl
  | time value =>
    have hcontents : Contents AppTag.time value.encode (.time value) :=
      contents_fixed rfl (by decide) (by decide) (by decide) (by decide : 4 ≤ maxTagLength)
        fun _ _ _ => rfl
    exact hwrite hcontents rfl fun _ => rfl
  | objectIdentifier value => exact hwrite (contents_objectId value) rfl fun _ => rfl
  | list values => exact h.elim
  | applicationData octets => exact h.elim

/-! ## Values one behind the other -/

/-- Read values from `offset` up to `stop`, at most `turns` of them. -/
def decodeApplicationValues (data : List UInt8) (stop : ℕ) :
    ℕ → ℕ → Except Error (List PropertyValue × ℕ)
  | 0, offset => .ok ([], offset)
  | turns + 1, offset =>
    if stop ≤ offset then .ok ([], offset)
    else
      match decodeApplicationValue data offset with
      | .error refused => .error refused
      | .ok (value, next) =>
        match decodeApplicationValues data stop turns next with
        | .error refused => .error refused
        | .ok (values, behind) => .ok (value :: values, behind)

/-- A list of values is read back, up to the end of what was appended for it. -/
theorem roundTrip_list (values : List PropertyValue) (h : ∀ value ∈ values, value.Sendable) :
    ∃ octets, (∀ buf, encodePropertyValues buf values = (.ok (), buf ++ octets)) ∧
      ∀ {data : List UInt8} {offset turns : ℕ}, At data offset octets → values.length ≤ turns →
        decodeApplicationValues data (offset + octets.length) turns offset
          = .ok (values, offset + octets.length) := by
  induction values with
  | nil =>
    refine ⟨[], fun buf => ?_, fun {data offset turns} _ _ => ?_⟩
    · unfold encodePropertyValues
      rw [List.append_nil]
    · cases turns with
      | zero => rfl
      | succ turns => exact if_pos (Nat.le_refl _)
  | cons value values ih =>
    obtain ⟨hvalue, hvalues⟩ := List.forall_mem_cons.mp h
    obtain ⟨first, hne, hencode, hdecode⟩ := roundTrip value hvalue
    obtain ⟨rest, hencodes, hdecodes⟩ := ih hvalues
    refine ⟨first ++ rest, fun buf => ?_, fun {data offset turns} hat hturns => ?_⟩
    · unfold encodePropertyValues
      rw [hencode]
      dsimp only
      rw [hencodes, List.append_assoc]
    · obtain ⟨hfirst, hrest⟩ := at_append.mp hat
      obtain ⟨turns, rfl⟩ : ∃ t, turns = t + 1 :=
        ⟨turns - 1, by rw [List.length_cons] at hturns; omega⟩
      have hpos : 0 < first.length := List.length_pos_iff.mpr hne
      have hstop : offset + (first ++ rest).length = offset + first.length + rest.length := by
        rw [List.length_append, Nat.add_assoc]
      unfold decodeApplicationValues
      rw [if_neg (by rw [hstop]; omega), hdecode hfirst]
      dsimp only
      rw [hstop, hdecodes hrest (Nat.le_of_succ_le_succ hturns)]

/-! ## The three readers -/

variable {start : ℕ}

theorem decodeContents_ok {at_ at_' : Error → Error} {content : List UInt8}
    (h : decodeContents at_ offset start number content = .ok ref) :
    decodeContents at_' offset start number content = .ok ref := by
  have hmap : ∀ {α : Type} {r : Except Error α} {f : α → ApplicationValueRef},
      (r.mapError at_).map f = .ok ref → (r.mapError at_').map f = .ok ref := by
    intro α r f
    cases r with
    | error refused =>
      intro h
      cases h
    | ok value => exact id
  have hite : ∀ {P : Prop} [Decidable P] {a a' b b' : Except Error ApplicationValueRef},
      (a = .ok ref → a' = .ok ref) → (b = .ok ref → b' = .ok ref) →
      (if P then a else b) = .ok ref → (if P then a' else b') = .ok ref := by
    intro P _ a a' b b' ha hb h
    split_ifs at h ⊢
    · exact ha h
    · exact hb h
  revert h
  unfold decodeContents
  refine hite id (hite hmap (hite hmap (hite hmap (hite hmap (hite id (hite id (hite hmap
    (hite ?_ (hite hmap (hite hmap (hite hmap id)))))))))))
  cases decodeUnsigned content with
  | error refused =>
    intro h
    cases h
  | ok value => exact id

/-- What a primitive is read from: the header of a Boolean, or contents. -/
inductive PrimitiveRead (data : List UInt8) (offset start : ℕ) (tag : Tag) :
    ApplicationValueRef → ℕ → Prop
  | boolean (hnumber : tag.number = AppTag.boolean) (hlength : tag.length ≤ 1) :
      PrimitiveRead data offset start tag (.boolean (tag.length != 0)) start
  | contents {ref : ApplicationValueRef} (hnumber : tag.number ≠ AppTag.boolean)
      (hnull : tag.number = AppTag.null → tag.length = 0)
      (hfixed : ((fixedLengthLabel tag.number).filter fun (_, octets) => tag.length != octets) = none)
      (hroom : start + tag.length ≤ data.length)
      (hread : decodeContents id offset start tag.number (slice data start tag.length) = .ok ref) :
      PrimitiveRead data offset start tag ref (start + tag.length)

variable {behind : ℕ} {tag : Tag}

/-- The reader of primitives accepts the same values in both of its uses. -/
theorem decodeApplicationPrimitive_iff (inData : Bool) :
    decodeApplicationPrimitive inData data offset tag start = .ok (ref, behind) ↔
      ¬(tag.isOpening = true ∨ tag.isClosing = true) ∧
        PrimitiveRead data offset start tag ref behind := by
  unfold decodeApplicationPrimitive
  by_cases hframe : tag.isOpening = true ∨ tag.isClosing = true
  · rw [if_pos hframe]
    exact ⟨(nomatch ·), fun h => absurd hframe h.1⟩
  rw [if_neg hframe]
  constructor
  · intro h
    refine ⟨hframe, ?_⟩
    by_cases hnull : tag.number = AppTag.null ∧ tag.length ≠ 0
    · rw [if_pos hnull] at h
      cases h
    rw [if_neg hnull] at h
    by_cases hlong : tag.number = AppTag.boolean ∧ 1 < tag.length
    · rw [if_pos hlong] at h
      cases h
    rw [if_neg hlong] at h
    by_cases hbool : tag.number = AppTag.boolean
    · rw [if_pos hbool] at h
      cases h
      exact .boolean hbool (Nat.not_lt.mp fun hlt => hlong ⟨hbool, hlt⟩)
    rw [if_neg hbool] at h
    split at h
    · cases h
    · rename_i hfixed
      dsimp only at h
      by_cases hroom : data.length < start + tag.length
      · rw [if_pos hroom] at h
        cases h
      rw [if_neg hroom] at h
      split at h
      · cases h
      · rename_i value hread
        cases h
        refine .contents hbool (fun hzero => ?_) hfixed (Nat.not_lt.mp hroom)
          (decodeContents_ok hread)
        by_contra hne
        exact hnull ⟨hzero, hne⟩
  · rintro ⟨-, h⟩
    cases h with
    | boolean hnumber hlength =>
      have hnull : ¬(tag.number = AppTag.null ∧ tag.length ≠ 0) := by
        rw [hnumber]
        exact fun h => absurd h.1 (by decide)
      rw [if_neg hnull, if_neg (fun h => Nat.not_le.mpr h.2 hlength), if_pos hnumber]
    | contents hnumber hnull hfixed hroom hread =>
      rw [if_neg (fun h => h.2 (hnull h.1)), if_neg (fun h => hnumber h.1), if_neg hnumber, hfixed]
      dsimp only
      rw [if_neg (Nat.not_lt.mpr hroom), decodeContents_ok hread]

theorem check_of_decodeCharacterString {text : String}
    (h : decodeCharacterString contents = .ok text) : checkCharacterString contents = .ok () := by
  cases contents with
  | nil => exact nomatch h
  | cons charset payload =>
    unfold decodeCharacterString at h
    dsimp only at h
    split_ifs at h
    split at h
    · cases h
    · rename_i hcheck
      exact hcheck

theorem decodeApplicationValue_ok (htag : decodeTag data offset = .ok (tag, start))
    (hcls : tag.cls = .application) (h : decodeApplicationValue data offset = .ok (value, behind)) :
    ∃ ref, decodeApplicationPrimitive false data offset tag start = .ok (ref, behind) ∧
      ref.toPropertyValue = .ok value := by
  unfold decodeApplicationValue at h
  rw [htag] at h
  dsimp only at h
  rw [if_neg (by rw [hcls]; decide)] at h
  split at h
  · cases h
  · rename_i ref behind' hread
    split at h
    · cases h
    · rename_i value' hvalue
      cases h
      exact ⟨ref, hread, hvalue⟩

/-- The view accepts what the owned decoder accepts, with the same value and end. -/
theorem decodeApplicationValueRef_of_owned (htag : decodeTag data offset = .ok (tag, start))
    (hcls : tag.cls = .application) (h : decodeApplicationValue data offset = .ok (value, behind)) :
    ∃ ref, decodeApplicationValueRef data offset = .ok (ref, behind) ∧
      ref.toPropertyValue = .ok value := by
  obtain ⟨ref, hread, hvalue⟩ := decodeApplicationValue_ok htag hcls h
  refine ⟨ref, ?_, hvalue⟩
  have hview := (decodeApplicationPrimitive_iff true).mpr
    ((decodeApplicationPrimitive_iff false).mp hread)
  unfold decodeApplicationValueRef
  rw [htag]
  dsimp only
  rw [if_neg (by rw [hcls]; decide), hview]
  cases ref with
  | characterString contents =>
    have htext : (decodeCharacterString contents).map PropertyValue.characterString = .ok value :=
      hvalue
    cases hdecode : decodeCharacterString contents with
    | error refused =>
      rw [hdecode] at htext
      cases htext
    | ok text =>
      dsimp only
      rw [check_of_decodeCharacterString hdecode]
      rfl
  | _ => rfl

theorem decodeApplicationValueRef_ok (htag : decodeTag data offset = .ok (tag, start))
    (h : decodeApplicationValueRef data offset = .ok (ref, behind)) :
    decodeApplicationPrimitive true data offset tag start = .ok (ref, behind) := by
  unfold decodeApplicationValueRef at h
  rw [htag] at h
  dsimp only at h
  split_ifs at h
  split at h
  · cases h
  · rename_i contents behind' hread
    split at h
    · cases h
    · cases h
      exact hread
  · rename_i hread
    cases h
    exact hread

theorem PrimitiveRead.behind_eq (h : PrimitiveRead data offset start tag ref behind) :
    behind = if tag.number = AppTag.boolean then start else start + tag.length := by
  cases h with
  | boolean hnumber => rw [if_pos hnumber]
  | contents hnumber => rw [if_neg hnumber]

/-- Where the validator ends is where a primitive read at the same place ends. -/
theorem validate_behind {stop : ℕ} (htag : decodeTag data offset = .ok (tag, start))
    (hcls : tag.cls = .application) (hread : PrimitiveRead data offset start tag ref behind)
    (h : validateApplicationValue data offset = .ok stop) : stop = behind := by
  unfold validateApplicationValue at h
  rw [htag] at h
  dsimp only at h
  split_ifs at h with hframe hother hroom hsigned
  · -- The owned decoder decides.
    cases howned : decodeApplicationValue data offset with
    | error refused =>
      rw [howned] at h
      cases h
    | ok result =>
      obtain ⟨value, behind'⟩ := result
      rw [howned] at h
      cases h
      obtain ⟨ref', hread', -⟩ := decodeApplicationValue_ok htag hcls howned
      have hprimitive := ((decodeApplicationPrimitive_iff false).mp hread').2
      rw [hprimitive.behind_eq, hread.behind_eq]
  · split at h
    · cases h
    · cases h
      rw [hread.behind_eq, if_neg]
      rw [hsigned]
      decide
  · split at h
    · cases h
    · cases h
      have htext : tag.number = AppTag.characterString := by
        by_contra hne
        exact hother ⟨hne, hsigned⟩
      rw [hread.behind_eq, if_neg]
      rw [htext]
      decide

/-! ## The codec -/

/-- A list of values is read back from what was appended for it, whatever stands around it;
integers take the least contents that decode to them; and where an application tag starts the
three readers agree, the view reading whatever the owned decoder reads. -/
theorem application_value_codec :
    (∀ (before rest : List UInt8) (values : List PropertyValue),
      (∀ value ∈ values, value.Sendable) →
      ∃ octets, encodePropertyValues before values = (.ok (), before ++ octets) ∧
        ∀ turns, values.length ≤ turns →
          decodeApplicationValues (before ++ (octets ++ rest)) (before.length + octets.length) turns
            before.length = .ok (values, before.length + octets.length)) ∧
    (∀ value : UInt64,
      encodeAppUnsigned value
        = encodeTag AppTag.unsigned .application (encodeUnsigned value).length
          ++ encodeUnsigned value ∧
      ∀ octets, decodeUnsigned octets = .ok value →
        (encodeUnsigned value).length ≤ octets.length) ∧
    (∀ value : Int32,
      encodeAppSigned value
        = encodeTag AppTag.signed .application (encodeSigned value).length ++ encodeSigned value ∧
      ∀ octets, decodeSigned octets = .ok value → (encodeSigned value).length ≤ octets.length) ∧
    (∀ value : UInt32,
      encodeAppEnumerated value
        = encodeTag AppTag.enumerated .application (encodeEnumerated value).length
          ++ encodeEnumerated value ∧
      ∀ octets, decodeUnsigned octets = .ok value.toUInt64 →
        (encodeEnumerated value).length ≤ octets.length) ∧
    ∀ (data : List UInt8) (offset start : ℕ) (tag : Tag),
      decodeTag data offset = .ok (tag, start) → tag.cls = .application →
      (∀ value behind, decodeApplicationValue data offset = .ok (value, behind) →
        ∃ ref, decodeApplicationValueRef data offset = .ok (ref, behind) ∧
          ref.toPropertyValue = .ok value) ∧
      (∀ value behind stop, decodeApplicationValue data offset = .ok (value, behind) →
        validateApplicationValue data offset = .ok stop → stop = behind) ∧
      (∀ ref behind stop, decodeApplicationValueRef data offset = .ok (ref, behind) →
        validateApplicationValue data offset = .ok stop → stop = behind) := by
  refine ⟨?_, ?_, ?_, ?_, ?_⟩
  · intro before rest values h
    obtain ⟨octets, hencode, hdecode⟩ := roundTrip_list values h
    exact ⟨octets, hencode before, fun turns => hdecode ⟨before, rest, rfl, rfl⟩⟩
  · intro value
    rw [length_encodeUnsigned]
    exact ⟨rfl, fun octets => unsignedLen_le⟩
  · intro value
    rw [length_encodeSigned]
    exact ⟨rfl, fun octets => signedLen_le⟩
  · intro value
    have hlength : (encodeEnumerated value).length = unsignedLen value.toUInt64 := by
      rw [encodeEnumerated_eq, length_encodeUnsigned]
    rw [hlength]
    exact ⟨rfl, fun octets => unsignedLen_le⟩
  · intro data offset start tag htag hcls
    refine ⟨fun value behind => decodeApplicationValueRef_of_owned htag hcls, ?_, ?_⟩
    · intro value behind stop howned
      obtain ⟨ref, hread, -⟩ := decodeApplicationValue_ok htag hcls howned
      exact validate_behind htag hcls ((decodeApplicationPrimitive_iff false).mp hread).2
    · intro ref behind stop hview
      have hread := decodeApplicationValueRef_ok htag hview
      exact validate_behind htag hcls ((decodeApplicationPrimitive_iff true).mp hread).2

/-- An Unsigned 300, a Boolean and a text, with an octet before them and two behind. -/
theorem application_value_codec_three :
    ∃ octets, encodePropertyValues [0xAA] [.unsigned 300, .boolean true, .characterString "AV"]
        = (.ok (), [0xAA] ++ octets) ∧
      decodeApplicationValues ([0xAA] ++ (octets ++ [1, 2])) (1 + octets.length) 3 1
        = .ok ([.unsigned 300, .boolean true, .characterString "AV"], 1 + octets.length) := by
  obtain ⟨octets, hencode, hdecode⟩ := application_value_codec.1 [0xAA] [1, 2]
    [.unsigned 300, .boolean true, .characterString "AV"]
    (by
      intro value hmem
      simp only [List.mem_cons, List.not_mem_nil, or_false] at hmem
      rcases hmem with rfl | rfl | rfl
      · trivial
      · trivial
      · show 1 + (utf8Octets "AV").length ≤ 1048576
        decide)
  exact ⟨octets, hencode, hdecode 3 (by decide)⟩

end RustyBacnet.Encoding
