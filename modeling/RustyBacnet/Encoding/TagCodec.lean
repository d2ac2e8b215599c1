import RustyBacnet.Encoding.Tags
import RustyBacnet.Lib.Fields

/-!
# One header for each tag

Both directions between a header and its octets, field by field: the first octet, the tag number
behind it, the length behind that. A field that is read has one form only, the one the encoder
writes, so the octets of a header that is accepted are the encoding of the tag (`tags_canonical`).
-/

namespace RustyBacnet.Encoding

open BigEndian Slices Fields

theorem initial_parts (nibble : Fin 16) (cls : TagClass) (lvt : Fin 8) :
    let initial := UInt8.ofNat nibble <<< 4 ||| cls.raw <<< 3 ||| UInt8.ofNat lvt
    (if (initial >>> 3) &&& 0x01 = 1 then TagClass.context else .application) = cls ∧
      initial &&& 0x07 = UInt8.ofNat lvt ∧ (initial >>> 4) &&& 0x0F = UInt8.ofNat nibble := by
  revert nibble lvt
  cases cls <;> decide +kernel

theorem initial_eq (initial : UInt8) :
    initial = ((initial >>> 4) &&& 0x0F) <<< 4 |||
      (if (initial >>> 3) &&& 0x01 = 1 then TagClass.context else .application).raw <<< 3 |||
        initial &&& 0x07 ∧
      (initial >>> 4) &&& 0x0F ≤ 15 ∧ initial &&& 0x07 ≤ 7 := by
  induction initial using octet_cases with
  | octet n =>
    revert n
    decide +kernel

/-! ## The tag number -/

/-- The octets of a tag number the first octet does not hold. -/
def tagNumberOctets (number : UInt8) : List UInt8 := if 14 < number then [number] else []

def tagNibble (number : UInt8) : UInt8 := if number ≤ 14 then number else 0x0F

theorem tagNibble_le (number : UInt8) : tagNibble number ≤ 15 := by
  unfold tagNibble
  split_ifs with h
  · exact UInt8.le_trans h (by decide)
  · decide

variable {data : List UInt8} {number : UInt8} {next pos : ℕ}

theorem decodeTagNumber_iff {nibble : UInt8} (hpos : pos ≤ data.length) (hnibble : nibble ≤ 15) :
    decodeTagNumber data pos nibble = .ok (number, next) ↔
      nibble = tagNibble number ∧ number ≤ 254 ∧ At data pos (tagNumberOctets number) ∧
        next = pos + (tagNumberOctets number).length := by
  unfold decodeTagNumber tagNumberOctets tagNibble
  constructor
  · intro h
    split_ifs at h with hext
    · cases hat : data[pos]? with
      | none =>
        rw [hat] at h
        cases h
      | some octet =>
        rw [hat] at h
        dsimp only at h
        split_ifs at h with hrange
        obtain ⟨rfl, rfl⟩ := Prod.mk.inj (Except.ok.inj h)
        obtain ⟨hlow, hhigh⟩ := hrange
        have hnot : ¬ octet ≤ 14 := fun hle => absurd (UInt8.le_trans hlow hle) (by decide)
        rw [if_neg hnot, if_pos (UInt8.not_le.mp hnot)]
        exact ⟨hext, hhigh, at_singleton.mpr hat, rfl⟩
    · obtain ⟨rfl, rfl⟩ := Prod.mk.inj (Except.ok.inj h)
      have hle : nibble ≤ 14 := by
        rw [UInt8.le_iff_toNat_le] at hnibble ⊢
        have hne : nibble.toNat ≠ 15 := fun heq => hext (UInt8.toNat_inj.mp heq)
        change nibble.toNat ≤ 15 at hnibble
        show nibble.toNat ≤ 14
        omega
      rw [if_pos hle, if_neg (UInt8.not_lt.mpr hle)]
      exact ⟨rfl, UInt8.le_trans hle (by decide), at_nil hpos, rfl⟩
  · rintro ⟨rfl, hle, hat, rfl⟩
    by_cases hshort : number ≤ 14
    · have hne : number ≠ 0x0F := by
        rintro rfl
        exact absurd hshort (by decide)
      rw [if_pos hshort, if_neg (UInt8.not_lt.mpr hshort), if_neg hne]
      rfl
    · have hlt := UInt8.not_le.mp hshort
      rw [if_pos hlt] at hat
      have hlow : 15 ≤ number := by
        rw [UInt8.lt_iff_toNat_lt] at hlt
        rw [UInt8.le_iff_toNat_le]
        exact hlt
      rw [if_neg hshort, if_pos hlt, if_pos rfl, at_singleton.mp hat]
      dsimp only
      rw [if_neg (not_not_intro ⟨hlow, hle⟩)]
      rfl

/-! ## The length -/

def tagLvt (length : ℕ) : UInt8 := if length ≤ 4 then UInt8.ofNat length else 5

variable {length : ℕ} {lvt : UInt8}

/-- The length that follows a header is read back. -/
theorem decodeTagLength_of_at (hlvt : lvt = if length ≤ 4 then UInt8.ofNat length else 5)
    (hlength : length ≤ maxTagLength) (h : At data pos (tagLengthOctets length)) :
    decodeTagLength data pos lvt = .ok (length, pos + (tagLengthOctets length).length) := by
  have hmax : length ≤ 1048576 := hlength
  unfold decodeTagLength
  unfold tagLengthOctets at h ⊢
  by_cases hshort : length ≤ 4
  · have hvalue : (UInt8.ofNat length).toNat = length := by
      rw [UInt8.toNat_ofNat']
      omega
    have hlt : UInt8.ofNat length < 5 := by
      rw [UInt8.lt_iff_toNat_lt, hvalue]
      exact Nat.lt_succ_of_le hshort
    rw [hlvt, if_pos hshort, if_pos hlt, if_neg (by omega), hvalue]
    rfl
  · rw [hlvt, if_neg hshort, if_neg (by decide)]
    rw [if_pos (by omega)] at h ⊢
    by_cases hone : length ≤ 253
    · rw [if_pos hone] at h ⊢
      have hvalue : (UInt8.ofNat length).toNat = length := by
        rw [UInt8.toNat_ofNat']
        omega
      have hgt : ¬UInt8.ofNat length ≤ 4 := by
        rw [UInt8.le_iff_toNat_le, hvalue]
        exact hshort
      have hle : UInt8.ofNat length ≤ 253 := by
        rw [UInt8.le_iff_toNat_le, hvalue]
        exact hone
      rw [at_singleton.mp h]
      dsimp only
      rw [if_neg hgt, if_pos hle, hvalue]
      rfl
    · rw [if_neg hone] at h ⊢
      by_cases htwo : length ≤ 65535
      · rw [if_pos htwo] at h ⊢
        have hvalue : (UInt16.ofNat length).toNat = length := by
          rw [UInt16.toNat_ofNat']
          omega
        obtain ⟨hext, hrest⟩ := at_cons.mp h
        obtain ⟨hhigh, hlow⟩ := at_cons.mp hrest
        rw [at_singleton.mp hext, at_singleton.mp hhigh, at_singleton.mp hlow]
        dsimp only
        rw [if_neg (by decide), if_neg (by decide), if_pos rfl, ofBytes16_octets, hvalue,
          if_neg (by omega)]
        rfl
      · rw [if_neg htwo] at h ⊢
        have hvalue : (UInt32.ofNat length).toNat = length := by
          rw [UInt32.toNat_ofNat']
          omega
        obtain ⟨hext, hrest⟩ := at_cons.mp h
        obtain ⟨ha, hrest⟩ := at_cons.mp hrest
        obtain ⟨hb, hrest⟩ := at_cons.mp hrest
        obtain ⟨hc, hd⟩ := at_cons.mp hrest
        rw [at_singleton.mp hext, at_singleton.mp ha, at_singleton.mp hb, at_singleton.mp hc,
          at_singleton.mp hd]
        dsimp only
        rw [if_neg (by decide), if_neg (by decide), if_neg (by decide), ofBytes32_octets, hvalue,
          if_neg (by omega)]
        rfl

/-- A length that is read stands in its shortest form. -/
theorem decodeTagLength_ok (hpos : pos ≤ data.length) (hlvt : lvt ≤ 5)
    (h : decodeTagLength data pos lvt = .ok (length, next)) :
    lvt = tagLvt length ∧ At data pos (tagLengthOctets length) ∧
      next = pos + (tagLengthOctets length).length := by
  unfold decodeTagLength at h
  unfold tagLvt tagLengthOctets
  split_ifs at h with hshort
  · obtain ⟨rfl, rfl⟩ := Prod.mk.inj (Except.ok.inj h)
    have hle : lvt.toNat ≤ 4 := Nat.le_of_lt_succ (UInt8.lt_iff_toNat_lt.mp hshort)
    rw [if_pos hle, if_neg (Nat.not_lt.mpr hle)]
    exact ⟨UInt8.ofNat_toNat.symm, at_nil hpos, rfl⟩
  · have hfive : lvt = 5 := UInt8.le_antisymm hlvt (UInt8.not_lt.mp hshort)
    cases hext : data[pos]? with
    | none =>
      rw [hext] at h
      cases h
    | some ext =>
      rw [hext] at h
      dsimp only at h
      split_ifs at h with hlow hone htwo
      · obtain ⟨rfl, rfl⟩ := Prod.mk.inj (Except.ok.inj h)
        have hgt : 4 < ext.toNat := UInt8.lt_iff_toNat_lt.mp (UInt8.not_le.mp hlow)
        have hle : ext.toNat ≤ 253 := UInt8.le_iff_toNat_le.mp hone
        rw [if_neg (Nat.not_le.mpr hgt), if_pos hgt, if_pos hle, UInt8.ofNat_toNat]
        exact ⟨hfive, at_singleton.mpr hext, rfl⟩
      · rcases hhigh : data[pos + 1]? with _ | high
        · rw [hhigh] at h
          cases h
        rcases hlow : data[pos + 2]? with _ | low
        · rw [hhigh, hlow] at h
          cases h
        rw [hhigh, hlow] at h
        dsimp only at h
        split_ifs at h with hsmall
        obtain ⟨rfl, rfl⟩ := Prod.mk.inj (Except.ok.inj h)
        have hlt := (ofBytes16 high low).toNat_lt
        rw [if_neg (by omega), if_pos (by omega), if_neg (by omega), if_pos (by omega),
          UInt16.ofNat_toNat, toBytes16_ofBytes16]
        refine ⟨hfive, at_cons.mpr ⟨at_singleton.mpr ?_, at_cons.mpr ⟨at_singleton.mpr hhigh,
          at_singleton.mpr hlow⟩⟩, rfl⟩
        rw [hext, htwo]
      · rcases ha : data[pos + 1]? with _ | a
        · rw [ha] at h
          cases h
        rcases hb : data[pos + 2]? with _ | b
        · rw [ha, hb] at h
          cases h
        rcases hc : data[pos + 3]? with _ | c
        · rw [ha, hb, hc] at h
          cases h
        rcases hd : data[pos + 4]? with _ | d
        · rw [ha, hb, hc, hd] at h
          cases h
        rw [ha, hb, hc, hd] at h
        dsimp only at h
        split_ifs at h with hsmall
        obtain ⟨rfl, rfl⟩ := Prod.mk.inj (Except.ok.inj h)
        have hlast : ext = 255 := by
          rw [UInt8.le_iff_toNat_le] at hone
          change ¬ ext.toNat ≤ 253 at hone
          have hne : ext.toNat ≠ 254 := fun heq => htwo (UInt8.toNat_inj.mp heq)
          have := ext.toNat_lt
          exact UInt8.toNat_inj.mp (show ext.toNat = 255 by omega)
        rw [if_neg (by omega), if_pos (by omega), if_neg (by omega), if_neg (by omega),
          UInt32.ofNat_toNat, toBytes32_ofBytes32]
        refine ⟨hfive, at_cons.mpr ⟨at_singleton.mpr ?_, at_cons.mpr ⟨at_singleton.mpr ha,
          at_cons.mpr ⟨at_singleton.mpr hb, at_cons.mpr ⟨at_singleton.mpr hc,
            at_singleton.mpr hd⟩⟩⟩⟩, rfl⟩
        rw [hext, hlast]

/-! ## The header -/

theorem encodeTag_eq (number : UInt8) (cls : TagClass) (length : ℕ) :
    encodeTag number cls length = (tagNibble number <<< 4 ||| cls.raw <<< 3 ||| tagLvt length) ::
      (tagNumberOctets number ++ tagLengthOctets length) := by
  unfold encodeTag tagNibble tagLvt tagNumberOctets
  by_cases hle : number ≤ 14
  · rw [if_pos hle, if_pos hle]
  · rw [if_neg hle, if_neg hle]
    rfl

theorem encodeMarker_eq (number lvt : UInt8) :
    encodeMarker number (TagClass.context.raw <<< 3 ||| lvt)
      = (tagNibble number <<< 4 ||| TagClass.context.raw <<< 3 ||| lvt) ::
        tagNumberOctets number := by
  unfold encodeMarker tagNibble tagNumberOctets
  by_cases hle : number ≤ 14
  · rw [if_pos hle, if_pos hle, if_neg (UInt8.not_lt.mpr hle), UInt8.or_assoc]
  · rw [if_neg hle, if_neg hle, if_pos (UInt8.not_le.mp hle), UInt8.or_assoc]
    rfl

variable {offset : ℕ} {cls : TagClass}

/-- Reading a first octet that was put together. -/
theorem decodeTag_of_initial
    (hinitial : data[offset]? = some (tagNibble number <<< 4 ||| cls.raw <<< 3 ||| lvt))
    (hlvt : lvt ≤ 7) (hreserved : ¬ (cls = .application ∧ 5 < lvt)) (hnumber : number ≤ 254)
    (hnumberAt : At data (offset + 1) (tagNumberOctets number)) :
    decodeTag data offset =
      if cls = .context ∧ lvt = 6 then
        .ok (⟨number, cls, 0, true, false⟩, offset + 1 + (tagNumberOctets number).length)
      else if cls = .context ∧ lvt = 7 then
        .ok (⟨number, cls, 0, false, true⟩, offset + 1 + (tagNumberOctets number).length)
      else
        match decodeTagLength data (offset + 1 + (tagNumberOctets number).length) lvt with
        | .error refused => .error refused
        | .ok (length, pos) =>
          if maxTagLength < length then
            .error (.decoding ((DecodeError.new .overflow offset
              "tag length (\x7b\x7d) exceeds sanity limit (\x7b\x7d)").withValues
                length maxTagLength))
          else .ok (⟨number, cls, length, false, false⟩, pos) := by
  have hnibbleLt : (tagNibble number).toNat < 16 :=
    Nat.lt_succ_of_le (UInt8.le_iff_toNat_le.mp (tagNibble_le number))
  have hlvtLt : lvt.toNat < 8 := Nat.lt_succ_of_le (UInt8.le_iff_toNat_le.mp hlvt)
  obtain ⟨hcls, hbits, hnibble⟩ := initial_parts ⟨_, hnibbleLt⟩ cls ⟨_, hlvtLt⟩
  rw [UInt8.ofNat_toNat, UInt8.ofNat_toNat] at hcls hbits hnibble
  have hlt := (List.getElem?_eq_some_iff.mp hinitial).1
  have hread : decodeTagNumber data (offset + 1) (tagNibble number)
      = .ok (number, offset + 1 + (tagNumberOctets number).length) :=
    (decodeTagNumber_iff hlt (tagNibble_le number)).mpr ⟨rfl, hnumber, hnumberAt, rfl⟩
  unfold decodeTag
  rw [hinitial]
  dsimp only
  rw [hcls, hbits, hnibble, if_neg hreserved]
  generalize decodeTagNumber data (offset + 1) (tagNibble number) = read at hread ⊢
  subst hread
  rfl

/-- A header that was written is read where it stands. -/
theorem decodeTag_encodeTag (hnumber : number ≤ 254) (hlength : length ≤ maxTagLength)
    (h : At data offset (encodeTag number cls length)) :
    decodeTag data offset = .ok (⟨number, cls, length, false, false⟩,
      offset + (encodeTag number cls length).length) := by
  rw [encodeTag_eq] at h ⊢
  obtain ⟨hinitial, hrest⟩ := at_cons.mp h
  obtain ⟨hnumberAt, hlengthAt⟩ := at_append.mp hrest
  have hlvt : tagLvt length ≤ 5 := by
    unfold tagLvt
    split_ifs with hshort
    · rw [UInt8.le_iff_toNat_le, UInt8.toNat_ofNat']
      show length % 256 ≤ 5
      omega
    · decide
  have hsix : tagLvt length ≠ 6 ∧ tagLvt length ≠ 7 := by
    constructor
    · intro heq
      rw [heq] at hlvt
      exact absurd hlvt (by decide)
    · intro heq
      rw [heq] at hlvt
      exact absurd hlvt (by decide)
  rw [decodeTag_of_initial (at_singleton.mp hinitial) (UInt8.le_trans hlvt (by decide))
    (fun hc => absurd hc.2 (UInt8.not_lt.mpr hlvt)) hnumber hnumberAt,
    if_neg (fun hc => hsix.1 hc.2), if_neg (fun hc => hsix.2 hc.2),
    show decodeTagLength data _ (tagLvt length) = _ from
      decodeTagLength_of_at rfl hlength hlengthAt]
  dsimp only
  rw [if_neg (Nat.not_lt.mpr hlength), List.length_cons, List.length_append]
  congr 2
  omega

theorem decodeTag_encodeOpeningTag (hnumber : number ≤ 254)
    (h : At data offset (encodeOpeningTag number)) :
    decodeTag data offset = .ok (⟨number, .context, 0, true, false⟩,
      offset + (encodeOpeningTag number).length) := by
  have heq : encodeOpeningTag number = _ := encodeMarker_eq number 6
  rw [heq] at h ⊢
  obtain ⟨hinitial, hnumberAt⟩ := at_cons.mp h
  rw [decodeTag_of_initial (at_singleton.mp hinitial) (by decide) (by simp) hnumber hnumberAt,
    if_pos ⟨rfl, rfl⟩, List.length_cons]
  congr 2
  omega

theorem decodeTag_encodeClosingTag (hnumber : number ≤ 254)
    (h : At data offset (encodeClosingTag number)) :
    decodeTag data offset = .ok (⟨number, .context, 0, false, true⟩,
      offset + (encodeClosingTag number).length) := by
  have heq : encodeClosingTag number = _ := encodeMarker_eq number 7
  rw [heq] at h ⊢
  obtain ⟨hinitial, hnumberAt⟩ := at_cons.mp h
  rw [decodeTag_of_initial (at_singleton.mp hinitial) (by decide) (by simp) hnumber hnumberAt,
    if_neg (by decide), if_pos ⟨rfl, rfl⟩, List.length_cons]
  congr 2
  omega

/-- A tag that has a header. -/
inductive Tag.Valid : Tag → Prop
  | opening (number : UInt8) (h : number ≤ 254) : Tag.Valid ⟨number, .context, 0, true, false⟩
  | closing (number : UInt8) (h : number ≤ 254) : Tag.Valid ⟨number, .context, 0, false, true⟩
  | primitive (number : UInt8) (cls : TagClass) (length : ℕ) (h : number ≤ 254)
    (hlength : length ≤ maxTagLength) : Tag.Valid ⟨number, cls, length, false, false⟩

variable {tag : Tag}

/-- A header that is read stands in the encoder's form. -/
theorem decodeTag_ok (h : decodeTag data offset = .ok (tag, next)) :
    At data offset tag.encode ∧ next = offset + tag.encode.length ∧ tag.Valid := by
  unfold decodeTag at h
  cases hinitial : data[offset]? with
  | none =>
    rw [hinitial] at h
    cases h
  | some initial =>
    rw [hinitial] at h
    dsimp only at h
    obtain ⟨hparts, hnibble, hlvt⟩ := initial_eq initial
    have hlt := (List.getElem?_eq_some_iff.mp hinitial).1
    generalize (if (initial >>> 3) &&& 0x01 = 1 then TagClass.context else .application) = cls
      at h hparts
    generalize initial &&& 0x07 = lvt at h hparts hlvt
    generalize (initial >>> 4) &&& 0x0F = nibble at h hparts hnibble
    by_cases hreserved : cls = .application ∧ 5 < lvt
    · rw [if_pos hreserved] at h
      cases h
    rw [if_neg hreserved] at h
    cases hnumber : decodeTagNumber data (offset + 1) nibble with
    | error refused =>
      rw [hnumber] at h
      cases h
    | ok read =>
      obtain ⟨number, pos⟩ := read
      obtain ⟨rfl, hle, hat, rfl⟩ := (decodeTagNumber_iff hlt hnibble).mp hnumber
      rw [hnumber] at h
      dsimp only at h
      have hinitialAt := at_singleton.mpr (hinitial.trans (congrArg some hparts))
      by_cases hopening : cls = .context ∧ lvt = 6
      · rw [if_pos hopening] at h
        obtain ⟨rfl, rfl⟩ := hopening
        obtain ⟨rfl, rfl⟩ := Prod.mk.inj (Except.ok.inj h)
        have heq : Tag.encode ⟨number, .context, 0, true, false⟩ = _ := encodeMarker_eq number 6
        rw [heq]
        exact ⟨at_cons.mpr ⟨hinitialAt, hat⟩, by rw [List.length_cons]; omega, .opening number hle⟩
      rw [if_neg hopening] at h
      by_cases hclosing : cls = .context ∧ lvt = 7
      · rw [if_pos hclosing] at h
        obtain ⟨rfl, rfl⟩ := hclosing
        obtain ⟨rfl, rfl⟩ := Prod.mk.inj (Except.ok.inj h)
        have heq : Tag.encode ⟨number, .context, 0, false, true⟩ = _ := encodeMarker_eq number 7
        rw [heq]
        exact ⟨at_cons.mpr ⟨hinitialAt, hat⟩, by rw [List.length_cons]; omega, .closing number hle⟩
      · rw [if_neg hclosing] at h
        have hfive : lvt ≤ 5 := by
          refine UInt8.not_lt.mp fun hgt => ?_
          cases cls with
          | application => exact hreserved ⟨rfl, hgt⟩
          | context =>
            rw [UInt8.lt_iff_toNat_lt] at hgt
            rw [UInt8.le_iff_toNat_le] at hlvt
            change 5 < lvt.toNat at hgt
            change lvt.toNat ≤ 7 at hlvt
            have hsix : lvt.toNat ≠ 6 := fun heq => hopening ⟨rfl, UInt8.toNat_inj.mp heq⟩
            have hseven : lvt.toNat ≠ 7 := fun heq => hclosing ⟨rfl, UInt8.toNat_inj.mp heq⟩
            omega
        cases hlength : decodeTagLength data (offset + 1 + (tagNumberOctets number).length) lvt with
        | error refused =>
          rw [hlength] at h
          cases h
        | ok read =>
          obtain ⟨length, pos⟩ := read
          have hroom : offset + 1 + (tagNumberOctets number).length ≤ data.length := hat.bound
          obtain ⟨rfl, hlengthAt, rfl⟩ := decodeTagLength_ok hroom hfive hlength
          rw [hlength] at h
          dsimp only at h
          split_ifs at h with hlong
          obtain ⟨rfl, rfl⟩ := Prod.mk.inj (Except.ok.inj h)
          have heq : Tag.encode ⟨number, cls, length, false, false⟩ = _ := encodeTag_eq number cls length
          rw [heq]
          refine ⟨at_cons.mpr ⟨hinitialAt, at_append.mpr ⟨hat, hlengthAt⟩⟩, ?_,
            .primitive number cls length hle (Nat.not_lt.mp hlong)⟩
          rw [List.length_cons, List.length_append]
          omega

theorem Tag.encode_pos (tag : Tag) : 0 < tag.encode.length := by
  unfold Tag.encode encodeOpeningTag encodeClosingTag encodeMarker encodeTag
  split_ifs <;> simp

theorem decodeTag_iff :
    decodeTag data offset = .ok (tag, next) ↔
      tag.Valid ∧ At data offset tag.encode ∧ next = offset + tag.encode.length := by
  constructor
  · intro h
    obtain ⟨hat, hnext, hvalid⟩ := decodeTag_ok h
    exact ⟨hvalid, hat, hnext⟩
  · rintro ⟨hvalid, hat, rfl⟩
    cases hvalid with
    | opening number h => exact decodeTag_encodeOpeningTag h hat
    | closing number h => exact decodeTag_encodeClosingTag h hat
    | primitive number cls length h hlength => exact decodeTag_encodeTag h hlength hat

/-- Tag headers are canonical: every header the encoders write is read back whatever surrounds it,
and every header that is read is the one the encoder writes for its tag. -/
theorem tags_canonical :
    (∀ (before after : List UInt8) (number : UInt8), number ≤ 254 →
      (∀ cls length, length ≤ maxTagLength →
        decodeTag (before ++ encodeTag number cls length ++ after) before.length
          = .ok (⟨number, cls, length, false, false⟩,
              before.length + (encodeTag number cls length).length)) ∧
      decodeTag (before ++ encodeOpeningTag number ++ after) before.length
        = .ok (⟨number, .context, 0, true, false⟩,
            before.length + (encodeOpeningTag number).length) ∧
      decodeTag (before ++ encodeClosingTag number ++ after) before.length
        = .ok (⟨number, .context, 0, false, true⟩,
            before.length + (encodeClosingTag number).length)) ∧
    (∀ data offset tag next, decodeTag data offset = .ok (tag, next) →
      offset < next ∧ next ≤ data.length ∧ slice data offset (next - offset) = tag.encode) ∧
    (∀ data offset next data' offset' next' tag, decodeTag data offset = .ok (tag, next) →
      decodeTag data' offset' = .ok (tag, next') →
      slice data offset (next - offset) = slice data' offset' (next' - offset')) := by
  have hencoded : ∀ data offset tag next, decodeTag data offset = .ok (tag, next) →
      slice data offset (next - offset) = tag.encode := by
    intro data offset tag next h
    obtain ⟨-, hat, rfl⟩ := decodeTag_iff.mp h
    rw [Nat.add_sub_cancel_left]
    exact hat.slice_eq
  refine ⟨fun before after number hnumber => ⟨fun cls length hlength => ?_, ?_, ?_⟩, ?_, ?_⟩
  · exact decodeTag_encodeTag hnumber hlength ⟨before, after, List.append_assoc _ _ _, rfl⟩
  · exact decodeTag_encodeOpeningTag hnumber ⟨before, after, List.append_assoc _ _ _, rfl⟩
  · exact decodeTag_encodeClosingTag hnumber ⟨before, after, List.append_assoc _ _ _, rfl⟩
  · intro data offset tag next h
    obtain ⟨-, hat, hnext⟩ := decodeTag_iff.mp h
    have hpos := tag.encode_pos
    refine ⟨by omega, ?_, hencoded data offset tag next h⟩
    rw [hnext]
    exact hat.bound
  · intro data offset next data' offset' next' tag h h'
    rw [hencoded _ _ _ _ h, hencoded _ _ _ _ h']

end RustyBacnet.Encoding
