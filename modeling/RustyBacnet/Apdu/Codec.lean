import RustyBacnet.Apdu.Pdu
import RustyBacnet.Encoding.ValueCodec

/-!
# What an APDU decodes to

1. The first octets of each PDU are read back bit by bit (`confirmed_flags` and its likes).
2. A class or code is read where it was written (`decodeErrorField_of_at`), and behind an Error's
   header it is never taken for a formal body (`decodeFormalBody_plain`).
3. Every accepted APDU is read back in its normal form, and every header that is read without an
   allocator belongs to the APDU that is read with one (`apdu_codec`).
-/

namespace RustyBacnet.Encoding

open BigEndian Slices Fields

/-! ## Normal forms -/

/-- The segments a peer is told of: a power of two up to 64, or more than 64. -/
def flooredSegments : Option UInt8 → Option UInt8
  | none => none
  | some capacity =>
    if 64 < capacity then some 255 else some (UInt8.ofNat (2 ^ capacity.toNat.log2))

def whenSegmented (segmented : Bool) (field : Option UInt8) (unset : UInt8) : Option UInt8 :=
  if segmented then some (field.getD unset) else none

def Apdu.normalised : Apdu → Apdu
  | .confirmedRequest pdu => .confirmedRequest
      { pdu with
        maxSegments := flooredSegments pdu.maxSegments
        sequenceNumber := whenSegmented pdu.segmented pdu.sequenceNumber 0
        proposedWindowSize := whenSegmented pdu.segmented pdu.proposedWindowSize 1 }
  | .complexAck pdu => .complexAck
      { pdu with
        sequenceNumber := whenSegmented pdu.segmented pdu.sequenceNumber 0
        proposedWindowSize := whenSegmented pdu.segmented pdu.proposedWindowSize 1 }
  | apdu => apdu

/-- The APDU a header and the octets `rest` behind it belong to. The body of an Error is formal, or
its class and code and then its data. -/
def ApduHeader.Agrees (data rest : List UInt8) : ApduHeader → Apdu → Prop
  | .confirmedRequest header, .confirmedRequest pdu =>
    pdu.segmented = false ∧ pdu.sequenceNumber = none ∧ pdu.proposedWindowSize = none ∧
      pdu.segmentedResponseAccepted = header.segmentedResponseAccepted ∧
      pdu.maxSegments = header.maxSegments.count ∧ pdu.maxApduLength = header.maxApdu.octets ∧
      pdu.invokeId = header.invokeId ∧ pdu.serviceChoice = header.serviceChoice ∧
      pdu.serviceRequest = rest
  | .unconfirmedRequest serviceChoice, .unconfirmedRequest pdu => pdu = ⟨serviceChoice, rest⟩
  | .complexAck invokeId serviceChoice, .complexAck pdu =>
    pdu.segmented = false ∧ pdu.sequenceNumber = none ∧ pdu.proposedWindowSize = none ∧
      pdu.invokeId = invokeId ∧ pdu.serviceChoice = serviceChoice ∧ pdu.serviceAck = rest
  | .error invokeId serviceChoice, .error pdu =>
    pdu.invokeId = invokeId ∧ pdu.serviceChoice = serviceChoice ∧
      (decodeFormalBody serviceChoice rest = .ok (some (pdu.errorClass, pdu.errorCode)) ∧
          pdu.errorData = rest ∨
        decodeFormalBody serviceChoice rest = .ok none ∧ ∃ pair, rest = pair ++ pdu.errorData ∧
          decodeErrorPair data 3 = .ok ((pdu.errorClass, pdu.errorCode), 3 + pair.length))
  | .reject invokeId reason, .reject pdu => pdu = ⟨invokeId, reason⟩
  | .abort server invokeId reason, .abort pdu => pdu = ⟨server, invokeId, reason⟩
  | _, _ => False

/-! ## First octets -/

theorem confirmed_flags (segmented more accepted : Bool) :
    let byte0 := PduType.confirmedRequest <<< 4 ||| flag segmented 0x08 ||| flag more 0x04
      ||| flag accepted 0x02
    (byte0 >>> 4) &&& 0x0F = PduType.confirmedRequest ∧ (byte0 &&& 0x08 != 0) = segmented ∧
      (byte0 &&& 0x04 != 0) = more ∧ (byte0 &&& 0x02 != 0) = accepted := by
  revert segmented more accepted
  decide

theorem complex_flags (segmented more : Bool) :
    let byte0 := PduType.complexAck <<< 4 ||| flag segmented 0x08 ||| flag more 0x04
    (byte0 >>> 4) &&& 0x0F = PduType.complexAck ∧ (byte0 &&& 0x08 != 0) = segmented ∧
      (byte0 &&& 0x04 != 0) = more := by
  revert segmented more
  decide

theorem segment_flags (negative server : Bool) :
    let byte0 := PduType.segmentAck <<< 4 ||| flag negative 0x02 ||| flag server 0x01
    (byte0 >>> 4) &&& 0x0F = PduType.segmentAck ∧ (byte0 &&& 0x02 != 0) = negative ∧
      (byte0 &&& 0x01 != 0) = server := by
  revert negative server
  decide

theorem abort_flags (server : Bool) :
    let byte0 := PduType.abort <<< 4 ||| flag server 0x01
    (byte0 >>> 4) &&& 0x0F = PduType.abort ∧ (byte0 &&& 0x01 != 0) = server := by
  revert server
  decide

theorem limit_fields (segments : Fin 8) (size : Fin 6) :
    let byte1 := (MaxSegments.mk segments).bits <<< 4 ||| (MaxApdu.mk size).bits
    MaxApdu.fromBits (byte1 &&& 0x0F) = some ⟨size⟩ ∧
      MaxSegments.fromBits ((byte1 >>> 4) &&& 0x07) = ⟨segments⟩ := by
  revert segments size
  decide +kernel

theorem count_of_capacity {capacity : Option UInt8} {field : MaxSegments}
    (h : MaxSegments.fromCapacity capacity = some field) :
    field.count = flooredSegments capacity := by
  have hall : ∀ n : Fin 256, (MaxSegments.fromCapacity (some (UInt8.ofNat n))).map (·.count)
      ≠ none → (MaxSegments.fromCapacity (some (UInt8.ofNat n))).map (·.count)
        = some (flooredSegments (some (UInt8.ofNat n))) := by
    decide +kernel
  cases capacity with
  | none =>
    cases h
    rfl
  | some capacity =>
    induction capacity using octet_cases with
    | octet n =>
      have hn := hall n
      rw [h] at hn
      exact Option.some.inj (hn (by simp))

theorem octets_of_fromOctets {octets : UInt16} {field : MaxApdu}
    (h : MaxApdu.fromOctets octets = some field) : field.octets = octets := by
  obtain ⟨code, hfind, rfl⟩ := Option.map_eq_some_iff.mp h
  have hfound := List.find?_some hfind
  exact eq_of_beq hfound

/-- The nibble of an octet needs no mask, and each limit field reads its own bits. -/
theorem octet_fields (octet : UInt8) :
    (octet >>> 4) &&& (0x0F : UInt8) = octet >>> 4 ∧
      MaxApdu.fromBits (octet &&& 0x0F) = MaxApdu.fromBits octet ∧
      MaxSegments.fromBits ((octet >>> 4) &&& 0x07) = MaxSegments.fromBits (octet >>> 4) := by
  induction octet using octet_cases with
  | octet n =>
    revert n
    decide +kernel

theorem segmentFields_cons (sequenceNumber window : Option UInt8) (service : UInt8)
    (parameters : List UInt8) :
    ∃ first rest, segmentFields sequenceNumber window ++ service :: parameters = first :: rest := by
  cases window with
  | none => exact ⟨_, _, rfl⟩
  | some window => exact ⟨_, _, rfl⟩

theorem decodeSegmentFields_encode {label : String} {segmented : Bool}
    {window windowSent : Option UInt8} (h : segmentWindow label segmented window = .ok windowSent)
    (sequenceNumber : Option UInt8) (short : Error) (service : UInt8) (parameters : List UInt8) :
    decodeSegmentFields segmented short
        (segmentFields sequenceNumber windowSent ++ service :: parameters)
      = .ok ((whenSegmented segmented sequenceNumber 0, whenSegmented segmented window 1),
          service, parameters) := by
  unfold segmentWindow validWindowSize at h
  cases segmented with
  | false =>
    cases h
    rfl
  | true =>
    rw [if_pos rfl] at h
    split_ifs at h <;> cases h
    rfl

/-! ## Formal bodies -/

theorem decodeTagNumber_behind {data : List UInt8} {pos behind : ℕ} {nibble number : UInt8}
    (h : decodeTagNumber data pos nibble = .ok (number, behind)) : pos ≤ behind := by
  unfold decodeTagNumber at h
  split at h
  · split at h
    · cases h
    · split_ifs at h
      cases h
      omega
  · cases h
    exact Nat.le_refl pos

theorem decodeTagLength_behind {data : List UInt8} {pos behind length : ℕ} {lvt : UInt8}
    (h : decodeTagLength data pos lvt = .ok (length, behind)) : pos ≤ behind := by
  unfold decodeTagLength at h
  dsimp only at h
  split at h
  · cases h
    exact Nat.le_refl pos
  split at h
  · cases h
  split at h
  · cases h
  split at h
  · cases h
    omega
  split at h
  all_goals
    split at h
    · split at h
      · cases h
      · cases h
        omega
    · cases h

variable {data : List UInt8} {offset behind : ℕ}

theorem decodeTag_behind {tag : Tag} (h : decodeTag data offset = .ok (tag, behind)) :
    offset < behind := by
  unfold decodeTag at h
  split at h
  · cases h
  rename_i initial hinitial
  dsimp only at h
  generalize (if (initial >>> 3) &&& 0x01 = 1 then TagClass.context else .application) = cls at h
  split at h
  · cases h
  split at h
  · cases h
  rename_i hnumber
  have hbehind := decodeTagNumber_behind hnumber
  split at h
  · cases h
    omega
  split at h
  · cases h
    omega
  split at h
  · cases h
  rename_i hlength
  have hlonger := decodeTagLength_behind hlength
  split at h
  · cases h
  · cases h
    omega

variable {number : UInt8} {value : List UInt8}

theorem extractContextValue_lt (h : extractContextValue data offset number = .ok (value, behind)) :
    offset < data.length := by
  unfold extractContextValue closeContext at h
  by_contra hend
  rw [if_pos (Nat.le_of_not_lt hend)] at h
  cases h

variable {what : String}

theorem decodeCtxConstructed_length
    (h : decodeCtxConstructed data offset number what = .ok (value, behind)) :
    offset + 2 ≤ data.length := by
  obtain ⟨content, hopening, hvalue⟩ := bind_ok h
  have hlt := extractContextValue_lt hvalue
  obtain ⟨⟨tag, pos⟩, htag, hopening⟩ := bind_ok hopening
  have hpos := decodeTag_behind htag
  dsimp only at hopening
  split at hopening
  · cases hopening
  · cases hopening
    omega

variable {pair : ErrorClass × ErrorCode}

theorem errorType_length (h : errorType data offset number what = .ok (pair, behind)) :
    offset + 2 ≤ data.length := by
  obtain ⟨⟨body, stop⟩, hframe, -⟩ := bind_ok h
  exact decodeCtxConstructed_length hframe

theorem decodeFormalBody_length {service : ConfirmedServiceChoice}
    (h : decodeFormalBody service data = .ok (some pair)) : 2 ≤ data.length := by
  unfold decodeFormalBody at h
  split at h
  · unfold subscribeCovPropertyMultiple at h
    split at h
    · obtain ⟨⟨pair, behind⟩, herror, -⟩ := bind_ok h
      have hlength := errorType_length herror
      omega
    split at h
    · cases h
    · obtain ⟨⟨body, behind⟩, hframe, -⟩ := bind_ok h
      have hlength := decodeCtxConstructed_length hframe
      omega
  · split at h
    · cases h
    split at h
    · cases h
    · obtain ⟨⟨pair, behind⟩, herror, -⟩ := bind_ok h
      have hlength := errorType_length herror
      omega

/-! ## Error classes and codes -/

theorem decodeTag_enumerated {value : UInt32} (h : At data offset (encodeAppEnumerated value)) :
    decodeTag data offset = .ok (⟨AppTag.enumerated, .application, unsignedLen value.toUInt64,
      false, false⟩, offset + (encodeTag AppTag.enumerated .application
        (unsignedLen value.toUInt64)).length) :=
  decodeTag_encodeTag (by decide) (unsignedLen_le_max _) (at_append.mp h).1

/-- A class or code is read where it was written. -/
theorem decodeErrorField_of_at {value : UInt16} (misplaced exceeds : String)
    (h : At data offset (encodeAppEnumerated value.toUInt32)) :
    decodeErrorField data offset misplaced exceeds
      = .ok (value, offset + (encodeAppEnumerated value.toUInt32).length) := by
  obtain ⟨-, hat⟩ := at_append.mp h
  have hlength : (encodeEnumerated value.toUInt32).length
      = unsignedLen value.toUInt32.toUInt64 := by
    rw [encodeEnumerated_eq, length_encodeUnsigned]
  have hbound := hat.bound
  have hslice := hat.slice_eq
  rw [hlength] at hbound hslice
  have hcontents : contents data (offset + (encodeTag AppTag.enumerated .application
      (unsignedLen value.toUInt32.toUInt64)).length) (unsignedLen value.toUInt32.toUInt64)
      = .ok (encodeEnumerated value.toUInt32,
          offset + (encodeAppEnumerated value.toUInt32).length) := by
    unfold contents
    rw [if_neg (Nat.not_lt.mpr hbound), hslice]
    unfold encodeAppEnumerated writeTagged
    rw [List.length_append, hlength, Nat.add_assoc]
  have hvalue : value.toUInt32.toUInt64.toNat = value.toNat := by
    rw [UInt32.toNat_toUInt64, UInt16.toNat_toUInt32]
  have hsmall : ¬65535 < value.toUInt32.toUInt64.toNat := by
    rw [hvalue]
    exact Nat.not_lt.mpr (Nat.le_of_lt_succ value.toNat_lt)
  unfold decodeErrorField
  rw [decodeTag_enumerated h, ok_bind]
  dsimp only
  rw [if_neg (by decide), hcontents, ok_bind]
  rw [encodeEnumerated_eq, decodeUnsigned_encode, ok_bind, if_neg hsmall, hvalue,
    UInt16.ofNat_toNat]
  rfl

theorem decodeFormalBody_plain (service : ConfirmedServiceChoice) (value : UInt32)
    (behind : List UInt8) :
    decodeFormalBody service (encodeAppEnumerated value ++ behind) = .ok none := by
  have hat : At (encodeAppEnumerated value ++ behind) 0 (encodeAppEnumerated value) :=
    (at_append.mp (at_zero _)).1
  apply decodeFormalBody_none
  all_goals
    unfold opensWith
    rw [decodeTag_enumerated hat]
    rfl

theorem decodeErrorPair_of_at {errorClass : ErrorClass} {errorCode : ErrorCode}
    (h : At data offset (encodeAppEnumerated errorClass.raw.toUInt32
      ++ encodeAppEnumerated errorCode.raw.toUInt32)) :
    decodeErrorPair data offset = .ok ((errorClass, errorCode),
      offset + (encodeAppEnumerated errorClass.raw.toUInt32
        ++ encodeAppEnumerated errorCode.raw.toUInt32).length) := by
  obtain ⟨hclass, hcode⟩ := at_append.mp h
  unfold decodeErrorPair
  rw [decodeErrorField_of_at _ _ hclass, ok_bind]
  dsimp only
  rw [decodeErrorField_of_at _ _ hcode, List.length_append, Nat.add_assoc]
  rfl

theorem decodeErrorField_bound {misplaced exceeds : String} {value : UInt16}
    (h : decodeErrorField data offset misplaced exceeds = .ok (value, behind)) :
    offset < behind ∧ behind ≤ data.length := by
  obtain ⟨⟨tag, tagEnd⟩, htag, h⟩ := bind_ok h
  have hbehind := decodeTag_behind htag
  dsimp only at h
  split at h
  · cases h
  obtain ⟨⟨octets, fieldEnd⟩, hcontents, h⟩ := bind_ok h
  obtain ⟨raw, -, h⟩ := bind_ok h
  unfold contents at hcontents
  split at hcontents
  · cases hcontents
  cases hcontents
  split at h
  · cases h
  cases h
  omega

theorem decodeErrorPair_bound (h : decodeErrorPair data offset = .ok (pair, behind)) :
    offset ≤ behind ∧ behind ≤ data.length := by
  obtain ⟨⟨errorClass, between⟩, hclass, h⟩ := bind_ok h
  obtain ⟨⟨errorCode, stop⟩, hcode, h⟩ := bind_ok h
  have hfirst := decodeErrorField_bound hclass
  have hsecond := decodeErrorField_bound hcode
  cases h
  omega

theorem two_le_length_encodeAppEnumerated (value : UInt32) :
    2 ≤ (encodeAppEnumerated value).length := by
  obtain ⟨hpos, -⟩ := unsignedLen_spec value.toUInt64
  unfold encodeAppEnumerated writeTagged encodeTag
  rw [List.length_append, encodeEnumerated_eq, length_encodeUnsigned, List.length_cons]
  omega

/-! ## Whole APDUs -/

variable {byte0 : UInt8}

theorem decodeApdu_confirmedRequest {behind : List UInt8}
    (h : (byte0 >>> 4) &&& 0x0F = PduType.confirmedRequest) :
    decodeApdu (byte0 :: behind)
      = (decodeConfirmedRequest (byte0 :: behind)).map .confirmedRequest := by
  unfold decodeApdu
  dsimp only
  rw [h]
  rfl

theorem decodeApdu_complexAck {behind : List UInt8}
    (h : (byte0 >>> 4) &&& 0x0F = PduType.complexAck) :
    decodeApdu (byte0 :: behind) = (decodeComplexAck (byte0 :: behind)).map .complexAck := by
  unfold decodeApdu
  dsimp only
  rw [h]
  rfl

theorem decodeApdu_error {behind : List UInt8} (h : (byte0 >>> 4) &&& 0x0F = PduType.error) :
    decodeApdu (byte0 :: behind) = (decodeErrorPdu (byte0 :: behind)).map .error := by
  unfold decodeApdu
  dsimp only
  rw [h]
  rfl

theorem decodeApdu_abort {behind : List UInt8} (h : (byte0 >>> 4) &&& 0x0F = PduType.abort) :
    decodeApdu (byte0 :: behind) = (decodeAbort (byte0 :: behind)).map .abort := by
  unfold decodeApdu
  dsimp only
  rw [h]
  rfl

/-- What encoding an APDU does: refuse it and leave the octets, or append what reads back. -/
def Encodes (buf : List UInt8) (apdu expected : Apdu) : Prop :=
  (∃ refused, encodeApdu buf apdu = (.error refused, buf)) ∨
    ∃ octets, encodeApdu buf apdu = (.ok (), buf ++ octets) ∧ decodeApdu octets = .ok expected

variable (buf : List UInt8)

theorem confirmedRequest_encodes (pdu : ConfirmedRequest) :
    Encodes buf (.confirmedRequest pdu) (Apdu.normalised (.confirmedRequest pdu)) := by
  unfold Encodes encodeApdu
  dsimp only
  unfold encodeConfirmedRequest encodeMaxSegments encodeMaxApdu
  cases hsegments : MaxSegments.fromCapacity pdu.maxSegments with
  | none => exact .inl ⟨_, rfl⟩
  | some segments =>
    dsimp only
    cases hsize : MaxApdu.fromOctets pdu.maxApduLength with
    | none => exact .inl ⟨_, rfl⟩
    | some size =>
      dsimp only
      split
      · exact .inl ⟨_, rfl⟩
      · rename_i window hwindow
        refine .inr ⟨_, rfl, ?_⟩
        obtain ⟨htype, hsegmented, hmore, haccepted⟩ :=
          confirmed_flags pdu.segmented pdu.moreFollows pdu.segmentedResponseAccepted
        obtain ⟨hsizeRead, hsegmentsRead⟩ := limit_fields segments.code size.code
        have hbehind := decodeSegmentFields_encode hwindow pdu.sequenceNumber
          (.decodingAt 3 "segmented ConfirmedRequest too short for sequence/window fields")
          pdu.serviceChoice.raw pdu.serviceRequest
        rw [decodeApdu_confirmedRequest htype]
        obtain ⟨fourth, rest, hrest⟩ :=
          segmentFields_cons pdu.sequenceNumber window pdu.serviceChoice.raw pdu.serviceRequest
        rw [hrest] at hbehind ⊢
        unfold decodeConfirmedRequest decodeMaxApdu
        dsimp only
        rw [hsizeRead, hsegmented, hmore, haccepted, hsegmentsRead]
        rw [ok_bind, hbehind, ok_bind]
        rw [count_of_capacity hsegments, octets_of_fromOctets hsize]
        rfl

theorem complexAck_encodes (pdu : ComplexAck) :
    Encodes buf (.complexAck pdu) (Apdu.normalised (.complexAck pdu)) := by
  unfold Encodes encodeApdu
  dsimp only
  unfold encodeComplexAck
  split
  · exact .inl ⟨_, rfl⟩
  · rename_i window hwindow
    refine .inr ⟨_, rfl, ?_⟩
    obtain ⟨htype, hsegmented, hmore⟩ := complex_flags pdu.segmented pdu.moreFollows
    have hbehind := decodeSegmentFields_encode hwindow pdu.sequenceNumber
      (.decodingAt 2 "segmented ComplexAck too short for sequence/window fields")
      pdu.serviceChoice.raw pdu.serviceAck
    rw [decodeApdu_complexAck htype]
    obtain ⟨third, rest, hrest⟩ :=
      segmentFields_cons pdu.sequenceNumber window pdu.serviceChoice.raw pdu.serviceAck
    rw [hrest] at hbehind ⊢
    unfold decodeComplexAck
    dsimp only
    rw [hsegmented, hmore, hbehind, ok_bind]
    rfl

theorem segmentAck_encodes (pdu : SegmentAck) :
    Encodes buf (.segmentAck pdu) (.segmentAck pdu) := by
  unfold Encodes encodeApdu
  dsimp only
  unfold encodeSegmentAck validWindowSize
  by_cases hwindow : 1 ≤ pdu.actualWindowSize ∧ pdu.actualWindowSize ≤ 127
  · rw [if_pos hwindow]
    refine .inr ⟨_, rfl, ?_⟩
    obtain ⟨htype, hnegative, hserver⟩ := segment_flags pdu.negativeAck pdu.sentByServer
    have hvalid : ¬(pdu.actualWindowSize = 0 ∨ 127 < pdu.actualWindowSize) := by
      rintro (hzero | hlarge)
      · rw [hzero] at hwindow
        exact absurd hwindow.1 (by decide)
      · exact UInt8.not_lt.mpr hwindow.2 hlarge
    unfold decodeApdu
    dsimp only
    rw [htype]
    show (decodeSegmentAck _).map _ = _
    unfold decodeSegmentAck
    dsimp only
    rw [if_neg hvalid, hnegative, hserver]
    rfl
  · rw [if_neg hwindow]
    exact .inl ⟨_, rfl⟩

/-- An Error's class, code and data are read back whatever the data is. -/
theorem error_encodes (pdu : ErrorPdu) : Encodes buf (.error pdu) (.error pdu) := by
  unfold Encodes encodeApdu
  dsimp only
  unfold encodeErrorPdu
  cases hformal : formalPair pdu with
  | some pair =>
    obtain ⟨errorClass, errorCode⟩ := pair
    dsimp only
    split
    · exact .inl ⟨_, rfl⟩
    · rename_i hagree
      obtain ⟨rfl, rfl⟩ := not_or.mp hagree |>.imp not_not.mp not_not.mp
      refine .inr ⟨_, rfl, ?_⟩
      have hread : decodeFormalBody pdu.serviceChoice pdu.errorData
          = .ok (some (pdu.errorClass, pdu.errorCode)) := by
        unfold formalPair at hformal
        split at hformal
        · rename_i formal hbody
          rw [hbody, hformal]
        · cases hformal
      have hlength := decodeFormalBody_length hread
      rw [List.cons_append, decodeApdu_error (by rfl)]
      unfold decodeErrorPdu
      simp only [List.cons_append, List.nil_append, List.length_cons]
      rw [if_neg (by omega), hread, ok_bind]
      rfl
  | none =>
    refine .inr ⟨_, rfl, ?_⟩
    have hread := decodeFormalBody_plain pdu.serviceChoice pdu.errorClass.raw.toUInt32
      (encodeAppEnumerated pdu.errorCode.raw.toUInt32 ++ pdu.errorData)
    set pair := encodeAppEnumerated pdu.errorClass.raw.toUInt32
      ++ encodeAppEnumerated pdu.errorCode.raw.toUInt32 with hpair
    set data := [PduType.error <<< 4, pdu.invokeId, pdu.serviceChoice.raw] ++
      (encodeAppEnumerated pdu.errorClass.raw.toUInt32 ++
        (encodeAppEnumerated pdu.errorCode.raw.toUInt32 ++ pdu.errorData)) with hdata
    have hat : At data 3 pair :=
      ⟨[PduType.error <<< 4, pdu.invokeId, pdu.serviceChoice.raw], pdu.errorData,
        by rw [hdata, hpair, List.append_assoc], rfl⟩
    have hdrop : data.drop (3 + pair.length) = pdu.errorData := by
      rw [hdata, ← List.append_assoc (encodeAppEnumerated _), ← List.append_assoc [_, _, _], ← hpair]
      exact List.drop_left' (by rw [List.length_append]; rfl)
    have hlong : ¬data.length < 5 := by
      have hclass := two_le_length_encodeAppEnumerated pdu.errorClass.raw.toUInt32
      have hbound := hat.bound
      rw [hpair, List.length_append] at hbound
      omega
    rw [hdata, List.cons_append, decodeApdu_error (by rfl)]
    unfold decodeErrorPdu
    simp only [List.cons_append, List.nil_append]
    rw [List.cons_append, List.cons_append, List.cons_append, List.nil_append] at hdata
    rw [← hdata, if_neg hlong, hread, ok_bind]
    rw [decodeErrorPair_of_at hat, ok_bind]
    rw [← hpair, hdrop]
    rfl

/-! ## Headers -/

/-- An Error's body is what its header leaves. -/
theorem errorHeader_agrees {invokeId service : UInt8} {body : List UInt8}
    (h : (byte0 >>> 4) &&& 0x0F = PduType.error) :
    (∃ apdu, decodeApdu (byte0 :: invokeId :: service :: body) = .ok apdu ∧
        (ApduHeader.error invokeId ⟨service⟩).Agrees (byte0 :: invokeId :: service :: body) body
          apdu) ∨
      (∃ invokeId' service', ApduHeader.error invokeId ⟨service⟩ = .error invokeId' service') ∧
        ∃ refused, decodeApdu (byte0 :: invokeId :: service :: body) = .error refused := by
  rw [decodeApdu_error h]
  cases hread : decodeErrorPdu (byte0 :: invokeId :: service :: body) with
  | error refused => exact .inr ⟨⟨_, _, rfl⟩, refused, rfl⟩
  | ok pdu =>
    refine .inl ⟨.error pdu, rfl, ?_⟩
    unfold decodeErrorPdu at hread
    dsimp only at hread
    split at hread
    · cases hread
    obtain ⟨formal, hformal, hread⟩ := bind_ok hread
    cases formal with
    | some pair =>
      cases hread
      exact ⟨rfl, rfl, .inl ⟨hformal, rfl⟩⟩
    | none =>
      obtain ⟨⟨⟨errorClass, errorCode⟩, behind⟩, hpair, hread⟩ := bind_ok hread
      obtain ⟨hlow, hhigh⟩ := decodeErrorPair_bound hpair
      cases hread
      have hlength : (body.take (behind - 3)).length = behind - 3 := by
        rw [List.length_cons, List.length_cons, List.length_cons] at hhigh
        exact List.length_take_of_le (by omega)
      have hdrop : (byte0 :: invokeId :: service :: body).drop behind = body.drop (behind - 3) := by
        obtain ⟨more, rfl⟩ := Nat.exists_eq_add_of_le' hlow
        rfl
      refine ⟨rfl, rfl, .inr ⟨hformal, body.take (behind - 3), ?_, ?_⟩⟩
      · rw [hdrop, List.take_append_drop]
      · rw [hlength, hpair, Nat.add_sub_cancel' hlow]

theorem apduHeader_agrees {rest : List UInt8} {header : ApduHeader}
    (h : ApduHeader.decode data = .ok (header, rest)) :
    (∃ apdu, decodeApdu data = .ok apdu ∧ header.Agrees data rest apdu) ∨
      (∃ invokeId service, header = .error invokeId service) ∧
        ∃ refused, decodeApdu data = .error refused := by
  unfold ApduHeader.decode at h
  split at h
  · cases h
  rename_i byte0 behind
  obtain ⟨hnibble, -, -⟩ := octet_fields byte0
  dsimp only at h
  split at h
  · rename_i htype
    split at h
    · rename_i fields invokeId service parameters
      obtain ⟨-, hsize, hsegments⟩ := octet_fields fields
      split at h
      · cases h
      rename_i size hfield
      split at h
      · cases h
      rename_i hunsegmented
      cases h
      have hread : decodeApdu (byte0 :: fields :: invokeId :: service :: rest)
          = .ok (.confirmedRequest ⟨byte0 &&& 0x08 != 0, byte0 &&& 0x04 != 0, byte0 &&& 0x02 != 0,
            (MaxSegments.fromBits (fields >>> 4)).count, size.octets, invokeId, none, none,
            ⟨service⟩, rest⟩) := by
        rw [decodeApdu_confirmedRequest (hnibble.trans htype)]
        unfold decodeConfirmedRequest decodeMaxApdu
        dsimp only
        rw [hsize, hfield, hsegments]
        dsimp only
        rw [ok_bind]
        unfold decodeSegmentFields
        rw [if_neg hunsegmented]
        rfl
      exact .inl ⟨_, hread, Bool.eq_false_of_not_eq_true hunsegmented, rfl, rfl, rfl, rfl, rfl,
        rfl, rfl, rfl⟩
    · cases h
  split at h
  · rename_i htype
    split at h
    · cases h
      refine .inl ⟨.unconfirmedRequest _, ?_, rfl⟩
      unfold decodeApdu
      dsimp only
      rw [hnibble, htype]
      rfl
    · cases h
  split at h
  · rename_i htype
    split at h
    · rename_i invokeId service parameters
      split at h
      · cases h
      rename_i hunsegmented
      cases h
      have hread : decodeApdu (byte0 :: invokeId :: service :: rest)
          = .ok (.complexAck ⟨byte0 &&& 0x08 != 0, byte0 &&& 0x04 != 0, invokeId, none, none,
            ⟨service⟩, rest⟩) := by
        rw [decodeApdu_complexAck (hnibble.trans htype)]
        unfold decodeComplexAck decodeSegmentFields
        dsimp only
        rw [if_neg hunsegmented]
        rfl
      exact .inl ⟨_, hread, Bool.eq_false_of_not_eq_true hunsegmented, rfl, rfl, rfl, rfl, rfl⟩
    · cases h
  split at h
  · rename_i hthree
    split at h
    · rename_i invokeId third parameters
      split at h
      · rename_i htype
        cases h
        exact errorHeader_agrees (hnibble.trans htype)
      · rename_i hnotError
        split at h
        · rename_i htype
          cases h
          refine .inl ⟨.reject _, ?_, rfl⟩
          unfold decodeApdu
          dsimp only
          rw [hnibble, htype]
          rfl
        · rename_i hnotReject
          have htype := (hthree.resolve_left hnotError).resolve_left hnotReject
          cases h
          refine .inl ⟨.abort _, ?_, rfl⟩
          rw [decodeApdu_abort (hnibble.trans htype)]
          rfl
    · cases h
  split at h
  · cases h
  · cases h

/-- The APDU codec: a refused APDU leaves the octets as they were and an accepted one is read back in
its normal form, an Error as it is; a header read alone is the header of the APDU, which is refused
only as an Error. -/
theorem apdu_codec :
    (∀ (buf : List UInt8) (apdu : Apdu), Encodes buf apdu apdu.normalised) ∧
      (∀ (buf : List UInt8) (pdu : ErrorPdu), Encodes buf (.error pdu) (.error pdu)) ∧
      ∀ (data rest : List UInt8) (header : ApduHeader),
        ApduHeader.decode data = .ok (header, rest) →
          (∃ apdu, decodeApdu data = .ok apdu ∧ header.Agrees data rest apdu) ∨
            (∃ invokeId service, header = .error invokeId service) ∧
              ∃ refused, decodeApdu data = .error refused := by
  refine ⟨fun buf apdu => ?_, error_encodes, fun data rest header => apduHeader_agrees⟩
  cases apdu with
  | confirmedRequest pdu => exact confirmedRequest_encodes buf pdu
  | unconfirmedRequest pdu => exact .inr ⟨_, rfl, rfl⟩
  | simpleAck pdu => exact .inr ⟨_, rfl, rfl⟩
  | complexAck pdu => exact complexAck_encodes buf pdu
  | segmentAck pdu => exact segmentAck_encodes buf pdu
  | error pdu => exact error_encodes buf pdu
  | reject pdu => exact .inr ⟨_, rfl, rfl⟩
  | abort pdu =>
    obtain ⟨htype, hserver⟩ := abort_flags pdu.sentByServer
    refine .inr ⟨_, rfl, ?_⟩
    rw [decodeApdu_abort htype]
    unfold decodeAbort
    dsimp only
    rw [hserver]
    rfl

/-- An Error of WritePropertyMultiple whose data is a truncated frame, and the header of a
ReadProperty request. -/
theorem apdu_codec_truncated :
    Encodes [] (.error ⟨1, .writePropertyMultiple, ⟨2⟩, ⟨32⟩, [0x0E]⟩)
        (.error ⟨1, .writePropertyMultiple, ⟨2⟩, ⟨32⟩, [0x0E]⟩) ∧
      ∃ apdu, decodeApdu [0x02, 0x05, 0x01, 0x0C, 0x0E] = .ok apdu ∧
        (ApduHeader.confirmedRequest ⟨true, ⟨0⟩, ⟨5⟩, 1, ⟨12⟩⟩).Agrees
          [0x02, 0x05, 0x01, 0x0C, 0x0E] [0x0E] apdu := by
  refine ⟨apdu_codec.2.1 _ _, ?_⟩
  rcases apdu_codec.2.2 [0x02, 0x05, 0x01, 0x0C, 0x0E] [0x0E]
    (.confirmedRequest ⟨true, ⟨0⟩, ⟨5⟩, 1, ⟨12⟩⟩) (by decide) with hread | ⟨⟨_, _, herror⟩, -⟩
  · exact hread
  · cases herror

end RustyBacnet.Encoding
