import RustyBacnet.Mstp.Frame

/-!
# Decoding one frame

`decode.rs`: the header checks, the checks on a whole frame, and decoding over the input. The
round trip `decodeFrameInPlace_encoding` holds whatever follows the frame on the wire.
-/

namespace RustyBacnet.Mstp

/-- A header that passed its CRC and its checks. -/
structure GoodHeader where
  header : FrameHeader
  length : ℕ
  deriving DecidableEq

/-- A whole valid frame at the start of some input. -/
structure ValidFrame where
  header : FrameHeader
  dataLength : ℕ
  consumed : ℕ
  deriving DecidableEq

/-- `u16::from_be_bytes`, as a length. -/
def u16FromBe (hi lo : UInt8) : ℕ := 256 * hi.toNat + lo.toNat

/-- Check the preamble and the header at the start of `input`. With `reservedCobs`, a reserved
COBS type whose header passes is accepted. -/
def checkHeader (input : List UInt8) (reservedCobs : Bool) : Except FrameError GoodHeader :=
  if input.length < dataOffset then .error (.tooShort dataOffset input.length)
  else if input.take preamble.length ≠ preamble then
    .error (.invalidPreamble (input.getD 0 0) (input.getD 1 0))
  else if ¬crc8Valid ((input.take dataOffset).drop preamble.length) then
    .error .headerCrcMismatch
  else
    let frameType : FrameType := ⟨input.getD 2 0⟩
    let destination := input.getD 3 0
    let source := input.getD 4 0
    let length := u16FromBe (input.getD 5 0) (input.getD 6 0)
    let good : GoodHeader := ⟨⟨frameType, destination, source⟩, length⟩
    match checkHeaderFields frameType source length with
    | .error (.unsupportedCobsFrame rawType) =>
      if reservedCobs then .ok good else .error (.unsupportedCobsFrame rawType)
    | .error e => .error e
    | .ok () => .ok good

/-- The verdict on a body whose header declares `length`: the length of its data. -/
def checkBody (frameType : FrameType) (length : ℕ) (body : List UInt8) : Except FrameError ℕ :=
  if frameType.isCobs then
    match checkFields body with
    | none => .error (.dataCrcMismatch length)
    | some dataLength => .ok dataLength
  else if length ≠ 0 ∧ ¬crc16Valid body then .error (.dataCrcMismatch length)
  else .ok length

/-- Check the whole frame at the start of `input`. -/
def checkFrame (input : List UInt8) (reservedCobs : Bool) : Except FrameError ValidFrame :=
  match checkHeader input reservedCobs with
  | .error e => .error e
  | .ok good =>
    let consumed := wireLength good.length
    if input.length < consumed then
      .error (.truncated good.length (input.length - dataOffset))
    else
      match checkBody good.header.frameType good.length
          ((input.take consumed).drop dataOffset) with
      | .error e => .error e
      | .ok dataLength => .ok ⟨good.header, dataLength, consumed⟩

/-- Decode the COBS-encoded frame that `checkFrame` accepted over itself. -/
def decodeExtendedInPlace (input : List UInt8) (valid : ValidFrame) : List UInt8 :=
  if valid.header.frameType.isCobs then
    input.take dataOffset
      ++ (decodeDataInPlace ((input.take valid.consumed).drop dataOffset)).1
      ++ input.drop valid.consumed
  else input

/-- Decode one frame of any supported type, with the octets `input` then holds. -/
def decodeFrameInPlace (input : List UInt8) : Except FrameError (Frame × ℕ) × List UInt8 :=
  match checkFrame input false with
  | .error e => (.error e, input)
  | .ok valid =>
    let input := decodeExtendedInPlace input valid
    (.ok (⟨valid.header, (input.drop dataOffset).take valid.dataLength⟩, valid.consumed), input)

/-- A frame of a standard type carries no more than 501 octets. -/
def Frame.Bounded (frame : Frame) : Prop :=
  frame.header.frameType.isCobs = false → frame.data.length ≤ maxStandardMpduData

theorem checkHeaderFields_standard {frameType : FrameType} (hcobs : frameType.isCobs = false)
    (source : UInt8) (length : ℕ) :
    checkHeaderFields frameType source length = .error .broadcastSource ∨
      checkHeaderFields frameType source length = .error (.oversize length maxStandardMpduData) ∨
      (checkHeaderFields frameType source length = .ok () ∧ length ≤ maxStandardMpduData) := by
  unfold checkHeaderFields
  simp only [hcobs, Bool.false_eq_true, if_false]
  split_ifs with _ hlong
  · exact .inl rfl
  · exact .inr (.inl rfl)
  · exact .inr (.inr ⟨rfl, Nat.not_lt.mp hlong⟩)

variable {reservedCobs : Bool} {input : List UInt8}

theorem checkHeader_length {good : GoodHeader} (h : checkHeader input reservedCobs = .ok good)
    (hcobs : good.header.frameType.isCobs = false) : good.length ≤ maxStandardMpduData := by
  have hgood : good = ⟨⟨⟨input.getD 2 0⟩, input.getD 3 0, input.getD 4 0⟩,
      u16FromBe (input.getD 5 0) (input.getD 6 0)⟩ := by
    unfold checkHeader at h
    split_ifs at h <;> dsimp only at h <;> split at h <;> first
      | exact (Except.ok.inj h).symm
      | exact absurd h (by simp)
  subst hgood
  unfold checkHeader at h
  rcases checkHeaderFields_standard hcobs (input.getD 4 0)
    (u16FromBe (input.getD 5 0) (input.getD 6 0)) with herror | herror | ⟨-, hle⟩
  · simp only [herror] at h
    split_ifs at h
  · simp only [herror] at h
    split_ifs at h
  · exact hle

theorem checkFrame_dataLength {valid : ValidFrame} (h : checkFrame input reservedCobs = .ok valid)
    (hcobs : valid.header.frameType.isCobs = false) : valid.dataLength ≤ maxStandardMpduData := by
  unfold checkFrame at h
  cases hheader : checkHeader input reservedCobs with
  | error e => simp [hheader] at h
  | ok good =>
    simp only [hheader] at h
    split_ifs at h
    cases hbody : checkBody good.header.frameType good.length
        ((input.take (wireLength good.length)).drop dataOffset) with
    | error e => simp [hbody] at h
    | ok dataLength =>
      simp only [hbody, Except.ok.injEq] at h
      subst h
      have hlength := checkHeader_length hheader hcobs
      unfold checkBody at hbody
      simp only [hcobs, Bool.false_eq_true, if_false] at hbody
      split_ifs at hbody
      rw [Except.ok.injEq] at hbody
      show dataLength ≤ maxStandardMpduData
      rw [← hbody]
      exact hlength

/-! ## The round trip -/

theorem dataOffset_le_wireLength (length : ℕ) : dataOffset ≤ wireLength length := by
  unfold wireLength
  split_ifs <;> omega

theorem u16FromBe_ofNat {length : ℕ} (h : length < 65536) :
    u16FromBe (UInt8.ofNat (length / 256)) (UInt8.ofNat length) = length := by
  unfold u16FromBe
  simp only [UInt8.toNat_ofNat']
  omega

variable {frame : Frame}

theorem lengthField_lt
    (h : checkHeaderFields frame.header.frameType frame.header.source frame.lengthField = .ok ()) :
    frame.lengthField < 65536 := by
  obtain ⟨-, hlen⟩ := Frame.checkHeaderFields_ok.mp h
  unfold maxCobsLength maxStandardMpduData at hlen
  split_ifs at hlen <;> omega

theorem checkHeader_encoding
    (h : checkHeaderFields frame.header.frameType frame.header.source frame.lengthField = .ok ())
    (reservedCobs : Bool) (rest : List UInt8) :
    checkHeader (frame.encoding ++ rest) reservedCobs
      = .ok ⟨frame.header, frame.lengthField⟩ := by
  have hlen : ¬(frame.encoding ++ rest).length < dataOffset := by
    rw [List.length_append, frame.length_encoding]
    have := dataOffset_le_wireLength frame.lengthField
    omega
  have hcrc : crc8Valid (((frame.encoding ++ rest).take dataOffset).drop preamble.length)
      = true := crc8Valid_append (frame.headerFields frame.lengthField)
  unfold checkHeader
  rw [if_neg hlen, if_neg (by simp [Frame.encoding, Frame.head, preamble]), if_neg (by simp [hcrc])]
  have htype : (frame.encoding ++ rest).getD 2 0 = frame.header.frameType.raw := rfl
  have hdest : (frame.encoding ++ rest).getD 3 0 = frame.header.destination := rfl
  have hsource : (frame.encoding ++ rest).getD 4 0 = frame.header.source := rfl
  have hlength : u16FromBe ((frame.encoding ++ rest).getD 5 0) ((frame.encoding ++ rest).getD 6 0)
      = frame.lengthField := u16FromBe_ofNat (lengthField_lt h)
  simp only [htype, hdest, hsource, hlength, h]

theorem body_encoding (frame : Frame) (rest : List UInt8) :
    ((frame.encoding ++ rest).take (wireLength frame.lengthField)).drop dataOffset
      = frame.body := by
  rw [← frame.length_encoding, List.take_left, Frame.encoding,
    ← frame.length_head frame.lengthField, List.drop_left]

theorem checkBody_body (frame : Frame) :
    checkBody frame.header.frameType frame.lengthField frame.body = .ok frame.data.length := by
  unfold checkBody Frame.body Frame.lengthField
  by_cases hcobs : frame.header.frameType.isCobs = true
  · simp [hcobs, checkFields_fields]
  · by_cases hnil : frame.data = []
    · simp [hcobs, hnil]
    · simp [hcobs, hnil, crc16Valid_append hnil]

theorem checkFrame_encoding
    (h : checkHeaderFields frame.header.frameType frame.header.source frame.lengthField = .ok ())
    (reservedCobs : Bool) (rest : List UInt8) :
    checkFrame (frame.encoding ++ rest) reservedCobs
      = .ok ⟨frame.header, frame.data.length, wireLength frame.lengthField⟩ := by
  unfold checkFrame
  simp only [checkHeader_encoding h, body_encoding, checkBody_body]
  rw [if_neg]
  rw [List.length_append, frame.length_encoding]
  omega

theorem decodeExtendedInPlace_encoding (frame : Frame) (rest : List UInt8) :
    ((decodeExtendedInPlace (frame.encoding ++ rest)
        ⟨frame.header, frame.data.length, wireLength frame.lengthField⟩).drop dataOffset).take
          frame.data.length = frame.data := by
  have hhead : ((frame.encoding ++ rest).take dataOffset).length = dataOffset := by
    have := dataOffset_le_wireLength frame.lengthField
    rw [List.length_take, List.length_append, frame.length_encoding]
    omega
  unfold decodeExtendedInPlace
  by_cases hcobs : frame.header.frameType.isCobs = true
  · have hbody : frame.body = fields frame.data := if_pos hcobs
    have hlen : frame.data.length ≤ (decodeDataInPlace (fields frame.data)).1.length := by
      have := (stuffed_stuffs frame.data).length_gt
      rw [length_decodeDataInPlace, length_fields]
      omega
    rw [if_pos hcobs, body_encoding, hbody, List.append_assoc, List.drop_left' hhead,
      List.take_append_of_le_length hlen, decodeDataInPlace_fields]
  · rw [if_neg hcobs, Frame.encoding, List.append_assoc,
      ← frame.length_head frame.lengthField, List.drop_left]
    by_cases hnil : frame.data = []
    · simp [hnil]
    · simp [Frame.body, hcobs, hnil]

/-- A frame that passes the header checks comes back from its encoding, whatever follows it. -/
theorem decodeFrameInPlace_encoding
    (h : checkHeaderFields frame.header.frameType frame.header.source frame.lengthField = .ok ())
    (rest : List UInt8) :
    (decodeFrameInPlace (frame.encoding ++ rest)).1
      = .ok (frame, wireLength frame.lengthField) := by
  unfold decodeFrameInPlace
  simp only [checkFrame_encoding h, decodeExtendedInPlace_encoding]

end RustyBacnet.Mstp
