import RustyBacnet.Mstp.CobsRoundTrip

/-!
# Frames and their encoding

`frame.rs`: frame types, headers, the header checks both directions share, and `encode_to_sink`
with its checks and writes. `Frame.encoding` is the encoding in one list; `encodeInto_eq` says the
encoder writes exactly that, when the frame passes its checks and fits.
-/

namespace RustyBacnet.Mstp

def dataOffset : ℕ := 8

def trailerLength : ℕ := 2

/-- Wire length of a frame whose header declares `length`. -/
def wireLength (length : ℕ) : ℕ :=
  if length = 0 then dataOffset else dataOffset + length + trailerLength

/-- The first octet of a header after the preamble. The set is open. -/
structure FrameType where
  raw : UInt8
  deriving DecidableEq

namespace FrameType

def token : FrameType := ⟨0⟩
def pollForMaster : FrameType := ⟨1⟩
def replyToPollForMaster : FrameType := ⟨2⟩
def testRequest : FrameType := ⟨3⟩
def testResponse : FrameType := ⟨4⟩
def bacnetDataExpectingReply : FrameType := ⟨5⟩
def bacnetDataNotExpectingReply : FrameType := ⟨6⟩
def replyPostponed : FrameType := ⟨7⟩
def bacnetExtendedDataExpectingReply : FrameType := ⟨32⟩
def bacnetExtendedDataNotExpectingReply : FrameType := ⟨33⟩

/-- False only for the four types defined without data. -/
def allowsData (t : FrameType) : Bool :=
  !(t.raw == 0 || t.raw == 1 || t.raw == 2 || t.raw == 7)

def isCobs (t : FrameType) : Bool := 32 ≤ t.raw && t.raw ≤ 127

def isExtendedData (t : FrameType) : Bool := t.raw == 32 || t.raw == 33

def isProprietary (t : FrameType) : Bool := 128 ≤ t.raw

end FrameType

structure FrameHeader where
  frameType : FrameType
  destination : UInt8
  source : UInt8
  deriving DecidableEq

/-- The header checks of both directions, in their order: source, Length, supported type. -/
def checkHeaderFields (frameType : FrameType) (source : UInt8) (length : ℕ) :
    Except FrameError Unit :=
  if source = broadcastMac then .error .broadcastSource
  else if frameType.isCobs then
    if ¬(minCobsLength ≤ length ∧ length ≤ maxCobsLength) then .error (.invalidCobsLength length)
    else if ¬frameType.isExtendedData then .error (.unsupportedCobsFrame frameType.raw)
    else .ok ()
  else if maxStandardMpduData < length then .error (.oversize length maxStandardMpduData)
  else .ok ()

structure Frame where
  header : FrameHeader
  /-- The data as the client gave it; COBS-encoded on the wire for an extended frame. -/
  data : List UInt8
  deriving DecidableEq

namespace Frame

/-- `Frame::new`. -/
def new (frameType : FrameType) (destination source : UInt8) (data : List UInt8) : Frame :=
  ⟨⟨frameType, destination, source⟩, data⟩

def lengthField (frame : Frame) : ℕ :=
  if frame.header.frameType.isCobs then frameLength frame.data else frame.data.length

/-- Apply the encode checks and return the frame's Length field. -/
def checkedLength (frame : Frame) : Except FrameError ℕ :=
  let frameType := frame.header.frameType
  let length := frame.lengthField
  match checkHeaderFields frameType frame.header.source length with
  | .error e => .error e
  | .ok () =>
    if length ≠ 0 ∧ ¬frameType.allowsData then .error (.unexpectedData frameType.raw length)
    else if length < 2 ∧ frameType.isProprietary then
      .error (.missingVendorId frameType.raw length)
    else .ok length

def headerFields (frame : Frame) (length : ℕ) : List UInt8 :=
  [frame.header.frameType.raw, frame.header.destination, frame.header.source,
    UInt8.ofNat (length / 256), UInt8.ofNat length]

def head (frame : Frame) (length : ℕ) : List UInt8 :=
  preamble ++ frame.headerFields length ++ [crc8 (frame.headerFields length)]

def encodeToSink {σ : Type} [FrameSink σ] (frame : Frame) (sink : σ) : Except FrameError ℕ × σ :=
  match frame.checkedLength with
  | .error e => (.error e, sink)
  | .ok length =>
    let total := wireLength length
    let room : Except FrameError Unit :=
      match FrameSink.remainingCapacity sink with
      | none => .ok ()
      | some available =>
        if available < total then .error (.bufferExhausted total available) else .ok ()
    match room with
    | .error e => (.error e, sink)
    | .ok () =>
      match FrameSink.write sink (frame.head length) with
      | .error full => (.error full.toFrameError, sink)
      | .ok sink =>
        if frame.header.frameType.isCobs then
          match writeFields frame.data sink with
          | (.error full, sink) => (.error full.toFrameError, sink)
          | (.ok (), sink) => (.ok total, sink)
        else if length ≠ 0 then
          match FrameSink.write sink frame.data with
          | .error full => (.error full.toFrameError, sink)
          | .ok sink =>
            match FrameSink.write sink (u16ToLe (crc16 frame.data)) with
            | .error full => (.error full.toFrameError, sink)
            | .ok sink => (.ok total, sink)
        else (.ok total, sink)

/-- Encode at the start of `output`, with the octets `output` then holds. -/
def encodeInto (frame : Frame) (output : List UInt8) : Except FrameError ℕ × List UInt8 :=
  let (result, sink) := frame.encodeToSink (⟨[], output⟩ : SliceSink)
  (result, sink.written ++ sink.tail)

/-! ## The encoding as one list -/

def body (frame : Frame) : List UInt8 :=
  if frame.header.frameType.isCobs then fields frame.data
  else if frame.data = [] then [] else frame.data ++ u16ToLe (crc16 frame.data)

def encoding (frame : Frame) : List UInt8 := frame.head frame.lengthField ++ frame.body

variable {frame : Frame} {length : ℕ}

theorem checkedLength_eq (h : frame.checkedLength = .ok length) :
    length = frame.lengthField ∧
      checkHeaderFields frame.header.frameType frame.header.source frame.lengthField = .ok () := by
  unfold checkedLength at h
  dsimp only at h
  split at h
  · exact absurd h (by simp)
  · rename_i hcheck
    split_ifs at h
    exact ⟨(Except.ok.inj h).symm, hcheck⟩

theorem checkedLength_ok
    (hheader : checkHeaderFields frame.header.frameType frame.header.source frame.lengthField
      = .ok ()) (hallows : frame.header.frameType.allowsData = true ∨ frame.lengthField = 0)
    (hvendor : frame.header.frameType.isProprietary = false) :
    frame.checkedLength = .ok frame.lengthField := by
  unfold checkedLength
  dsimp only
  rw [hheader]
  rw [if_neg (by rcases hallows with ha | ha <;> simp [ha]), if_neg (by simp [hvendor])]

/-- A COBS frame that passes the header checks is one of the two extended types. -/
theorem checkHeaderFields_ok {frameType : FrameType} {source : UInt8} :
    checkHeaderFields frameType source length = .ok () ↔
      source ≠ broadcastMac ∧
        if frameType.isCobs then
          minCobsLength ≤ length ∧ length ≤ maxCobsLength ∧ frameType.isExtendedData
        else length ≤ maxStandardMpduData := by
  unfold checkHeaderFields
  have hrange : minCobsLength ≤ maxCobsLength := by decide
  split_ifs <;> grind

@[simp] theorem length_head (frame : Frame) (length : ℕ) :
    (frame.head length).length = dataOffset := rfl

theorem length_encoding (frame : Frame) : frame.encoding.length = wireLength frame.lengthField := by
  unfold encoding wireLength lengthField body
  rw [List.length_append, length_head]
  split_ifs with hcobs hlen hdata hnil <;>
    simp_all [length_fields, frameLength_eq, encodedCrcLength, lengthAdjustment, trailerLength,
      u16ToLe, List.length_eq_zero_iff]
  all_goals omega

variable {output : List UInt8}

/-- The frame's wire length, once it passed its checks and fits. -/
theorem encodeInto_ok (hcheck : frame.checkedLength = .ok length)
    (hfit : wireLength length ≤ output.length) :
    frame.encodeInto output
      = (.ok (wireLength length), frame.encoding ++ output.drop (wireLength length)) := by
  obtain ⟨rfl, -⟩ := checkedLength_eq hcheck
  have hwire := frame.length_encoding
  have hbody : frame.encoding.length = dataOffset + frame.body.length := by
    rw [encoding, List.length_append, length_head]
  set head := frame.head frame.lengthField with hhead
  have hheadLen : head.length = dataOffset := frame.length_head _
  have hwrite : FrameSink.write (⟨[], output⟩ : SliceSink) head
      = .ok (SliceSink.advance ⟨[], output⟩ head) :=
    SliceSink.write_ok (by rw [hheadLen]; show _ ≤ output.length; omega)
  have hrest : ∀ octets : List UInt8, octets.length ≤ frame.body.length →
      octets.length ≤ (SliceSink.advance ⟨[], output⟩ head).tail.length := by
    intro octets hlen
    show _ ≤ (output.drop head.length).length
    rw [List.length_drop]
    omega
  have hdone : frame.encodeToSink (⟨[], output⟩ : SliceSink)
      = (.ok (wireLength frame.lengthField),
          (SliceSink.advance ⟨[], output⟩ head).advance frame.body) := by
    unfold encodeToSink
    simp only [hcheck, FrameSink.remainingCapacity]
    rw [if_neg (by omega)]
    simp only [← hhead, hwrite]
    split_ifs with hcobs hlen
    · have hfields : frame.body = fields frame.data := if_pos hcobs
      rw [writeFields_ok (hrest _ (by rw [hfields])), hfields]
    · have hne : frame.data ≠ [] := by
        intro hnil
        simp [lengthField, hcobs, hnil] at hlen
      have hdata : frame.body = frame.data ++ u16ToLe (crc16 frame.data) := by
        simp [body, hcobs, hne]
      have hfirst := SliceSink.write_ok (hrest frame.data (by simp [hdata]))
      have hsecond : FrameSink.write
          ((SliceSink.advance ⟨[], output⟩ head).advance frame.data) (u16ToLe (crc16 frame.data))
          = .ok _ := SliceSink.write_ok (by
        have := hrest frame.body (Nat.le_refl _)
        rw [hdata, List.length_append] at this
        show _ ≤ (List.drop _ _).length
        rw [List.length_drop]
        omega)
      simp only [hfirst, hsecond, hdata, SliceSink.advance_append]
    · have hnil : frame.body = [] := by
        simp only [lengthField, hcobs, Bool.false_eq_true, if_false, ne_eq, not_not,
          List.length_eq_zero_iff] at hlen
        simp [body, hcobs, hlen]
      rw [hnil, SliceSink.advance_nil]
  unfold encodeInto
  rw [hdone, ← SliceSink.advance_append, ← hwire]
  rfl

theorem encodeInto_accepts {n : ℕ} (h : (frame.encodeInto output).1 = .ok n) :
    frame.checkedLength = .ok frame.lengthField ∧
      wireLength frame.lengthField ≤ output.length ∧ n = wireLength frame.lengthField := by
  cases hcheck : frame.checkedLength with
  | error e => simp [encodeInto, encodeToSink, hcheck] at h
  | ok length =>
    obtain ⟨rfl, -⟩ := checkedLength_eq hcheck
    by_cases hfit : wireLength frame.lengthField ≤ output.length
    · rw [encodeInto_ok hcheck hfit] at h
      exact ⟨rfl, hfit, (Except.ok.inj h).symm⟩
    · simp [encodeInto, encodeToSink, hcheck, FrameSink.remainingCapacity,
        Nat.not_le.mp hfit] at h

end Frame

end RustyBacnet.Mstp
