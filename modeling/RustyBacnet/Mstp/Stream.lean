import RustyBacnet.Mstp.Decode

/-!
# The incremental decoder

`stream.rs`: a decoder over storage the caller lends it. Octets the decoder is done with are
dropped by moving `start` past them; a frame it delivered stays buffered until the next push; a
frame it refused after a good header is skipped by count as its octets arrive.
-/

namespace RustyBacnet.Mstp

open Slices

/-- The outcome of one push. -/
inductive DecodeEvent where
  | needMore
  | frame (frame : Frame) (consumed : ℕ)
  | invalid (discard : ℕ)
  | malformed (discard : ℕ) (error : FrameError) (destination : Option UInt8)
  | error (error : FrameError)
  deriving DecidableEq

def DecodeEvent.isError : DecodeEvent → Bool
  | .error _ => true
  | _ => false

/-- The receive phase the retained octets stand for. -/
inductive StreamPhase where
  | sync
  | preamble
  | header
  | data
  deriving DecidableEq

/-- What `tryDecode` finds, before a frame's data is borrowed from the storage. -/
inductive InternalEvent where
  | needMore
  | frame (header : FrameHeader) (dataLength consumed : ℕ)
  | invalid (discard : ℕ)
  | malformed (discard : ℕ) (error : FrameError) (destination : Option UInt8)
  deriving DecidableEq

structure StreamDecoder where
  storage : List UInt8
  /-- Where the buffered octets begin. -/
  start : ℕ
  /-- How many octets are buffered. -/
  length : ℕ
  /-- Wire length of the frame the last push delivered. -/
  pending : ℕ
  /-- Octets of a dropped frame still to come. -/
  skip : ℕ
  /-- Reserved COBS types are checked and yielded, not skipped. -/
  reservedCobs : Bool
  deriving DecidableEq

def destinationIndex : ℕ := 3

def lengthIndex : ℕ := 5

namespace StreamDecoder

def new (storage : List UInt8) : StreamDecoder := ⟨storage, 0, 0, 0, 0, false⟩

def withReservedCobs (d : StreamDecoder) : StreamDecoder := { d with reservedCobs := true }

def capacity (d : StreamDecoder) : ℕ := d.storage.length

def buffered (d : StreamDecoder) : List UInt8 := slice d.storage d.start d.length

def phase (d : StreamDecoder) : StreamPhase :=
  if d.skip ≠ 0 then .data
  else
    let buffered := d.buffered
    if d.pending ≠ 0 ∨ buffered.head? ≠ some 0x55 then .sync
    else if d.length = 1 then .preamble
    else if buffered.getD 1 0 ≠ 0xFF then .sync
    else if d.length < dataOffset then .header
    else .data

def reset (d : StreamDecoder) : StreamDecoder :=
  { d with start := 0, length := 0, pending := 0, skip := 0 }

/-- Drop the first `count` buffered octets, without moving the rest. -/
def discard (d : StreamDecoder) (count : ℕ) : StreamDecoder :=
  let count := min count d.length
  let length := d.length - count
  { d with start := if length = 0 then 0 else d.start + count, length := length }

def commitPending (d : StreamDecoder) : StreamDecoder :=
  if d.pending = 0 then d else { d.discard d.pending with pending := 0 }

/-- `compact`'s loop: pieces no longer than the gap in front of them move down by it. -/
def compactLoop (gap stop : ℕ) : ℕ → List UInt8 → ℕ → List UInt8
  | 0, storage, _ => storage
  | fuel + 1, storage, from_ =>
    if from_ < stop then
      let count := min gap (stop - from_)
      compactLoop gap stop fuel (splice storage (from_ - gap) (slice storage from_ count))
        (from_ + count)
    else storage

/-- Move the buffered octets to the front of the storage. -/
def compact (d : StreamDecoder) : StreamDecoder :=
  if d.start = 0 then d
  else
    { d with
      storage := compactLoop d.start (d.start + d.length) d.length d.storage d.start
      start := 0 }

/-- Wait for the rest of a header, unless the storage can't hold one. -/
def waitForHeader (d : StreamDecoder) (needed : ℕ) : StreamDecoder × InternalEvent :=
  if needed ≤ d.capacity then (d, .needMore)
  else (d.discard 1, .malformed 1 (.frameTooLong needed d.capacity) none)

def declaredLength (d : StreamDecoder) : ℕ :=
  u16FromBe (d.buffered.getD lengthIndex 0) (d.buffered.getD (lengthIndex + 1) 0)

/-- Drop the candidate at the front by count: what is buffered of it, and the rest later. -/
def skipFrame (d : StreamDecoder) (total : ℕ) (error : FrameError) (destination : Option UInt8) :
    StreamDecoder × InternalEvent :=
  (if total ≤ d.length then d.discard total
   else { d with skip := total - d.length, start := 0, length := 0 },
   .malformed total error destination)

def mayStartPreamble : List UInt8 → Bool
  | [] => false
  | first :: rest => first == 0x55 && rest.head?.all (· == 0xFF)

/-- How much of a noisy buffer goes: up to the next octet that might start a preamble. -/
def noiseLength (buffered : List UInt8) : ℕ :=
  match (buffered.drop 1).findIdx? (· == 0x55) with
  | none => buffered.length
  | some index => index + 1

/-- The destination octet, for an error past the header CRC. -/
def errorDestination (error : FrameError) (buffered : List UInt8) : Option UInt8 :=
  match error with
  | .tooShort _ _ | .invalidPreamble _ _ | .headerCrcMismatch => none
  | .broadcastSource | .invalidCobsLength _ | .oversize _ _ | .unsupportedCobsFrame _
  | .truncated _ _ | .dataCrcMismatch _ => some (buffered.getD destinationIndex 0)
  | .extendedFrame _ | .unexpectedData _ _ | .missingVendorId _ _ | .frameTooLong _ _
  | .bufferExhausted _ _ => none

def tryDecode (d : StreamDecoder) : StreamDecoder × InternalEvent :=
  let buffered := d.buffered
  if buffered = [] then (d, .needMore)
  else if ¬mayStartPreamble buffered then
    let count := noiseLength buffered
    (d.discard count, .invalid count)
  else
    match checkFrame buffered d.reservedCobs with
    | .ok valid =>
      ({ d with
          storage := splice d.storage d.start (decodeExtendedInPlace buffered valid)
          pending := valid.consumed },
        .frame valid.header valid.dataLength valid.consumed)
    | .error error =>
      let destination := errorDestination error buffered
      match error with
      | .tooShort needed _ => d.waitForHeader needed
      | .truncated length _ =>
        let needed := wireLength length
        if needed ≤ d.capacity then (d, .needMore)
        else d.skipFrame needed (.frameTooLong needed d.capacity) destination
      | .unsupportedCobsFrame _ => d.skipFrame (wireLength d.declaredLength) error destination
      | .dataCrcMismatch length => d.skipFrame (wireLength length) error destination
      | _ => (d.discard 1, .malformed 1 error destination)

/-- The event as the caller sees it, with a frame's data borrowed from the storage. -/
def toEvent (d : StreamDecoder) : InternalEvent → DecodeEvent
  | .needMore => .needMore
  | .frame header dataLength consumed =>
    .frame ⟨header, (d.buffered.drop dataOffset).take dataLength⟩ consumed
  | .invalid count => .invalid count
  | .malformed count error destination => .malformed count error destination

/-- Copy `rest` behind the buffered octets, moving them to the front when it would not fit. -/
def takeIn (d : StreamDecoder) (rest : List UInt8) : StreamDecoder :=
  let d := if d.capacity < d.start + d.length + rest.length then d.compact else d
  { d with
    storage := splice d.storage (d.start + d.length) rest
    length := d.length + rest.length }

/-- Commit a delivered frame, take `input`, and report the first resulting event. -/
def pushSlice (d : StreamDecoder) (input : List UInt8) : StreamDecoder × DecodeEvent :=
  let d := d.commitPending
  let skipped := min d.skip input.length
  let rest := input.drop skipped
  let free := d.capacity - d.length
  if free < rest.length then (d, .error (.bufferExhausted rest.length free))
  else
    let d := { d with skip := d.skip - skipped }
    let (d, event) := (d.takeIn rest).tryDecode
    (d, d.toEvent event)

def push (d : StreamDecoder) (byte : UInt8) : StreamDecoder × DecodeEvent := d.pushSlice [byte]

/-- Empty pushes after `event` until `NeedMore`, with every event. -/
def drain : ℕ → StreamDecoder → DecodeEvent → StreamDecoder × List DecodeEvent
  | 0, d, event => (d, [event])
  | fuel + 1, d, event =>
    if event = .needMore then (d, [event])
    else
      let (d, next) := d.pushSlice []
      let (d, events) := drain fuel d next
      (d, event :: events)

def feedSlice (d : StreamDecoder) (slice : List UInt8) : StreamDecoder × List DecodeEvent :=
  let (d', event) := d.pushSlice slice
  drain (d.capacity + 2) d' event

def feedSlices (d : StreamDecoder) : List (List UInt8) → StreamDecoder × List DecodeEvent
  | [] => (d, [])
  | slice :: slices =>
    let (d, events) := d.feedSlice slice
    let (d, more) := d.feedSlices slices
    (d, events ++ more)

/-! ## What comes out -/

theorem tryDecode_dataLength {d : StreamDecoder} {header : FrameHeader} {dataLength consumed : ℕ}
    (h : d.tryDecode.2 = .frame header dataLength consumed) (hcobs : header.frameType.isCobs = false) :
    dataLength ≤ maxStandardMpduData := by
  unfold tryDecode at h
  dsimp only at h
  split_ifs at h
  cases hcheck : checkFrame d.buffered d.reservedCobs with
  | ok valid =>
    simp only [hcheck, InternalEvent.frame.injEq] at h
    obtain ⟨rfl, rfl, -⟩ := h
    exact checkFrame_dataLength hcheck hcobs
  | error error =>
    simp only [hcheck] at h
    unfold waitForHeader skipFrame at h
    split at h
    · split_ifs at h
    · split_ifs at h
    all_goals exact absurd h (by simp)

/-- A frame that comes out is no longer than its type allows. -/
def Bounded : DecodeEvent → Prop
  | .frame frame _ => frame.Bounded
  | _ => True

theorem pushSlice_bounded (d : StreamDecoder) (input : List UInt8) :
    Bounded (d.pushSlice input).2 := by
  unfold pushSlice
  dsimp only
  split_ifs
  · trivial
  · generalize takeIn _ _ = taken
    have hlength := @tryDecode_dataLength taken
    generalize taken.tryDecode = result at hlength ⊢
    cases hevent : result.2 with
    | frame header dataLength consumed =>
      intro hcobs
      exact le_trans (List.length_take_le _ _) (hlength hevent hcobs)
    | _ => trivial

theorem feedSlice_bounded (d : StreamDecoder) (slice : List UInt8) :
    ∀ event ∈ (d.feedSlice slice).2, Bounded event := by
  have hdrain : ∀ (fuel : ℕ) (d : StreamDecoder) (event : DecodeEvent), Bounded event →
      ∀ e ∈ (drain fuel d event).2, Bounded e := by
    intro fuel
    induction fuel with
    | zero =>
      intro d event hevent e he
      obtain rfl := List.mem_singleton.mp he
      exact hevent
    | succ fuel ih =>
      intro d event hevent e he
      unfold drain at he
      split_ifs at he
      · obtain rfl := List.mem_singleton.mp he
        exact hevent
      · rcases List.mem_cons.mp he with rfl | he
        · exact hevent
        · exact ih _ _ (pushSlice_bounded d []) e he
  exact hdrain _ _ _ (pushSlice_bounded d slice)

end StreamDecoder

end RustyBacnet.Mstp
