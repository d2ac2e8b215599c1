import Mathlib.Data.List.Basic

/-!
# Constants, errors and sinks of the frame codec

The constants of `lib.rs`, the errors of `error.rs` and the sinks of `sink.rs`. The one sink the
station core writes to is a slice of fixed length, `SliceSink`.
-/

namespace RustyBacnet.Mstp

def preamble : List UInt8 := [0x55, 0xFF]

/-- Type, destination, source, two length octets and the header CRC. -/
def headerLength : ℕ := 6

def maxStandardMpduData : ℕ := 501

def maxMaster : UInt8 := 127

def broadcastMac : UInt8 := 0xFF

def maxStandardFrameLength : ℕ := 511

def minCobsLength : ℕ := 5

def maxCobsLength : ℕ := 2043

def maxExtendedMpduData : ℕ := 1497

def maxExtendedFrameLength : ℕ := 1516

/-- Why a frame could not be encoded or decoded. -/
inductive FrameError where
  | tooShort (needed available : ℕ)
  | invalidPreamble (first second : UInt8)
  | headerCrcMismatch
  | unsupportedCobsFrame (rawType : UInt8)
  | broadcastSource
  | invalidCobsLength (length : ℕ)
  | extendedFrame (rawType : UInt8)
  | oversize (length maximum : ℕ)
  | unexpectedData (rawType : UInt8) (length : ℕ)
  | missingVendorId (rawType : UInt8) (length : ℕ)
  | truncated (length available : ℕ)
  | dataCrcMismatch (length : ℕ)
  | frameTooLong (needed capacity : ℕ)
  | bufferExhausted (needed available : ℕ)
  deriving DecidableEq

/-- A sink had no room for a write. -/
structure SinkFull where
  needed : ℕ
  available : ℕ
  deriving DecidableEq

/-- `From<SinkFull> for FrameError`. -/
def SinkFull.toFrameError (full : SinkFull) : FrameError :=
  .bufferExhausted full.needed full.available

/-- A destination for encoded frame octets. -/
class FrameSink (σ : Type) where
  /-- Octets of room left, or `none` when the sink grows as needed. -/
  remainingCapacity : σ → Option ℕ
  /-- Append octets, or fail without appending any of them. -/
  write : σ → List UInt8 → Except SinkFull σ

/-- `&mut [u8]` as a sink: what was written at the front, and the unused tail. -/
structure SliceSink where
  written : List UInt8
  tail : List UInt8
  deriving DecidableEq

instance : FrameSink SliceSink where
  remainingCapacity sink := some sink.tail.length
  write sink bytes :=
    if sink.tail.length < bytes.length then .error ⟨bytes.length, sink.tail.length⟩
    else .ok ⟨sink.written ++ bytes, sink.tail.drop bytes.length⟩

/-- The sink after `bytes` went into it. -/
def SliceSink.advance (sink : SliceSink) (bytes : List UInt8) : SliceSink :=
  ⟨sink.written ++ bytes, sink.tail.drop bytes.length⟩

@[simp] theorem SliceSink.advance_nil (sink : SliceSink) : sink.advance [] = sink := by
  simp [SliceSink.advance]

theorem SliceSink.advance_append (sink : SliceSink) (xs ys : List UInt8) :
    sink.advance (xs ++ ys) = (sink.advance xs).advance ys := by
  simp [SliceSink.advance, List.drop_drop]

theorem SliceSink.write_ok {sink : SliceSink} {bytes : List UInt8}
    (h : bytes.length ≤ sink.tail.length) : FrameSink.write sink bytes = .ok (sink.advance bytes) :=
  if_neg (Nat.not_lt.mpr h)

end RustyBacnet.Mstp
