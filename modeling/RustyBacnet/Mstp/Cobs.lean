import RustyBacnet.Lib.ByteStuffing
import RustyBacnet.Lib.Slices
import RustyBacnet.Mstp.Basic
import RustyBacnet.Mstp.Crc

/-!
# The encoded fields of an extended frame

`cobs.rs`: the code blocks of a field, the two fields an extended frame carries (Encoded Data and
Encoded CRC-32K, each octet masked with `0x55`), and how they are checked and decoded over
themselves on receipt.

The loops are the source's, with their indices; each has its steps bounded by the length of what
it walks, which `codeBlocks_stuffs`, `decodedLengthLoop_stuffs` and `decodeLoop_stuffs` show to be
enough.
-/

namespace RustyBacnet.Mstp

open ByteStuffing Slices

/-- What each octet of both fields is combined with on the wire. -/
def mask : UInt8 := 0x55

def encodedCrcLength : ℕ := 5

def lengthAdjustment : ℕ := 2

/-! ## Encoding -/

/-- The code blocks of `rest`, each as its code and its octets. -/
def codeBlocks : ℕ → List UInt8 → List (UInt8 × List UInt8)
  | 0, _ => []
  | fuel + 1, rest =>
    let run := ((rest.take maxRun).takeWhile (· != 0)).length
    let octets := rest.take run
    let tail := rest.drop run
    (UInt8.ofNat run + 1, octets) ::
      if run = maxRun then
        if tail.isEmpty then [] else codeBlocks fuel tail
      else
        -- The block stands for the zero that follows it, or at the end for the phantom one.
        match tail with
        | [] => []
        | _ :: afterZero => codeBlocks fuel afterZero

/-- Call `block` with each code block of `data` in order. -/
def forEachBlock {σ : Type} (data : List UInt8) (s : σ) (block : σ → UInt8 → List UInt8 → σ) : σ :=
  (codeBlocks (data.length + 1) data).foldl (fun s b => block s b.1 b.2) s

/-- The Length field of an extended frame carrying `data`. -/
def frameLength (data : List UInt8) : ℕ :=
  forEachBlock data 0 (fun encoded _ octets => encoded + (1 + octets.length)) + encodedCrcLength
    - lengthAdjustment

def chunkLength : ℕ := 32

/-- Masked octets on their way to a sink, with the CRC-32K of everything written so far. -/
structure Output (σ : Type) where
  sink : σ
  chunk : List UInt8
  crc : UInt32
  result : Except SinkFull Unit

namespace Output

variable {σ : Type} [FrameSink σ]

/-- Write what is gathered. After a failed write, nothing more is. -/
def flush (o : Output σ) : Output σ :=
  let crc := crc32kUpdate o.crc o.chunk
  match o.result with
  | .error full => ⟨o.sink, [], crc, .error full⟩
  | .ok () =>
    match FrameSink.write o.sink o.chunk with
    | .ok sink => ⟨sink, [], crc, .ok ()⟩
    | .error full => ⟨o.sink, [], crc, .error full⟩

def push (o : Output σ) (octet : UInt8) : Output σ :=
  let o := if o.chunk.length = chunkLength then o.flush else o
  { o with chunk := o.chunk ++ [octet ^^^ mask] }

/-- Add the masked code blocks of `data`. -/
def blocks (o : Output σ) (data : List UInt8) : Output σ :=
  forEachBlock data o (fun o code octets => octets.foldl push (o.push code))

end Output

/-- Write both encoded fields for `data`. -/
def writeFields {σ : Type} [FrameSink σ] (data : List UInt8) (sink : σ) :
    Except SinkFull Unit × σ :=
  let output : Output σ := ⟨sink, [], 0xFFFFFFFF, .ok ()⟩
  let output := (output.blocks data).flush
  let crc := ~~~ output.crc
  let output := (output.blocks (u32ToLe crc)).flush
  (output.result, output.sink)

/-! ## Decoding -/

/-- `decoded_length`'s loop from index `read`, with `length` counted so far. -/
def decodedLengthLoop (field : List UInt8) : ℕ → ℕ → ℕ → Option ℕ
  | 0, _, length => some length
  | fuel + 1, read, length =>
    match field[read]? with
    | none => some length
    | some octet =>
      let code := (octet ^^^ mask).toNat
      if code = 0 ∨ field.length - read < code then none
      else
        let read := read + code
        let length := length + (code - 1)
        decodedLengthLoop field fuel read
          (if code ≠ 0xFF ∧ read < field.length then length + 1 else length)

/-- The length `field` decodes to, or `none` when a code octet is zero or runs past the field. -/
def decodedLength (field : List UInt8) : Option ℕ :=
  decodedLengthLoop field (field.length + 1) 0 0

/-- Unmask `count` octets from `read` to `write`. -/
def copyRun : ℕ → List UInt8 → ℕ → ℕ → List UInt8
  | 0, field, _, _ => field
  | count + 1, field, read, write =>
    copyRun count (field.set write (field.getD read 0 ^^^ mask)) (read + 1) (write + 1)

/-- `decode_in_place`'s loop; the count is where the last octet was written. -/
def decodeLoop : ℕ → List UInt8 → ℕ → ℕ → List UInt8 × ℕ
  | 0, field, _, write => (field, write)
  | fuel + 1, field, read, write =>
    if read < field.length then
      let code := (field.getD read 0 ^^^ mask).toNat
      let read := read + 1
      let count := min (read + (code - 1)) field.length - read
      let field := copyRun count field read write
      let read := read + count
      let write := write + count
      if code ≠ 0xFF ∧ read < field.length then
        decodeLoop fuel (field.set write 0) read (write + 1)
      else decodeLoop fuel field read write
    else (field, write)

/-- Decode `field` over itself, with the length of the data now at its start. -/
def decodeInPlace (field : List UInt8) : List UInt8 × ℕ :=
  decodeLoop (field.length + 1) field 0 0

/-- Check both encoded fields, and return the length of the data they carry. -/
def checkFields (fields : List UInt8) : Option ℕ :=
  if fields.length < encodedCrcLength then none
  else
    let split := fields.length - encodedCrcLength
    let data := fields.take split
    let crcField := fields.drop split
    match decodedLength data with
    | none => none
    | some length =>
      match decodedLength crcField with
      | none => none
      | some _ =>
        let crc := (decodeInPlace crcField).1
        let received := u32FromLe (crc.getD 0 0) (crc.getD 1 0) (crc.getD 2 0) (crc.getD 3 0)
        if received = ~~~ crc32kUpdate 0xFFFFFFFF data then some length else none

/-- Decode the Encoded Data field at the start of `fields` over itself. -/
def decodeDataInPlace (fields : List UInt8) : List UInt8 × ℕ :=
  let encoded := fields.length - encodedCrcLength
  let (data, length) := decodeInPlace (fields.take encoded)
  (data ++ fields.drop encoded, length)

end RustyBacnet.Mstp
