import Mathlib.Data.List.GetD
import Mathlib.Logic.Function.Iterate

/-!
# The frame CRCs

The header CRC-8, the data CRC-16 and the CRC-32K of extended frames, as `crc.rs` computes them.
A lookup table of the source is the function that fills it, applied to the index. Each function
returns the complemented register, the value that goes on the wire.
-/

namespace RustyBacnet.Mstp

def crc8Shift (crc : UInt8) : UInt8 :=
  if crc &&& 1 ≠ 0 then (crc >>> 1) ^^^ 0x81 else crc >>> 1

/-- `CRC8_TABLE`: eight shifts of the index. -/
def crc8Table (i : UInt8) : UInt8 := crc8Shift^[8] i

def crc8 (data : List UInt8) : UInt8 :=
  ~~~ data.foldl (fun crc byte => crc8Table (crc ^^^ byte)) 0xFF

/-- Verify a header CRC whose final octet is the transmitted one. -/
def crc8Valid (dataWithCrc : List UInt8) : Bool :=
  match dataWithCrc.getLast? with
  | none => false
  | some crc => crc8 dataWithCrc.dropLast == crc

def crc16Shift (crc : UInt16) : UInt16 :=
  if crc &&& 1 ≠ 0 then (crc >>> 1) ^^^ 0x8408 else crc >>> 1

/-- `CRC16_TABLE`: eight shifts of the index. -/
def crc16Table (i : UInt16) : UInt16 := crc16Shift^[8] i

def crc16 (data : List UInt8) : UInt16 :=
  ~~~ data.foldl (fun crc byte => (crc >>> 8) ^^^ crc16Table ((crc ^^^ byte.toUInt16) &&& 0xFF))
    0xFFFF

/-- `u16::to_le_bytes`. -/
def u16ToLe (n : UInt16) : List UInt8 := [UInt8.ofNat n.toNat, UInt8.ofNat (n.toNat / 256)]

/-- `u16::from_le_bytes`. -/
def u16FromLe (lo hi : UInt8) : UInt16 := UInt16.ofNat (lo.toNat + 256 * hi.toNat)

/-- Verify a data CRC whose final two octets are little-endian, after at least one data octet. -/
def crc16Valid (dataWithCrc : List UInt8) : Bool :=
  if dataWithCrc.length < 3 then false
  else
    let split := dataWithCrc.length - 2
    let stored := u16FromLe (dataWithCrc.getD split 0) (dataWithCrc.getD (split + 1) 0)
    crc16 (dataWithCrc.take split) == stored

def crc32kPolynomial : UInt32 := 0xEB31D82E

def crc32kStep (crc : UInt32) : UInt32 :=
  if crc &&& 1 ≠ 0 then (crc >>> 1) ^^^ crc32kPolynomial else crc >>> 1

/-- The register after `bits` shifts with no new input. -/
def crc32kShift (crc : UInt32) (bits : ℕ) : UInt32 := crc32kStep^[bits] crc

/-- `CRC32K_NIBBLES`: four shifts of the index. -/
def crc32kNibbles (i : UInt32) : UInt32 := crc32kShift i 4

/-- Accumulate one octet with the 16-entry table, the default one. -/
def crc32kOctetByNibbles (crc : UInt32) (byte : UInt8) : UInt32 :=
  let crc := crc ^^^ byte.toUInt32
  let crc := (crc >>> 4) ^^^ crc32kNibbles (crc &&& 0x0F)
  (crc >>> 4) ^^^ crc32kNibbles (crc &&& 0x0F)

def crc32kUpdate (crc : UInt32) (data : List UInt8) : UInt32 :=
  data.foldl crc32kOctetByNibbles crc

theorem crc32kUpdate_append (crc : UInt32) (xs ys : List UInt8) :
    crc32kUpdate crc (xs ++ ys) = crc32kUpdate (crc32kUpdate crc xs) ys :=
  List.foldl_append

/-- `u32::to_le_bytes`. -/
def u32ToLe (n : UInt32) : List UInt8 :=
  [UInt8.ofNat n.toNat, UInt8.ofNat (n.toNat / 256), UInt8.ofNat (n.toNat / 65536),
    UInt8.ofNat (n.toNat / 16777216)]

/-- `u32::from_le_bytes`. -/
def u32FromLe (a b c d : UInt8) : UInt32 :=
  UInt32.ofNat (a.toNat + 256 * b.toNat + 65536 * c.toNat + 16777216 * d.toNat)

theorem u16FromLe_toLe (n : UInt16) :
    u16FromLe (UInt8.ofNat n.toNat) (UInt8.ofNat (n.toNat / 256)) = n := by
  have hn := n.toNat_lt
  unfold u16FromLe
  apply UInt16.toNat_inj.mp
  simp only [UInt8.toNat_ofNat', UInt16.toNat_ofNat']
  omega

theorem u32FromLe_toLe (n : UInt32) :
    u32FromLe (UInt8.ofNat n.toNat) (UInt8.ofNat (n.toNat / 256)) (UInt8.ofNat (n.toNat / 65536))
      (UInt8.ofNat (n.toNat / 16777216)) = n := by
  have hn := n.toNat_lt
  unfold u32FromLe
  apply UInt32.toNat_inj.mp
  simp only [UInt8.toNat_ofNat', UInt32.toNat_ofNat']
  omega

theorem crc8Valid_append (fields : List UInt8) : crc8Valid (fields ++ [crc8 fields]) = true := by
  simp [crc8Valid]

theorem crc16Valid_append {data : List UInt8} (h : data ≠ []) :
    crc16Valid (data ++ u16ToLe (crc16 data)) = true := by
  have hpos : 0 < data.length := List.length_pos_iff.mpr h
  have hlen : (data ++ u16ToLe (crc16 data)).length - 2 = data.length := by
    simp [u16ToLe]
  unfold crc16Valid
  rw [if_neg (by simp [u16ToLe]; omega)]
  simp only [hlen, List.take_left]
  rw [List.getD_append_right _ _ _ _ (Nat.le_refl _),
    List.getD_append_right _ _ _ _ (Nat.le_succ _)]
  simpa [u16ToLe] using (u16FromLe_toLe (crc16 data)).symm

end RustyBacnet.Mstp
