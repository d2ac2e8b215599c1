import RustyBacnet.Mstp.CrcBursts

/-!
# The CRC-32K tables

The 256-entry table of the `crc32k-table` feature and the 16-entry table of the default build, both
against the register that the wire bits are fed into one by one. A table lookup is the shifts of the
low bits alone, and the rest of the register moves down meanwhile (`iterate_shift_split`), so two
nibbles are one octet and an octet is eight bits.
-/

namespace RustyBacnet.Mstp

open ShiftRegister

/-- `CRC32K_TABLE`: eight shifts of the index. -/
def crc32kTable (i : UInt32) : UInt32 := crc32kShift i 8

def crc32kOctetByTable (crc : UInt32) (byte : UInt8) : UInt32 :=
  (crc >>> 8) ^^^ crc32kTable ((crc ^^^ byte.toUInt32) &&& 0xFF)

/-- `crc32k_update` under the `crc32k-table` feature. -/
def crc32kUpdateByTable (crc : UInt32) (data : List UInt8) : UInt32 :=
  data.foldl crc32kOctetByTable crc

def crc32kTaps : BitVec 32 := 0xEB31D82E

variable (crc : UInt32) (byte : UInt8)

theorem crc32kStep_eq : (crc32kStep crc).toBitVec = shift crc32kTaps crc.toBitVec := by
  have hlow : crc &&& 1 ≠ 0 ↔ crc.toBitVec.getLsbD 0 = true := by
    rw [ne_eq, ← UInt32.toBitVec_inj, ← Bool.not_eq_false]
    exact not_congr and_one_eq_zero
  unfold crc32kStep
  rw [apply_ite UInt32.toBitVec]
  exact ite_eq_shift crc32kTaps hlow

theorem crc32kShift_eq (bits : ℕ) :
    (crc32kShift crc bits).toBitVec = (shift crc32kTaps)^[bits] crc.toBitVec :=
  Function.Semiconj.iterate_right (fun x => crc32kStep_eq x) bits crc

theorem crc32kNibbles_eq : (crc >>> 4) ^^^ crc32kNibbles (crc &&& 0x0F) = crc32kShift crc 4 := by
  apply UInt32.toBitVec_inj.mp
  have hmask : ∀ i < 32, (0x0F : BitVec 32).getLsbD i = decide (i < 4) := by
    intro i hi
    interval_cases i <;> rfl
  rw [crc32kShift_eq, iterate_shift_split crc32kTaps 4 crc.toBitVec hmask, UInt32.toBitVec_xor]
  unfold crc32kNibbles
  rw [crc32kShift_eq]
  rfl

theorem crc32kOctetByNibbles_eq :
    crc32kOctetByNibbles crc byte = crc32kShift (crc ^^^ byte.toUInt32) 8 := by
  unfold crc32kOctetByNibbles
  rw [crc32kNibbles_eq, crc32kNibbles_eq]
  unfold crc32kShift
  rw [← Function.iterate_add_apply]

theorem crc32kOctetByTable_eq :
    crc32kOctetByTable crc byte = crc32kShift (crc ^^^ byte.toUInt32) 8 := by
  have hmask : ∀ i < 32, (0xFF : BitVec 32).getLsbD i = decide (i < 8) := by
    intro i hi
    interval_cases i <;> rfl
  have hdown : (crc.toBitVec ^^^ byte.toUInt32.toBitVec) >>> 8 = crc.toBitVec >>> 8 := by
    refine BitVec.eq_of_getLsbD_eq ?_
    intro i _
    have hoctet : byte.toUInt32.toBitVec = byte.toBitVec.setWidth 32 := rfl
    rw [hoctet, BitVec.getLsbD_ushiftRight, BitVec.getLsbD_xor, BitVec.getLsbD_setWidth,
      BitVec.getLsbD_of_ge byte.toBitVec _ (by omega), Bool.and_false, Bool.xor_false,
      BitVec.getLsbD_ushiftRight]
  apply UInt32.toBitVec_inj.mp
  rw [crc32kShift_eq, UInt32.toBitVec_xor, iterate_shift_split crc32kTaps 8 _ hmask, hdown]
  unfold crc32kOctetByTable crc32kTable
  rw [UInt32.toBitVec_xor, crc32kShift_eq]
  rfl

theorem crc32kShift_octet :
    (crc32kShift (crc ^^^ byte.toUInt32) 8).toBitVec
      = feedAll crc32kTaps crc.toBitVec (octetBits byte) := by
  rw [crc32kShift_eq, feedAll_octet (by decide), UInt32.toBitVec_xor]
  rfl

theorem foldl_octets {octet : UInt32 → UInt8 → UInt32}
    (hoctet : ∀ crc byte, octet crc byte = crc32kShift (crc ^^^ byte.toUInt32) 8)
    (data : List UInt8) (crc : UInt32) :
    (data.foldl octet crc).toBitVec = feedAll crc32kTaps crc.toBitVec (wireBits data) := by
  induction data generalizing crc with
  | nil => rfl
  | cons byte data ih =>
    show (data.foldl octet (octet crc byte)).toBitVec
      = feedAll crc32kTaps crc.toBitVec (octetBits byte ++ wireBits data)
    rw [ih, hoctet, feedAll_append, crc32kShift_octet]

/-- Whatever way the data is cut into updates, and whichever table each build has, the register ends
as the one the data's bits are fed into. -/
theorem crc32k_implementations_agree (crc : UInt32) (pieces : List (List UInt8)) :
    (pieces.foldl crc32kUpdate crc).toBitVec
        = feedAll crc32kTaps crc.toBitVec (wireBits pieces.flatten) ∧
      (pieces.foldl crc32kUpdateByTable crc).toBitVec
        = feedAll crc32kTaps crc.toBitVec (wireBits pieces.flatten) ∧
      pieces.foldl crc32kUpdate crc = pieces.foldl crc32kUpdateByTable crc := by
  have hnibbles : (pieces.foldl crc32kUpdate crc).toBitVec
      = feedAll crc32kTaps crc.toBitVec (wireBits pieces.flatten) := by
    rw [← foldl_octets crc32kOctetByNibbles_eq, List.foldl_flatten]
    rfl
  have htable : (pieces.foldl crc32kUpdateByTable crc).toBitVec
      = feedAll crc32kTaps crc.toBitVec (wireBits pieces.flatten) := by
    rw [← foldl_octets crc32kOctetByTable_eq, List.foldl_flatten]
    rfl
  exact ⟨hnibbles, htable, UInt32.toBitVec_inj.mp (hnibbles.trans htable.symm)⟩

end RustyBacnet.Mstp
