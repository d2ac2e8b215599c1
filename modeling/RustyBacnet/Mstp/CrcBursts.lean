import Mathlib.Tactic.IntervalCases
import Mathlib.Tactic.SplitIfs
import RustyBacnet.Lib.ShiftRegister
import RustyBacnet.Mstp.Crc

/-!
# The CRCs detect bursts

The table-driven registers are shift registers that the wire bits are fed into, each octet least
significant bit first. A received field passes its check exactly when its register ends where the
sent one's would, so the error fed alone would leave an empty register empty; a burst no wider than
the register does not.
-/

namespace RustyBacnet.Mstp

open ShiftRegister

/-! ## The wire -/

def octetBits (octet : UInt8) : List Bool := (List.range 8).map octet.toBitVec.getLsbD

/-- The bits on the wire, each octet least significant bit first. -/
def wireBits (octets : List UInt8) : List Bool := octets.flatMap octetBits

/-- What arrives when `error` is added on the wire. -/
def corrupt (octets error : List UInt8) : List UInt8 := List.zipWith (· ^^^ ·) octets error

theorem octetBits_length (octet : UInt8) : (octetBits octet).length = 8 := by
  simp [octetBits]

theorem wireBits_length (octets : List UInt8) : (wireBits octets).length = 8 * octets.length := by
  induction octets with
  | nil => rfl
  | cons octet octets ih =>
    have hcons : wireBits (octet :: octets) = octetBits octet ++ wireBits octets := rfl
    rw [hcons, List.length_append, octetBits_length, ih, List.length_cons]
    omega

theorem octetBits_xor (a b : UInt8) :
    octetBits (a ^^^ b) = List.zipWith Bool.xor (octetBits a) (octetBits b) := by
  unfold octetBits
  rw [List.zipWith_map, List.zipWith_self]
  refine List.map_congr_left ?_
  intro i _
  rw [UInt8.toBitVec_xor, BitVec.getLsbD_xor]

theorem wireBits_corrupt : ∀ {octets error : List UInt8}, octets.length = error.length →
    wireBits (corrupt octets error) = List.zipWith Bool.xor (wireBits octets) (wireBits error)
  | [], [], _ => rfl
  | [], _ :: _, h => by cases h
  | _ :: _, [], h => by cases h
  | octet :: octets, e :: error, h => by
    have hlength : (octetBits octet).length = (octetBits e).length := by
      rw [octetBits_length, octetBits_length]
    show octetBits (octet ^^^ e) ++ wireBits (corrupt octets error)
      = List.zipWith Bool.xor (octetBits octet ++ wireBits octets) (octetBits e ++ wireBits error)
    rw [List.zipWith_append hlength, octetBits_xor, wireBits_corrupt (Nat.succ.inj h)]

variable {w : ℕ}

theorem word_octetBits (octet : UInt8) :
    (word (octetBits octet) : BitVec w) = octet.toBitVec.setWidth w := by
  refine BitVec.eq_of_getLsbD_eq ?_
  intro i hi
  rw [getLsbD_word _ hi, BitVec.getLsbD_setWidth, decide_eq_true hi, Bool.true_and]
  unfold octetBits
  by_cases hlow : i < 8
  · simp [List.getD_eq_getElem?_getD, hlow]
  · rw [List.getD_eq_default _ _ (by simp; omega), BitVec.getLsbD_of_ge _ _ (by omega)]

theorem feedAll_octet (hw : 8 ≤ w) (taps r : BitVec w) (octet : UInt8) :
    feedAll taps r (octetBits octet) = (shift taps)^[8] (r ^^^ octet.toBitVec.setWidth w) := by
  have hfits : (octetBits octet).length ≤ w := by
    rw [octetBits_length]
    exact hw
  rw [feedAll_word taps r hfits, octetBits_length, word_octetBits]

def crc8Taps : BitVec 8 := 0x81

/-- The register after the data, from `crc`. -/
def crc8Register (crc : UInt8) (data : List UInt8) : UInt8 :=
  data.foldl (fun crc byte => crc8Table (crc ^^^ byte)) crc

theorem crc8Shift_eq (crc : UInt8) : (crc8Shift crc).toBitVec = shift crc8Taps crc.toBitVec := by
  have hlow : crc &&& 1 ≠ 0 ↔ crc.toBitVec.getLsbD 0 = true := by
    rw [ne_eq, ← UInt8.toBitVec_inj, ← Bool.not_eq_false]
    exact not_congr and_one_eq_zero
  unfold crc8Shift
  rw [apply_ite UInt8.toBitVec]
  exact ite_eq_shift crc8Taps hlow

theorem crc8Register_eq (crc : UInt8) (data : List UInt8) :
    (crc8Register crc data).toBitVec = feedAll crc8Taps crc.toBitVec (wireBits data) := by
  induction data generalizing crc with
  | nil => rfl
  | cons octet data ih =>
    have hiterate : ∀ x : UInt8, (crc8Shift^[8] x).toBitVec = (shift crc8Taps)^[8] x.toBitVec :=
      Function.Semiconj.iterate_right crc8Shift_eq 8
    show (crc8Register (crc8Table (crc ^^^ octet)) data).toBitVec
      = feedAll crc8Taps crc.toBitVec (octetBits octet ++ wireBits data)
    rw [ih, feedAll_append, feedAll_octet (Nat.le_refl 8), BitVec.setWidth_eq]
    congr 1
    unfold crc8Table
    rw [hiterate, UInt8.toBitVec_xor]

/-! ## CRC-16 -/

def crc16Taps : BitVec 16 := 0x8408

def crc16Register (crc : UInt16) (data : List UInt8) : UInt16 :=
  data.foldl (fun crc byte => (crc >>> 8) ^^^ crc16Table ((crc ^^^ byte.toUInt16) &&& 0xFF)) crc

theorem crc16Shift_eq (crc : UInt16) : (crc16Shift crc).toBitVec = shift crc16Taps crc.toBitVec := by
  have hlow : crc &&& 1 ≠ 0 ↔ crc.toBitVec.getLsbD 0 = true := by
    rw [ne_eq, ← UInt16.toBitVec_inj, ← Bool.not_eq_false]
    exact not_congr and_one_eq_zero
  unfold crc16Shift
  rw [apply_ite UInt16.toBitVec]
  exact ite_eq_shift crc16Taps hlow

theorem iterate_shift_eight (x : BitVec 16) :
    (shift crc16Taps)^[8] x = (x >>> 8) ^^^ (shift crc16Taps)^[8] (x &&& 0xFF) := by
  refine iterate_shift_split crc16Taps 8 x ?_
  intro i hi
  interval_cases i <;> rfl

theorem crc16Register_eq (crc : UInt16) (data : List UInt8) :
    (crc16Register crc data).toBitVec = feedAll crc16Taps crc.toBitVec (wireBits data) := by
  induction data generalizing crc with
  | nil => rfl
  | cons octet data ih =>
    have hiterate : ∀ x : UInt16, (crc16Shift^[8] x).toBitVec = (shift crc16Taps)^[8] x.toBitVec :=
      Function.Semiconj.iterate_right crc16Shift_eq 8
    have hoctet : octet.toUInt16.toBitVec = octet.toBitVec.setWidth 16 := rfl
    have hdown : (crc.toBitVec ^^^ octet.toBitVec.setWidth 16) >>> 8 = crc.toBitVec >>> 8 := by
      refine BitVec.eq_of_getLsbD_eq ?_
      intro i _
      rw [BitVec.getLsbD_ushiftRight, BitVec.getLsbD_xor, BitVec.getLsbD_setWidth,
        BitVec.getLsbD_of_ge octet.toBitVec _ (by omega), Bool.and_false, Bool.xor_false,
        BitVec.getLsbD_ushiftRight]
    show (crc16Register ((crc >>> 8) ^^^ crc16Table ((crc ^^^ octet.toUInt16) &&& 0xFF))
        data).toBitVec
      = feedAll crc16Taps crc.toBitVec (octetBits octet ++ wireBits data)
    rw [ih, feedAll_append, feedAll_octet (by decide), iterate_shift_eight, hdown]
    congr 1
    unfold crc16Table
    rw [UInt16.toBitVec_xor, hiterate, UInt16.toBitVec_and, UInt16.toBitVec_xor, hoctet]
    rfl

theorem u16FromLe_eq (lo hi : UInt8) : (u16FromLe lo hi).toBitVec = word (wireBits [lo, hi]) := by
  refine BitVec.eq_of_getLsbD_eq ?_
  intro i hi'
  have hlo := lo.toNat_lt
  have hhi := hi.toNat_lt
  have hbit : (u16FromLe lo hi).toBitVec.getLsbD i = (256 * hi.toNat + lo.toNat).testBit i := by
    show (BitVec.ofNat 16 _).getLsbD i = _
    rw [BitVec.getLsbD_ofNat, decide_eq_true hi', Bool.true_and, Nat.add_comm]
  rw [hbit, getLsbD_word _ hi', Nat.testBit_two_pow_mul_add _ (i := 8) hlo]
  show _ = (octetBits lo ++ (octetBits hi ++ [])).getD i false
  rw [List.append_nil]
  split_ifs with hlow
  · rw [List.getD_append _ _ _ _ (by rw [octetBits_length]; exact hlow)]
    simp [octetBits, List.getD_eq_getElem?_getD, hlow]
    rfl
  · rw [List.getD_append_right _ _ _ _ (by rw [octetBits_length]; omega), octetBits_length]
    have hhigh : i - 8 < 8 := by omega
    simp [octetBits, List.getD_eq_getElem?_getD, hhigh]
    rfl

/-! ## Bursts -/

variable {data : List UInt8} {ed : List UInt8}

theorem corrupt_append (hlength : data.length = ed.length) (crc error : List UInt8) :
    corrupt (data ++ crc) (ed ++ error) = corrupt data ed ++ corrupt crc error :=
  List.zipWith_append hlength

theorem feedAll_corrupt (taps r : BitVec w) (hlength : data.length = ed.length) :
    feedAll taps r (wireBits (corrupt data ed))
      = feedAll taps r (wireBits data) ^^^ feedAll taps 0 (wireBits ed) := by
  have hbits : (wireBits data).length = (wireBits ed).length := by
    rw [wireBits_length, wireBits_length, hlength]
  rw [wireBits_corrupt hlength, ← feedAll_xor taps hbits]
  congr 1
  exact BitVec.xor_zero.symm

theorem error_of_not_xor {r shown check : BitVec w} (h : ~~~(r ^^^ shown) = ~~~r ^^^ check) :
    shown ^^^ check = 0 := by
  rw [BitVec.not_xor_left, BitVec.xor_right_inj] at h
  rw [h]
  exact BitVec.xor_self

variable {error : List UInt8}

theorem crc8_detects (hlength : error.length = data.length + 1) (hburst : Burst 8 (wireBits error))
    : crc8Valid (corrupt (data ++ [crc8 data]) error) = false := by
  obtain ⟨ed, e, rfl⟩ : ∃ ed e, error = ed ++ [e] := by
    refine ⟨error.dropLast, error.getLast ?_, (List.dropLast_concat_getLast _).symm⟩
    rintro rfl
    cases hlength
  have hdata : data.length = ed.length := by
    rw [List.length_append, List.length_singleton] at hlength
    omega
  have hfed : feedAll crc8Taps 0 (wireBits (ed ++ [e]))
      = (shift crc8Taps)^[8] (feedAll crc8Taps 0 (wireBits ed) ^^^ e.toBitVec) := by
    have happend : wireBits (ed ++ [e]) = wireBits ed ++ octetBits e := by
      unfold wireBits
      rw [List.flatMap_append, List.flatMap_singleton]
    rw [happend, feedAll_append, feedAll_octet (Nat.le_refl 8), BitVec.setWidth_eq]
  rw [corrupt_append hdata]
  cases hvalid : crc8Valid (corrupt data ed ++ corrupt [crc8 data] [e]) with
  | false => rfl
  | true =>
    have hsame : crc8 (corrupt data ed) = crc8 data ^^^ e := by
      have hcheck : crc8Valid (corrupt data ed ++ [crc8 data ^^^ e]) = true := hvalid
      simpa [crc8Valid] using hcheck
    have hbits := congrArg UInt8.toBitVec hsame
    have hregister : ∀ octets, (crc8 octets).toBitVec
        = ~~~feedAll crc8Taps (0xFF : UInt8).toBitVec (wireBits octets) := by
      intro octets
      rw [← crc8Register_eq]
      rfl
    rw [UInt8.toBitVec_xor, hregister, hregister, feedAll_corrupt _ _ hdata] at hbits
    rw [error_of_not_xor hbits, iterate_shift_zero] at hfed
    exact absurd hfed (feedAll_burst crc8Taps (by decide) hburst)

theorem crc16_detects (hlength : error.length = data.length + 2)
    (hburst : Burst 16 (wireBits error)) :
    crc16Valid (corrupt (data ++ u16ToLe (crc16 data)) error) = false := by
  obtain ⟨ed, el, eh, rfl⟩ : ∃ ed el eh, error = ed ++ [el, eh] := by
    have htwo : (error.drop data.length).length = 2 := by
      rw [List.length_drop]
      omega
    obtain ⟨el, eh, hcheck⟩ : ∃ el eh, error.drop data.length = [el, eh] := by
      match error.drop data.length, htwo with
      | [el, eh], _ => exact ⟨el, eh, rfl⟩
    refine ⟨error.take data.length, el, eh, ?_⟩
    rw [← hcheck, List.take_append_drop]
  have hdata : data.length = ed.length := by
    rw [List.length_append] at hlength
    exact (Nat.add_right_cancel hlength).symm
  have hfed : feedAll crc16Taps 0 (wireBits (ed ++ [el, eh]))
      = (shift crc16Taps)^[16]
        (feedAll crc16Taps 0 (wireBits ed) ^^^ (u16FromLe el eh).toBitVec) := by
    have happend : wireBits (ed ++ [el, eh]) = wireBits ed ++ wireBits [el, eh] := by
      unfold wireBits
      rw [List.flatMap_append]
    have hword : (wireBits [el, eh]).length = 16 := by
      rw [wireBits_length]
      rfl
    rw [happend, feedAll_append, feedAll_word _ _ hword.le, hword, u16FromLe_eq]
  rw [corrupt_append hdata]
  cases hvalid : crc16Valid (corrupt data ed ++ corrupt (u16ToLe (crc16 data)) [el, eh]) with
  | false => rfl
  | true =>
    have hstored : ∀ lo hi : UInt8, (u16FromLe (lo ^^^ el) (hi ^^^ eh)).toBitVec
        = (u16FromLe lo hi).toBitVec ^^^ (u16FromLe el eh).toBitVec := by
      intro lo hi
      rw [u16FromLe_eq, u16FromLe_eq, u16FromLe_eq,
        show [lo ^^^ el, hi ^^^ eh] = corrupt [lo, hi] [el, eh] from rfl,
        wireBits_corrupt (show [lo, hi].length = [el, eh].length from rfl)]
      refine BitVec.eq_of_getLsbD_eq ?_
      intro i hi'
      rw [BitVec.getLsbD_xor, getLsbD_word _ hi', getLsbD_word _ hi', getLsbD_word _ hi']
      have hlo : i < (wireBits [lo, hi]).length := by rw [wireBits_length]; exact hi'
      have hel : i < (wireBits [el, eh]).length := by rw [wireBits_length]; exact hi'
      simp [List.getD_eq_getElem?_getD, hlo, hel]
    have hsame : crc16 (corrupt data ed)
        = u16FromLe (UInt8.ofNat (crc16 data).toNat ^^^ el)
          (UInt8.ofNat ((crc16 data).toNat / 256) ^^^ eh) := by
      have hlen : (corrupt data ed ++ [UInt8.ofNat (crc16 data).toNat ^^^ el,
          UInt8.ofNat ((crc16 data).toNat / 256) ^^^ eh]).length - 2
            = (corrupt data ed).length := by
        simp
      have hcheck : crc16Valid (corrupt data ed ++ [UInt8.ofNat (crc16 data).toNat ^^^ el,
          UInt8.ofNat ((crc16 data).toNat / 256) ^^^ eh]) = true := hvalid
      unfold crc16Valid at hcheck
      split_ifs at hcheck
      dsimp only at hcheck
      rw [hlen, List.take_left, List.getD_append_right _ _ _ _ (Nat.le_refl _),
        List.getD_append_right _ _ _ _ (Nat.le_succ _)] at hcheck
      simpa using hcheck
    have hbits := congrArg UInt16.toBitVec hsame
    have hregister : ∀ octets, (crc16 octets).toBitVec
        = ~~~feedAll crc16Taps (0xFFFF : UInt16).toBitVec (wireBits octets) := by
      intro octets
      rw [← crc16Register_eq]
      rfl
    rw [hstored, u16FromLe_toLe, hregister, hregister, feedAll_corrupt _ _ hdata] at hbits
    rw [error_of_not_xor hbits, iterate_shift_zero] at hfed
    exact absurd hfed (feedAll_burst crc16Taps (by decide) hburst)

/-- **Burst detection.** Adding a nonzero error to the wire bits of a field and its CRC makes the
check fail, whatever the field, if the error's bits span at most the register's width. -/
theorem crc_detects_bursts (data error : List UInt8) :
    (error.length = data.length + 2 → Burst 16 (wireBits error) →
      crc16Valid (corrupt (data ++ u16ToLe (crc16 data)) error) = false) ∧
    (error.length = data.length + 1 → Burst 8 (wireBits error) →
      crc8Valid (corrupt (data ++ [crc8 data]) error) = false) :=
  ⟨crc16_detects, crc8_detects⟩

theorem crc_detects_bursts_across :
    crc16Valid (corrupt ([1, 2, 3] ++ u16ToLe (crc16 [1, 2, 3])) [0, 0, 0x80, 0x01, 0]) = false ∧
      crc8Valid (corrupt ([1, 2, 3] ++ [crc8 [1, 2, 3]]) [0, 0, 0x80, 0x01]) = false := by
  have hspans : ∀ width, 2 ≤ width → ∀ {bits : List Bool},
      (∀ i < bits.length, bits[i]? = some true → 23 ≤ i ∧ i < 25) →
      ∃ start, ∀ i, bits[i]? = some true → start ≤ i ∧ i < start + width := by
    intro width hwidth bits hbits
    refine ⟨23, ?_⟩
    intro i hi
    have := hbits i (List.getElem?_eq_some_iff.mp hi).1 hi
    omega
  exact ⟨(crc_detects_bursts [1, 2, 3] [0, 0, 0x80, 0x01, 0]).1 rfl
      ⟨by decide, hspans 16 (by decide) (by decide)⟩,
    (crc_detects_bursts [1, 2, 3] [0, 0, 0x80, 0x01]).2 rfl
      ⟨by decide, hspans 8 (by decide) (by decide)⟩⟩

end RustyBacnet.Mstp
