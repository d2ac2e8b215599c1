import Mathlib.Data.List.GetD
import Mathlib.Logic.Function.Iterate
import Mathlib.Tactic.SplitIfs

/-!
# Linear feedback shift registers

A register of `w` bits shifts right and takes its feedback taps in whenever it shifts a one out. One
bit at a time is fed into its low end. The register is linear, so what an error adds to the fed bits
shows in the register as the error fed alone. With a tap at the top nothing is lost in a shift, and
at most `w` bits fed into an empty register are just those bits shifted: an error whose bits lie in a
window of `w` leaves the register nonzero (`feedAll_burst`).
-/

namespace RustyBacnet.ShiftRegister

variable {w : ℕ} (taps : BitVec w)

def shift (r : BitVec w) : BitVec w :=
  if r.getLsbD 0 then (r >>> 1) ^^^ taps else r >>> 1

def bit (b : Bool) : BitVec w := (BitVec.ofBool b).setWidth w

def feed (r : BitVec w) (b : Bool) : BitVec w := shift taps (r ^^^ bit b)

def feedAll (r : BitVec w) (bits : List Bool) : BitVec w := bits.foldl (feed taps) r

/-! ## Shifting -/

@[simp] theorem shift_zero : shift taps 0 = 0 := by
  unfold shift
  simp

theorem shift_xor (a b : BitVec w) : shift taps (a ^^^ b) = shift taps a ^^^ shift taps b := by
  unfold shift
  rw [BitVec.getLsbD_xor, BitVec.ushiftRight_xor_distrib]
  cases a.getLsbD 0 with
  | false =>
    cases b.getLsbD 0 with
    | false => rfl
    | true => exact BitVec.xor_assoc _ _ _
  | true =>
    cases b.getLsbD 0 with
    | false =>
      show a >>> 1 ^^^ b >>> 1 ^^^ taps = a >>> 1 ^^^ taps ^^^ b >>> 1
      rw [BitVec.xor_assoc, BitVec.xor_comm (b >>> 1), BitVec.xor_assoc]
    | true =>
      show a >>> 1 ^^^ b >>> 1 = a >>> 1 ^^^ taps ^^^ (b >>> 1 ^^^ taps)
      rw [BitVec.xor_assoc, BitVec.xor_comm (b >>> 1), ← BitVec.xor_assoc taps, BitVec.xor_self,
        BitVec.zero_xor]

theorem iterate_shift_zero (n : ℕ) : (shift taps)^[n] 0 = 0 :=
  Function.iterate_fixed (shift_zero taps) n

theorem iterate_shift_xor (n : ℕ) (a b : BitVec w) :
    (shift taps)^[n] (a ^^^ b) = (shift taps)^[n] a ^^^ (shift taps)^[n] b := by
  induction n generalizing a b with
  | zero => rfl
  | succ n ih => rw [Function.iterate_succ_apply, shift_xor, ih]; rfl

variable {r : BitVec w}

theorem eq_zero_of_shift (htop : taps.msb = true) (h : shift taps r = 0) : r = 0 := by
  have hw : 0 < w := by
    by_contra hnone
    obtain rfl : w = 0 := by omega
    rw [BitVec.eq_nil taps] at htop
    exact absurd htop (by decide)
  rw [BitVec.msb_eq_getLsbD_last] at htop
  unfold shift at h
  cases hlow : r.getLsbD 0 with
  | true =>
    rw [hlow, if_pos rfl] at h
    have hbit := congrArg (BitVec.getLsbD · (w - 1)) h
    rw [BitVec.getLsbD_xor, BitVec.getLsbD_ushiftRight, htop,
      BitVec.getLsbD_of_ge r _ (by omega)] at hbit
    simp at hbit
  | false =>
    rw [hlow, if_neg Bool.false_ne_true] at h
    refine BitVec.eq_of_getLsbD_eq ?_
    intro i hi
    cases i with
    | zero => simpa using hlow
    | succ i =>
      have hbit := congrArg (BitVec.getLsbD · i) h
      rw [BitVec.getLsbD_ushiftRight, Nat.add_comm] at hbit
      exact hbit.trans (by simp)

theorem eq_zero_of_iterate_shift (htop : taps.msb = true) (n : ℕ) (h : (shift taps)^[n] r = 0) :
    r = 0 := by
  induction n generalizing r with
  | zero => exact h
  | succ n ih => exact eq_zero_of_shift taps htop (ih h)

/-- A register with its low `n` bits clear only moves down. -/
theorem iterate_shift_clear (n : ℕ) (h : ∀ i < n, r.getLsbD i = false) :
    (shift taps)^[n] r = r >>> n := by
  induction n generalizing r with
  | zero => exact (BitVec.ushiftRight_zero r).symm
  | succ n ih =>
    have hshift : shift taps r = r >>> 1 := by
      unfold shift
      rw [h 0 (Nat.succ_pos n), if_neg Bool.false_ne_true]
    rw [Function.iterate_succ_apply, hshift, ih, Nat.add_comm, BitVec.shiftRight_add]
    intro i hi
    rw [BitVec.getLsbD_ushiftRight, Nat.add_comm]
    exact h (i + 1) (by omega)

/-- The low `n` bits are shifted out, and the rest moves down: `n` shifts by way of a table. -/
theorem iterate_shift_split (n : ℕ) (r : BitVec w) {mask : BitVec w}
    (hmask : ∀ i < w, mask.getLsbD i = decide (i < n)) :
    (shift taps)^[n] r = (r >>> n) ^^^ (shift taps)^[n] (r &&& mask) := by
  have hsplit : r = (r &&& ~~~mask) ^^^ (r &&& mask) := by
    refine BitVec.eq_of_getLsbD_eq ?_
    intro i hi
    rw [BitVec.getLsbD_xor, BitVec.getLsbD_and, BitVec.getLsbD_and, BitVec.getLsbD_not,
      decide_eq_true hi]
    cases mask.getLsbD i with
    | false => simp
    | true => simp
  have hclear : ∀ i < n, (r &&& ~~~mask).getLsbD i = false := by
    intro i hi
    rw [BitVec.getLsbD_and, BitVec.getLsbD_not]
    by_cases hw : i < w
    · rw [hmask i hw, decide_eq_true hi]
      simp
    · simp [hw]
  have hdown : (r &&& ~~~mask) >>> n = r >>> n := by
    refine BitVec.eq_of_getLsbD_eq ?_
    intro i _
    rw [BitVec.getLsbD_ushiftRight, BitVec.getLsbD_ushiftRight, BitVec.getLsbD_and,
      BitVec.getLsbD_not]
    by_cases hw : n + i < w
    · have hkept : ¬ n + i < n := by omega
      rw [hmask _ hw, decide_eq_false hkept]
      simp [hw]
    · rw [BitVec.getLsbD_of_ge r _ (by omega), Bool.false_and]
  calc (shift taps)^[n] r = (shift taps)^[n] ((r &&& ~~~mask) ^^^ (r &&& mask)) :=
        congrArg _ hsplit
    _ = (r >>> n) ^^^ (shift taps)^[n] (r &&& mask) := by
        rw [iterate_shift_xor, iterate_shift_clear taps n hclear, hdown]

theorem and_one_eq_zero : r &&& 1#w = 0#w ↔ r.getLsbD 0 = false := by
  rw [BitVec.and_one_eq_setWidth_ofBool_getLsbD]
  cases hbit : r.getLsbD 0 with
  | false => exact iff_of_true (by simp) rfl
  | true =>
    refine iff_of_false ?_ (by decide)
    intro hzero
    have hw : 0 < w := by
      by_contra hnone
      rw [BitVec.getLsbD_of_ge r 0 (by omega)] at hbit
      cases hbit
    have hlow := congrArg (BitVec.getLsbD · 0) hzero
    simp [hw] at hlow

/-- A register that tests its lowest bit by a mask shifts. -/
theorem ite_eq_shift {p : Prop} [Decidable p] (h : p ↔ r.getLsbD 0 = true) :
    (if p then (r >>> 1) ^^^ taps else r >>> 1) = shift taps r := by
  unfold shift
  split_ifs with hset hbit hbit
  · rfl
  · exact absurd (h.mp hset) hbit
  · exact absurd (h.mpr hbit) hset
  · rfl

/-! ## Feeding -/

theorem feedAll_append (r : BitVec w) (xs ys : List Bool) :
    feedAll taps r (xs ++ ys) = feedAll taps (feedAll taps r xs) ys :=
  List.foldl_append

theorem bit_xor (a b : Bool) : (bit (a ^^ b) : BitVec w) = bit a ^^^ bit b := by
  cases a with
  | false => simp [bit]
  | true =>
    cases b with
    | false => simp [bit]
    | true => simp [bit]

theorem feed_xor (r s : BitVec w) (a b : Bool) :
    feed taps (r ^^^ s) (a ^^ b) = feed taps r a ^^^ feed taps s b := by
  unfold feed
  rw [← shift_xor, bit_xor]
  congr 1
  rw [BitVec.xor_assoc, BitVec.xor_assoc, ← BitVec.xor_assoc s, BitVec.xor_comm s,
    BitVec.xor_assoc (bit a)]

theorem feedAll_xor {xs ys : List Bool} (hlength : xs.length = ys.length) (r s : BitVec w) :
    feedAll taps (r ^^^ s) (List.zipWith Bool.xor xs ys)
      = feedAll taps r xs ^^^ feedAll taps s ys := by
  induction xs generalizing ys r s with
  | nil =>
    cases ys with
    | nil => rfl
    | cons y ys => cases hlength
  | cons x xs ih =>
    cases ys with
    | nil => cases hlength
    | cons y ys =>
      show feedAll taps (feed taps (r ^^^ s) (x ^^ y)) (List.zipWith Bool.xor xs ys) = _
      rw [feed_xor, ih (Nat.succ.inj hlength)]
      rfl

variable {bits : List Bool}

theorem feedAll_zeros (r : BitVec w) (h : ∀ b ∈ bits, b = false) :
    feedAll taps r bits = (shift taps)^[bits.length] r := by
  induction bits generalizing r with
  | nil => rfl
  | cons b bits ih =>
    have hb : b = false := h b List.mem_cons_self
    subst hb
    have hfeed : feed taps r false = shift taps r := by
      unfold feed bit
      simp
    show feedAll taps (feed taps r false) bits = _
    rw [hfeed, ih _ fun b hb => h b (List.mem_cons_of_mem _ hb)]
    rfl

/-! ## A word at once -/

def word (bits : List Bool) : BitVec w :=
  BitVec.ofNat w (bits.foldr (fun b n => b.toNat + 2 * n) 0)

theorem getLsbD_word (bits : List Bool) {i : ℕ} (hi : i < w) :
    (word bits : BitVec w).getLsbD i = bits.getD i false := by
  unfold word
  rw [BitVec.getLsbD_ofNat, decide_eq_true hi, Bool.true_and]
  clear hi
  induction bits generalizing i with
  | nil => simp
  | cons b bits ih =>
    rw [List.foldr_cons]
    cases i with
    | zero =>
      rw [Nat.testBit_zero, List.getD_cons_zero]
      cases b with
      | false => simp
      | true => simp [Nat.add_mod]
    | succ i =>
      rw [Nat.testBit_succ, List.getD_cons_succ, ← ih]
      congr 1
      cases b with
      | false => simp
      | true =>
        rw [Bool.toNat_true]
        omega

theorem word_cons (b : Bool) (bits : List Bool) :
    (word (b :: bits) : BitVec w) = bit b ^^^ (word bits <<< 1) := by
  refine BitVec.eq_of_getLsbD_eq ?_
  intro i hi
  rw [getLsbD_word _ hi, BitVec.getLsbD_xor, BitVec.getLsbD_shiftLeft]
  unfold bit
  cases i with
  | zero => simp [hi]
  | succ i =>
    have hbelow : i < w := by omega
    simp [hi, getLsbD_word _ hbelow]

/-- At most `w` bits are fed as one word. -/
theorem feedAll_word (r : BitVec w) (hfits : bits.length ≤ w) :
    feedAll taps r bits = (shift taps)^[bits.length] (r ^^^ word bits) := by
  induction bits generalizing r with
  | nil => exact BitVec.xor_zero.symm
  | cons b bits ih =>
    rw [List.length_cons] at hfits
    have hdown : shift taps (word bits <<< 1) = word bits := by
      have hclear : ∀ i < 1, (word bits <<< 1 : BitVec w).getLsbD i = false := by
        intro i hi
        rw [BitVec.getLsbD_shiftLeft]
        simp [hi]
      have hshift := iterate_shift_clear taps 1 hclear
      rw [Function.iterate_one] at hshift
      rw [hshift]
      refine BitVec.eq_of_getLsbD_eq ?_
      intro i hi
      rw [BitVec.getLsbD_ushiftRight, BitVec.getLsbD_shiftLeft, getLsbD_word _ hi]
      by_cases hlast : 1 + i < w
      · rw [Nat.add_sub_cancel_left, getLsbD_word _ hi]
        simp [hlast]
      · rw [List.getD_eq_default _ _ (by omega)]
        simp [hlast]
    show feedAll taps (feed taps r b) bits = (shift taps)^[bits.length + 1] (r ^^^ word (b :: bits))
    rw [ih _ (by omega), Function.iterate_succ_apply]
    congr 1
    unfold feed
    rw [word_cons b bits, ← BitVec.xor_assoc, shift_xor taps (r ^^^ bit b), hdown]

theorem word_ne_zero (hfits : bits.length ≤ w) (hset : true ∈ bits) :
    (word bits : BitVec w) ≠ 0 := by
  intro hzero
  obtain ⟨i, hi, hbit⟩ := List.getElem_of_mem hset
  have hword := getLsbD_word (w := w) bits (i := i) (by omega)
  rw [hzero, List.getD_eq_getElem _ _ hi, hbit] at hword
  simp at hword

/-! ## Bursts -/

/-- Some bit is set, and all that are lie within `width` consecutive places. -/
structure Burst (width : ℕ) (bits : List Bool) : Prop where
  set : true ∈ bits
  spans : ∃ start, ∀ i, bits[i]? = some true → start ≤ i ∧ i < start + width

theorem Burst.split {width : ℕ} (h : Burst width bits) :
    ∃ before window after, bits = before ++ window ++ after ∧ (∀ b ∈ before, b = false) ∧
      (∀ b ∈ after, b = false) ∧ window.length ≤ width ∧ true ∈ window := by
  obtain ⟨start, hspans⟩ := h.spans
  refine ⟨bits.take start, (bits.drop start).take width, (bits.drop start).drop width, ?_, ?_, ?_,
    List.length_take_le _ _, ?_⟩
  · rw [List.append_assoc, List.take_append_drop, List.take_append_drop]
  · intro b hb
    by_contra hset
    rw [Bool.not_eq_false] at hset
    subst hset
    obtain ⟨i, hi, hbit⟩ := List.getElem_of_mem hb
    rw [List.length_take] at hi
    rw [List.getElem_take] at hbit
    have := hspans i (List.getElem?_eq_some_iff.mpr ⟨by omega, hbit⟩)
    omega
  · intro b hb
    by_contra hset
    rw [Bool.not_eq_false] at hset
    subst hset
    rw [List.drop_drop] at hb
    obtain ⟨i, hi, hbit⟩ := List.getElem_of_mem hb
    rw [List.length_drop] at hi
    rw [List.getElem_drop] at hbit
    have := hspans (start + width + i) (List.getElem?_eq_some_iff.mpr ⟨by omega, hbit⟩)
    omega
  · obtain ⟨i, hi, hbit⟩ := List.getElem_of_mem h.set
    have hwithin := hspans i (List.getElem?_eq_some_iff.mpr ⟨hi, hbit⟩)
    refine List.mem_of_getElem? (i := i - start) ?_
    rw [List.getElem?_take, if_pos (by omega), List.getElem?_drop,
      Nat.add_sub_cancel' hwithin.1]
    exact List.getElem?_eq_some_iff.mpr ⟨hi, hbit⟩

theorem feedAll_burst (htop : taps.msb = true) (h : Burst w bits) : feedAll taps 0 bits ≠ 0 := by
  obtain ⟨before, window, after, rfl, hbefore, hafter, hfits, hset⟩ := h.split
  rw [feedAll_append, feedAll_append, feedAll_zeros taps 0 hbefore, iterate_shift_zero,
    feedAll_word taps 0 hfits, feedAll_zeros taps _ hafter,
    show (0 : BitVec w) ^^^ word window = word window from BitVec.zero_xor]
  intro hzero
  exact word_ne_zero hfits hset (eq_zero_of_iterate_shift taps htop _
    (eq_zero_of_iterate_shift taps htop _ hzero))

end RustyBacnet.ShiftRegister
