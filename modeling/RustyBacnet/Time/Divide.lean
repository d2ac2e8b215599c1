import Mathlib.Data.Nat.Size
import Mathlib.Tactic.Linarith
import Mathlib.Tactic.Ring
import Mathlib.Tactic.SplitIfs
import RustyBacnet.Time

/-!
# Division without a division routine

`divide.rs`: the quotient and the remainder of two `u64`s by shifts, compares and subtractions, and
`checked_rem` on durations. With `steps` to go the divisor is shifted by one less, what is left of
the dividend is below twice that, and `n = quotient * d * 2 ^ steps + rest` (`divRemLoop_eq`).
-/

namespace RustyBacnet

/-- The number of `u64`s. -/
def u64Count : ℕ := 2 ^ 64

/-- `u64::leading_zeros`. -/
def leadingZeros (n : ℕ) : ℕ := 64 - n.size

/-- `div_rem`'s loop: one bit of the quotient a step, from the top. -/
def divRemLoop : ℕ → ℕ → ℕ → ℕ → ℕ × ℕ
  | 0, _, rest, quotient => (quotient, rest)
  | steps + 1, step, rest, quotient =>
    let quotient := quotient * 2 % u64Count
    if step ≤ rest then divRemLoop steps (step / 2) (rest - step) (quotient ||| 1)
    else divRemLoop steps (step / 2) rest quotient

/-- `(n / d, n % d)` for a nonzero `d`. -/
def divRem (n d : ℕ) : ℕ × ℕ :=
  if d = 0 ∨ n < d then (0, n)
  else
    let shift := leadingZeros d - leadingZeros n
    divRemLoop (shift + 1) (d * 2 ^ shift % u64Count) n 0

/-- `Duration::checked_rem`. -/
def checkedRem (n d : Duration) : Option Duration := if d = 0 then none else some (divRem n d).2

theorem or_one_of_even (n : ℕ) : n * 2 ||| 1 = n * 2 + 1 := by
  have h := Nat.two_pow_add_eq_or_of_lt (i := 1) (by decide : 1 < 2 ^ 1) n
  rw [pow_one, Nat.mul_comm] at h
  exact h.symm

/-- The loop divides: the quotient so far stays below its bound, so no bit of it is lost. -/
theorem divRemLoop_eq (steps d rest quotient : ℕ) (hrest : rest < d * 2 ^ steps)
    (hsmall : quotient * 2 ^ steps + 2 ^ steps ≤ u64Count) :
    divRemLoop steps (d * 2 ^ steps / 2) rest quotient
      = (quotient * 2 ^ steps + rest / d, rest % d) := by
  induction steps generalizing rest quotient with
  | zero =>
    rw [pow_zero, Nat.mul_one] at hrest ⊢
    rw [Nat.mul_one, Nat.div_eq_of_lt hrest, Nat.mod_eq_of_lt hrest]
    rfl
  | succ steps ih =>
    have hhalf : d * 2 ^ (steps + 1) / 2 = d * 2 ^ steps := by
      rw [pow_succ, ← Nat.mul_assoc, Nat.mul_div_cancel _ Nat.two_pos]
    have hd : 0 < d := by
      rcases Nat.eq_zero_or_pos d with rfl | hpos
      · rw [Nat.zero_mul] at hrest
        exact absurd hrest (Nat.not_lt_zero _)
      · exact hpos
    have hpow : 0 < 2 ^ steps := Nat.two_pow_pos steps
    rw [pow_succ] at hsmall
    rw [pow_succ, ← Nat.mul_assoc, Nat.mul_two] at hrest
    have hkept : quotient * 2 % u64Count = quotient * 2 := by
      apply Nat.mod_eq_of_lt
      nlinarith only [hsmall, hpow]
    unfold divRemLoop
    dsimp only
    rw [hhalf, hkept]
    split_ifs with hstep
    · rw [or_one_of_even, ih (rest - d * 2 ^ steps) _ (by omega) (by nlinarith only [hsmall])]
      obtain ⟨more, rfl⟩ := Nat.exists_eq_add_of_le hstep
      rw [Nat.add_sub_cancel_left, Nat.add_comm (d * 2 ^ steps), Nat.add_mul_div_left _ _ hd,
        Nat.add_mul_mod_self_left]
      congr 1
      ring
    · rw [ih rest _ (by omega) (by nlinarith only [hsmall])]
      congr 1
      ring

/-- Shifted by the difference of the leading zeros the divisor keeps its bits and has the top bit of
the dividend, which is below twice that. -/
theorem aligned {n d : ℕ} (hn : n < u64Count) (hd : d ≠ 0) (hle : d ≤ n) :
    leadingZeros n ≤ leadingZeros d ∧ leadingZeros d - leadingZeros n < 64 ∧
      d * 2 ^ (leadingZeros d - leadingZeros n) < u64Count ∧
      n < d * 2 ^ (leadingZeros d - leadingZeros n + 1) := by
  have hsizes : d.size ≤ n.size := Nat.size_le_size hle
  have hnsize : n.size ≤ 64 := Nat.size_le.mpr hn
  have hdsize : 0 < d.size := Nat.size_pos.mpr (Nat.pos_of_ne_zero hd)
  have hshift : leadingZeros d - leadingZeros n = n.size - d.size := by
    unfold leadingZeros
    omega
  have hzeros : leadingZeros n ≤ leadingZeros d := by
    unfold leadingZeros
    omega
  rw [hshift]
  refine ⟨hzeros, by omega, ?_, ?_⟩
  · calc d * 2 ^ (n.size - d.size) < 2 ^ d.size * 2 ^ (n.size - d.size) :=
          Nat.mul_lt_mul_of_pos_right (Nat.lt_size_self d) (Nat.two_pow_pos _)
      _ = 2 ^ n.size := by rw [← pow_add, Nat.add_sub_cancel' hsizes]
      _ ≤ 2 ^ 64 := Nat.pow_le_pow_right Nat.two_pos hnsize
  · have htop : 2 ^ (d.size - 1) ≤ d := Nat.lt_size.mp (by omega)
    calc n < 2 ^ n.size := Nat.lt_size_self n
      _ = 2 ^ (d.size - 1) * 2 ^ (n.size - d.size + 1) := by
          rw [← pow_add]
          congr 1
          omega
      _ ≤ d * 2 ^ (n.size - d.size + 1) := Nat.mul_le_mul_right _ htop

/-- `div_rem` is division on nonzero divisors. -/
theorem divRem_eq {n d : ℕ} (hn : n < u64Count) (hd : d ≠ 0) : divRem n d = (n / d, n % d) := by
  unfold divRem
  by_cases hlt : n < d
  · rw [if_pos (.inr hlt), Nat.div_eq_of_lt hlt, Nat.mod_eq_of_lt hlt]
  rw [if_neg (by rw [not_or]; exact ⟨hd, hlt⟩)]
  dsimp only
  obtain ⟨-, hshift, hfits, hrest⟩ := aligned hn hd (Nat.not_lt.mp hlt)
  set shift := leadingZeros d - leadingZeros n
  have hstart : d * 2 ^ (shift + 1) / 2 = d * 2 ^ shift := by
    rw [pow_succ, ← Nat.mul_assoc, Nat.mul_div_cancel _ Nat.two_pos]
  rw [Nat.mod_eq_of_lt hfits, ← hstart, divRemLoop_eq _ _ _ _ hrest, Nat.zero_mul, Nat.zero_add]
  rw [Nat.zero_mul, Nat.zero_add]
  exact Nat.pow_le_pow_right Nat.two_pos hshift

theorem checkedRem_eq {n d : Duration} (hn : n < u64Count) (hd : d ≠ 0) :
    checkedRem n d = some (n % d) := by
  unfold checkedRem
  rw [if_neg hd, divRem_eq hn hd]

end RustyBacnet
