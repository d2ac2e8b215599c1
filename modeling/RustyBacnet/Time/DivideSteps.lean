import Mathlib.Data.UInt
import RustyBacnet.Time.Divide

/-!
# The steps of the division on words

`div_rem` again, on `u64` words, with every step that may go wrong made visible: a subtraction that
would go below zero, a shift by the width or more, and a shift that would lose a bit all give `none`.
None of them happens (`divRem_steps`): the loop of words runs along the loop of numbers, whose
invariant leaves room for each bit (`longDivide_eq`).
-/

namespace RustyBacnet

/-- `a - b`, if it does not go below zero. -/
def exactSub (a b : UInt64) : Option UInt64 := if b ≤ a then some (a - b) else none

/-- `a << count`, if the count is below the width and no bit is lost. -/
def exactShl (a : UInt64) (count : ℕ) : Option UInt64 :=
  if count < 64 ∧ a.toNat * 2 ^ count < u64Count then some (a <<< UInt64.ofNat count) else none

/-- The difference of two bit counts, if it does not go below zero. -/
def exactCountSub (a b : ℕ) : Option ℕ := if b ≤ a then some (a - b) else none

def longDivide : ℕ → UInt64 → UInt64 → UInt64 → Option (UInt64 × UInt64)
  | 0, _, rest, quotient => some (quotient, rest)
  | steps + 1, step, rest, quotient => do
    let quotient ← exactShl quotient 1
    if step ≤ rest then
      let rest ← exactSub rest step
      longDivide steps (step >>> 1) rest (quotient ||| 1)
    else longDivide steps (step >>> 1) rest quotient

/-- `div_rem` on words. -/
def divRemWords (n d : UInt64) : Option (UInt64 × UInt64) :=
  if d = 0 ∨ n < d then some (0, n)
  else do
    let shift ← exactCountSub (leadingZeros d.toNat) (leadingZeros n.toNat)
    let step ← exactShl d shift
    longDivide (shift + 1) step n 0

/-! ## Each step on numbers -/

variable {a : UInt64}

theorem exactSub_of_le {b : UInt64} (h : b ≤ a) :
    ∃ c, exactSub a b = some c ∧ c.toNat = a.toNat - b.toNat :=
  ⟨a - b, if_pos h, UInt64.toNat_sub_of_le _ _ h⟩

theorem exactShl_of_lt {count : ℕ} (hcount : count < 64) (h : a.toNat * 2 ^ count < u64Count) :
    ∃ c, exactShl a count = some c ∧ c.toNat = a.toNat * 2 ^ count := by
  refine ⟨_, if_pos ⟨hcount, h⟩, ?_⟩
  have hword : (UInt64.ofNat count).toNat % 64 = count := by
    rw [UInt64.toNat_ofNat', Nat.mod_eq_of_lt (lt_trans hcount (by decide)), Nat.mod_eq_of_lt hcount]
  rw [UInt64.toNat_shiftLeft, hword, Nat.shiftLeft_eq]
  exact Nat.mod_eq_of_lt h

theorem toNat_shiftRight_one (a : UInt64) : (a >>> 1).toNat = a.toNat / 2 := by
  rw [UInt64.toNat_shiftRight]
  show a.toNat >>> 1 = _
  rw [Nat.shiftRight_eq_div_pow, pow_one]

theorem toNat_or_one (a : UInt64) : (a ||| 1).toNat = a.toNat ||| 1 := UInt64.toNat_or a 1

/-- The loop of words runs along the loop of numbers while the quotient has room for its bits. -/
theorem longDivide_eq (steps : ℕ) : ∀ {step rest quotient : UInt64},
    quotient.toNat * 2 ^ steps + 2 ^ steps ≤ u64Count →
      ∃ q r, longDivide steps step rest quotient = some (q, r) ∧
        divRemLoop steps step.toNat rest.toNat quotient.toNat = (q.toNat, r.toNat) := by
  induction steps with
  | zero => exact fun {_ rest quotient} _ => ⟨quotient, rest, rfl, rfl⟩
  | succ steps ih =>
    intro step rest quotient hsmall
    have hpow : 0 < 2 ^ steps := Nat.two_pow_pos steps
    rw [pow_succ] at hsmall
    have hdouble : quotient.toNat * 2 < u64Count := by
      nlinarith only [hsmall, hpow]
    obtain ⟨doubled, hshl, hdoubled⟩ := exactShl_of_lt (by decide : 1 < 64)
      (by rwa [pow_one] : quotient.toNat * 2 ^ 1 < u64Count)
    rw [pow_one] at hdoubled
    unfold longDivide divRemLoop
    rw [hshl]
    dsimp only [bind, Option.bind]
    rw [Nat.mod_eq_of_lt hdouble, ← hdoubled, ← toNat_shiftRight_one]
    by_cases hstep : step ≤ rest
    · obtain ⟨less, hsub, hless⟩ := exactSub_of_le hstep
      rw [if_pos hstep, if_pos (UInt64.le_iff_toNat_le.mp hstep), hsub, ← hless, ← toNat_or_one]
      apply ih
      rw [toNat_or_one, hdoubled, or_one_of_even]
      nlinarith only [hsmall]
    · rw [if_neg hstep, if_neg (fun hle => hstep (UInt64.le_iff_toNat_le.mpr hle))]
      apply ih
      rw [hdoubled]
      nlinarith only [hsmall]

/-- No step of the division goes wrong, and it divides. -/
theorem divRem_steps (n d : UInt64) (hd : d ≠ 0) :
    divRemWords n d = some (n / d, n % d) ∧
      divRem n.toNat d.toNat = ((n / d).toNat, (n % d).toNat) := by
  have hdpos : d.toNat ≠ 0 := fun hzero => hd (UInt64.toNat_inj.mp hzero)
  have hwhole := divRem_eq n.toNat_lt hdpos
  rw [← UInt64.toNat_div, ← UInt64.toNat_mod] at hwhole
  refine ⟨?_, hwhole⟩
  unfold divRem at hwhole
  unfold divRemWords
  by_cases hlt : n < d
  · rw [if_pos (.inr (UInt64.lt_iff_toNat_lt.mp hlt))] at hwhole
    obtain ⟨hquotient, hrest⟩ := Prod.mk.inj hwhole
    rw [← UInt64.toNat_zero] at hquotient
    rw [if_pos (.inr hlt), ← UInt64.toNat_inj.mp hquotient, ← UInt64.toNat_inj.mp hrest]
  have hle : d.toNat ≤ n.toNat := UInt64.le_iff_toNat_le.mp (UInt64.not_lt.mp hlt)
  obtain ⟨hzeros, hshift, hfits, -⟩ := aligned n.toNat_lt hdpos hle
  rw [if_neg (by rw [not_or]; exact ⟨hdpos, Nat.not_lt.mpr hle⟩)] at hwhole
  rw [if_neg (by rw [not_or]; exact ⟨hd, hlt⟩)]
  dsimp only at hwhole
  obtain ⟨step, hshl, hstep⟩ := exactShl_of_lt hshift hfits
  have hroom : (0 : UInt64).toNat * 2 ^ (leadingZeros d.toNat - leadingZeros n.toNat + 1)
      + 2 ^ (leadingZeros d.toNat - leadingZeros n.toNat + 1) ≤ u64Count := by
    rw [UInt64.toNat_zero, Nat.zero_mul, Nat.zero_add]
    exact Nat.pow_le_pow_right Nat.two_pos hshift
  obtain ⟨quotient, rest, hloop, hnumbers⟩ := @longDivide_eq _ step n 0 hroom
  rw [Nat.mod_eq_of_lt hfits, ← hstep] at hwhole
  rw [UInt64.toNat_zero, hwhole] at hnumbers
  obtain ⟨hquotient, hrest⟩ := Prod.mk.inj hnumbers
  unfold exactCountSub
  rw [if_pos hzeros]
  dsimp only [bind, Option.bind]
  rw [hshl]
  dsimp only
  rw [hloop, UInt64.toNat_inj.mp hquotient, UInt64.toNat_inj.mp hrest]

/-- The largest word, with its top bit set. -/
theorem divRem_steps_largest :
    divRemWords 18446744073709551615 10 = some (1844674407370955161, 5) :=
  (divRem_steps 18446744073709551615 10 (by decide)).1.trans (by decide)

end RustyBacnet
