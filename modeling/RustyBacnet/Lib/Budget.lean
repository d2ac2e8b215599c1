import Mathlib.Algebra.BigOperators.Group.Finset.Basic
import Mathlib.Algebra.BigOperators.Group.List.Basic
import Mathlib.Algebra.GroupWithZero.Nat
import Mathlib.Algebra.Order.BigOperators.Group.List
import Mathlib.Algebra.Order.BigOperators.Group.Finset

/-!
# Budgets

A machine that pays for some of its steps from a budget no step refills makes at most as many
payments as the budget holds.

`spread` is the budget of a token with some rounds left, where in each round it may be passed on
`fan` times, each time to `reach` places, one round poorer.
-/

namespace RustyBacnet.Budget

/-- A budget for what the runs of a machine spend. -/
structure Certificate {S M : Type*} (step : S → M → S) (spent : S → ℕ) where
  inv : S → Prop
  budget : S → ℕ
  keeps : ∀ s move, inv s → inv (step s move)
  pays : ∀ s move, inv s → spent (step s move) + budget (step s move) ≤ spent s + budget s

theorem Certificate.run_le {S M : Type*} {step : S → M → S} {spent : S → ℕ}
    (certificate : Certificate step spent) (moves : List M) {s : S} (h : certificate.inv s) :
    spent (moves.foldl step s) ≤ spent s + certificate.budget s := by
  induction moves generalizing s with
  | nil => exact Nat.le_add_right _ _
  | cons move moves ih =>
    have hrest := ih (certificate.keeps s move h)
    have hpays := certificate.pays s move h
    rw [List.foldl_cons]
    exact hrest.trans hpays

/-- How often a token with so many rounds left can be passed on in all. -/
def spread (fan reach : ℕ) : ℕ → ℕ
  | 0 => 0
  | rounds + 1 => fan * (1 + reach * spread fan reach rounds)

theorem spread_succ (fan reach rounds : ℕ) :
    spread fan reach (rounds + 1) = fan * (1 + reach * spread fan reach rounds) := rfl

theorem spread_mono {fan reach : ℕ} (hfan : 0 < fan) (hreach : 0 < reach) :
    Monotone (spread fan reach) := by
  refine monotone_nat_of_le_succ fun rounds => ?_
  rw [spread_succ]
  calc spread fan reach rounds
      ≤ reach * spread fan reach rounds := Nat.le_mul_of_pos_left _ hreach
    _ ≤ 1 + reach * spread fan reach rounds := Nat.le_add_left _ _
    _ ≤ fan * (1 + reach * spread fan reach rounds) := Nat.le_mul_of_pos_left _ hfan

theorem sum_change {ι : Type*} [Fintype ι] [DecidableEq ι] {f g : ι → ℕ} (i : ι)
    (h : ∀ j, j ≠ i → g j = f j) : ∑ j, g j + f i = ∑ j, f j + g i := by
  have hf : f i + ∑ j ∈ Finset.univ.erase i, f j = ∑ j, f j :=
    Finset.add_sum_erase _ f (Finset.mem_univ i)
  have hg : g i + ∑ j ∈ Finset.univ.erase i, g j = ∑ j, g j :=
    Finset.add_sum_erase _ g (Finset.mem_univ i)
  have hrest : ∑ j ∈ Finset.univ.erase i, g j = ∑ j ∈ Finset.univ.erase i, f j :=
    Finset.sum_congr rfl fun j hj => h j (Finset.ne_of_mem_erase hj)
  omega

variable {α : Type*}

theorem sum_map_erase [DecidableEq α] (f : α → ℕ) {x : α} {xs : List α} (h : x ∈ xs) :
    ((xs.erase x).map f).sum + f x = (xs.map f).sum := by
  rw [((List.perm_cons_erase h).map f).sum_eq, List.map_cons, List.sum_cons, Nat.add_comm]

theorem sum_map_erase_le [DecidableEq α] (f : α → ℕ) (x : α) (xs : List α) :
    ((xs.erase x).map f).sum ≤ (xs.map f).sum := by
  by_cases h : x ∈ xs
  · exact (Nat.le_add_right _ _).trans_eq (sum_map_erase f h)
  · rw [List.erase_of_not_mem h]

end RustyBacnet.Budget
