import Mathlib.Data.Nat.Basic
import Mathlib.Order.MinMax
import Mathlib.Data.List.ReduceOption

/-!
# Times on the caller's clock

`bacnet-time` counts nanoseconds on a `u64`. An instant and a duration are numbers of nanoseconds
here; subtraction is the truncated one, as the crate's is, and addition saturates at `Instant::MAX`
(`satAdd`). The unit constructors saturate too, but every call the cores make is far below.
-/

namespace RustyBacnet

/-- Nanoseconds since an epoch the caller chooses. -/
abbrev Instant := ℕ

/-- A length of time in nanoseconds. -/
abbrev Duration := ℕ

/-- `Instant::MAX` and `Duration::MAX`. -/
def maxInstant : ℕ := 18446744073709551615

/-- `+` on instants and durations: it stops at the maximum. -/
def satAdd (t d : ℕ) : ℕ := min (t + d) maxInstant

/-- `saturating_mul` on durations. -/
def satMul (d n : ℕ) : ℕ := min (d * n) maxInstant

def fromMicros (n : ℕ) : Duration := min (n * 1000) maxInstant

def fromMillis (n : ℕ) : Duration := min (n * 1000000) maxInstant

def fromSecs (n : ℕ) : Duration := min (n * 1000000000) maxInstant

theorem satAdd_eq {t d : ℕ} (h : t + d ≤ maxInstant) : satAdd t d = t + d := min_eq_left h

theorem satAdd_le_max (t d : ℕ) : satAdd t d ≤ maxInstant := min_le_right _ _

theorem satAdd_mono {t u : ℕ} (d : ℕ) (h : t ≤ u) : satAdd t d ≤ satAdd u d :=
  min_le_min_right _ (Nat.add_le_add_right h d)

/-- The least of the deadlines that are set: `bacnet_time::earliest`. -/
def earliest (deadlines : List (Option Instant)) : Option Instant :=
  deadlines.reduceOption.min?

variable {deadlines : List (Option Instant)} {deadline : Instant}

theorem earliest_eq_some :
    earliest deadlines = some deadline ↔
      some deadline ∈ deadlines ∧ ∀ d, some d ∈ deadlines → deadline ≤ d := by
  unfold earliest
  rw [List.min?_eq_some_iff, List.reduceOption_mem_iff]
  refine and_congr_right fun _ => forall_congr' fun d => ?_
  rw [List.reduceOption_mem_iff]

theorem earliest_isSome (h : some deadline ∈ deadlines) : (earliest deadlines).isSome = true :=
  List.isSome_min?_of_mem (List.reduceOption_mem_iff.mpr h)

end RustyBacnet
