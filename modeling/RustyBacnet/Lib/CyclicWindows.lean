import Mathlib.Data.Nat.Basic
import Mathlib.Data.Nat.ModEq
import Mathlib.Order.Bounds.Basic
import Mathlib.Tactic.Ring

/-!
# Windows that come round

A member of a group may act in a window of its own: the first opens at a given time, and another
opens each cycle after it. When the windows are slots of one cycle, numbered from a common start, no
two members ever have one open at the same time (`InWindow.slot_eq`).
-/

namespace CyclicWindows

variable {first cycle slot now : ℕ}

/-- A window is open: the first opens at `first`, and one each `cycle` after it. -/
def InWindow (first cycle slot now : ℕ) : Prop :=
  ∃ k, first + k * cycle ≤ now ∧ now < first + k * cycle + slot

def LaterStarts (first cycle now : ℕ) : Set ℕ := {start | now < start ∧ ∃ k, start = first + k * cycle}

/-- A window is open in the first `slot` of each cycle. -/
theorem inWindow_iff (hslot : slot ≤ cycle) (hfirst : first ≤ now) :
    InWindow first cycle slot now ↔ (now - first) % cycle < slot := by
  constructor
  · rintro ⟨k, hopen, hclosed⟩
    have hsplit : now - first = now - (first + k * cycle) + cycle * k := by
      rw [Nat.mul_comm cycle]
      omega
    rw [hsplit, Nat.add_mul_mod_self_left, Nat.mod_eq_of_lt (by omega)]
    omega
  · intro hoffset
    have hsplit := Nat.mod_add_div (now - first) cycle
    rw [Nat.mul_comm cycle] at hsplit
    exact ⟨(now - first) / cycle, by omega, by omega⟩

theorem not_inWindow (h : now < first) : ¬ InWindow first cycle slot now := by
  rintro ⟨k, hopen, -⟩
  omega

theorem isLeast_first (h : now < first) : IsLeast (LaterStarts first cycle now) first := by
  refine ⟨⟨h, 0, by omega⟩, ?_⟩
  rintro start ⟨-, k, rfl⟩
  exact Nat.le_add_right _ _

theorem isLeast_next (hcycle : 0 < cycle) (h : first ≤ now) :
    IsLeast (LaterStarts first cycle now) (now - (now - first) % cycle + cycle) := by
  have hlt := Nat.mod_lt (now - first) hcycle
  have hle := Nat.mod_le (now - first) cycle
  have hsplit := Nat.mod_add_div (now - first) cycle
  have hstart : now - (now - first) % cycle + cycle
      = first + ((now - first) / cycle + 1) * cycle := by
    rw [Nat.add_mul, Nat.one_mul, Nat.mul_comm _ cycle]
    omega
  refine ⟨⟨by omega, _, hstart⟩, ?_⟩
  rintro start ⟨hlater, k, rfl⟩
  rw [hstart]
  have hk : (now - first) / cycle < k := by
    rw [Nat.div_lt_iff_lt_mul hcycle]
    omega
  exact Nat.add_le_add_left (Nat.mul_le_mul_right _ hk) _

theorem InWindow.slot_eq {base member members : ℕ} (hmember : member < members)
    (h : InWindow (base + slot * member) (slot * members) slot now) :
    (now - base) / slot % members = member := by
  obtain ⟨k, hopen, hclosed⟩ := h
  have hslot : 0 < slot := by omega
  have hwhere : base + slot * member + k * (slot * members) = base + slot * (member + members * k) := by
    ring
  rw [hwhere] at hopen hclosed
  have hquotient : (now - base) / slot = member + members * k := by
    rw [Nat.div_eq_iff hslot, Nat.mul_comm _ slot]
    omega
  rw [hquotient, Nat.add_mul_mod_self_left, Nat.mod_eq_of_lt hmember]

end CyclicWindows
