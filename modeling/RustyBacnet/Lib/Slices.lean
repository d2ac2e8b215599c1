import Mathlib.Data.List.Basic

/-!
# Slices of a fixed buffer

A buffer is a list whose length never changes. `slice` reads `count` elements from an offset,
`splice` copies elements over the ones at an offset, and the lemmas say what a read sees after a
copy.
-/

namespace Slices

variable {α : Type*}

/-- The `count` elements of `xs` from `offset`. -/
def slice (xs : List α) (offset count : ℕ) : List α := (xs.drop offset).take count

/-- `xs` with `ys` copied over its elements from `offset`. -/
def splice (xs : List α) (offset : ℕ) (ys : List α) : List α :=
  xs.take offset ++ ys ++ xs.drop (offset + ys.length)

theorem length_slice {xs : List α} {offset count : ℕ} (h : offset + count ≤ xs.length) :
    (slice xs offset count).length = count := by
  unfold slice
  rw [List.length_take, List.length_drop]
  omega

@[simp] theorem slice_zero (xs : List α) (offset : ℕ) : slice xs offset 0 = [] := by
  simp [slice]

theorem slice_add (xs : List α) (offset m n : ℕ) :
    slice xs offset (m + n) = slice xs offset m ++ slice xs (offset + m) n := by
  unfold slice
  rw [List.take_add, List.drop_drop]

theorem drop_slice (xs : List α) (offset count n : ℕ) :
    (slice xs offset count).drop n = slice xs (offset + n) (count - n) := by
  unfold slice
  rw [List.drop_take, List.drop_drop]

variable {xs ys : List α} {offset : ℕ}

theorem length_splice (h : offset + ys.length ≤ xs.length) :
    (splice xs offset ys).length = xs.length := by
  unfold splice
  simp only [List.length_append, List.length_take, List.length_drop]
  omega

variable {n : ℕ}

theorem take_splice (hn : n ≤ offset) (h : offset ≤ xs.length) :
    (splice xs offset ys).take n = xs.take n := by
  have hlen : (xs.take offset).length = offset := by
    rw [List.length_take]
    omega
  unfold splice
  rw [List.append_assoc, List.take_append_of_le_length (by omega), List.take_take,
    Nat.min_eq_left hn]

theorem drop_splice (hn : offset + ys.length ≤ n) (h : offset ≤ xs.length) :
    (splice xs offset ys).drop n = xs.drop n := by
  have hlen : (xs.take offset ++ ys).length = offset + ys.length := by
    rw [List.length_append, List.length_take]
    omega
  unfold splice
  rw [List.drop_append, List.drop_eq_nil_of_le (by omega), List.nil_append, hlen, List.drop_drop]
  congr 1
  omega

theorem slice_splice {xs ys : List α} {offset : ℕ} (h : offset ≤ xs.length) :
    slice (splice xs offset ys) offset ys.length = ys := by
  have hlen : (xs.take offset).length = offset := by
    rw [List.length_take]
    omega
  unfold slice splice
  rw [List.append_assoc, List.drop_append, List.drop_eq_nil_of_le (by omega), hlen,
    Nat.sub_self, List.drop_zero, List.nil_append, List.take_append_of_le_length (Nat.le_refl _),
    List.take_length]

variable {count at' : ℕ}

theorem slice_splice_before (hn : at' + count ≤ offset) (h : offset ≤ xs.length) :
    slice (splice xs offset ys) at' count = slice xs at' count := by
  have hslice : ∀ zs : List α, slice zs at' count = (zs.take (at' + count)).drop at' := by
    intro zs
    rw [List.drop_take, Nat.add_sub_cancel_left]
    rfl
  rw [hslice, hslice, take_splice hn h]

theorem slice_splice_after (hn : offset + ys.length ≤ at') (h : offset ≤ xs.length) :
    slice (splice xs offset ys) at' count = slice xs at' count := by
  unfold slice
  rw [drop_splice hn h]

theorem take_succ_set {i : ℕ} (x : α) (h : i < xs.length) :
    (xs.set i x).take (i + 1) = xs.take i ++ [x] := by
  rw [List.take_add_one, List.take_set_of_le (Nat.le_refl i), List.getElem?_set_self h]
  rfl

theorem drop_set_of_lt {i : ℕ} (x : α) (h : i < n) : (xs.set i x).drop n = xs.drop n := by
  rw [List.drop_set, if_pos h]

end Slices
