import Mathlib.Data.List.Basic
import Mathlib.Data.List.Induction

/-!
# Arrays edited by swaps

Insertion, removal and compaction of the used front of an array, each a chain of swaps of two
elements. The three chains are the list operations one expects: `sink_eq` inserts, `float_eq`
moves an element to the end, and `compact_eq_filter` filters.
-/

namespace Swaps

variable {α : Type*}

/-- Swap the elements at two indices; nothing happens unless `low < high` are both inside. -/
def swapApart (xs : List α) (low high : ℕ) : List α :=
  if low < high then
    match xs[low]?, xs[high]? with
    | some x, some y => (xs.set low y).set high x
    | _, _ => xs
  else xs

/-- Move the last element back to `index`, one swap at a time. -/
def sink (xs : List α) (index : ℕ) : List α :=
  (List.range' index (xs.length - 1 - index)).reverse.foldl
    (fun xs at' => swapApart xs at' (at' + 1)) xs

/-- Move the element at `index` to the end, one swap at a time. -/
def float (xs : List α) (index : ℕ) : List α :=
  (List.range' (index + 1) (xs.length - (index + 1))).foldl
    (fun xs at' => swapApart xs (at' - 1) at') xs

/-- One step of a compaction: the list and how many elements were kept so far. -/
def compactStep (keep : α → Bool) (state : List α × ℕ) (index : ℕ) : List α × ℕ :=
  match state.1[index]? with
  | some x => if keep x then (swapApart state.1 state.2 index, state.2 + 1) else state
  | none => state

def compact (keep : α → Bool) (xs : List α) : List α :=
  let state := (List.range xs.length).foldl (compactStep keep) (xs, 0)
  state.1.take state.2

theorem swapApart_self (xs : List α) (index : ℕ) : swapApart xs index index = xs := by
  rw [swapApart, if_neg (Nat.lt_irrefl index)]

variable (front mid back : List α) (x : α)

theorem swapApart_append (y : α) :
    swapApart (front ++ x :: (mid ++ y :: back)) front.length (front.length + mid.length + 1)
      = front ++ y :: (mid ++ x :: back) := by
  have hlow : (front ++ x :: (mid ++ y :: back))[front.length]? = some x := by simp
  have hhigh : (front ++ x :: (mid ++ y :: back))[front.length + mid.length + 1]? = some y := by
    rw [Nat.add_assoc, List.getElem?_append_right (Nat.le_add_right _ _)]
    simp
  unfold swapApart
  rw [if_pos (by omega), hlow, hhigh]
  dsimp only
  rw [List.set_append_right _ _ (Nat.le_refl _), Nat.sub_self, List.set_cons_zero,
    Nat.add_assoc, List.set_append_right _ _ (Nat.le_add_right _ _), Nat.add_sub_cancel_left,
    List.set_cons_succ, List.set_append_right _ _ (Nat.le_refl _), Nat.sub_self,
    List.set_cons_zero]

theorem swapApart_adjacent (y : α) :
    swapApart (front ++ x :: y :: back) front.length (front.length + 1)
      = front ++ y :: x :: back :=
  swapApart_append front [] back x y

/-! ## Insertion and removal -/

/-- The swaps that carry `x` back over `mid`. -/
theorem foldl_sink :
    (List.range' front.length mid.length).reverse.foldl
        (fun xs at' => swapApart xs at' (at' + 1)) (front ++ mid ++ x :: back)
      = front ++ x :: (mid ++ back) := by
  induction mid using List.reverseRecOn generalizing back with
  | nil => simp
  | append_singleton mid y ih =>
    rw [List.length_append, List.length_singleton, List.range'_concat, List.reverse_append]
    simp only [List.reverse_singleton, List.singleton_append, List.foldl_cons, Nat.one_mul]
    have hswap := swapApart_adjacent (front ++ mid) back y x
    rw [List.length_append] at hswap
    rw [show front ++ (mid ++ [y]) ++ x :: back = front ++ mid ++ y :: x :: back by simp, hswap,
      ih (y :: back)]
    simp

theorem sink_eq : sink (front ++ back ++ [x]) front.length = front ++ x :: back := by
  have h := foldl_sink front back [] x
  unfold sink
  have hlen : (front ++ back ++ [x]).length - 1 - front.length = back.length := by
    simp only [List.length_append, List.length_singleton]
    omega
  rw [hlen, h, List.append_nil]

/-- The swaps that carry `x` on over `mid`. -/
theorem foldl_float :
    (List.range' (front.length + 1) mid.length).foldl
        (fun xs at' => swapApart xs (at' - 1) at') (front ++ x :: (mid ++ back))
      = front ++ mid ++ x :: back := by
  induction mid generalizing front with
  | nil => simp
  | cons y mid ih =>
    rw [List.length_cons, List.range'_succ, List.foldl_cons, Nat.add_sub_cancel,
      List.cons_append, swapApart_adjacent]
    have h := ih (front ++ [y])
    rw [List.length_append, List.length_singleton] at h
    simpa using h

theorem float_eq : float (front ++ x :: back) front.length = front ++ back ++ [x] := by
  have h := foldl_float front back [] x
  unfold float
  have hlen : (front ++ x :: back).length - (front.length + 1) = back.length := by
    simp only [List.length_append, List.length_cons]
    omega
  rw [List.append_nil] at h
  rw [hlen, h]

/-! ## Compaction -/

/-- Compaction behind the elements it has looked at: those kept stand in front, in order. -/
theorem foldl_compact (keep : α → Bool) (kept junk rest : List α) :
    ∃ junk', (List.range' (kept.length + junk.length) rest.length).foldl (compactStep keep)
        (kept ++ junk ++ rest, kept.length)
      = (kept ++ rest.filter keep ++ junk', (kept ++ rest.filter keep).length) := by
  induction rest generalizing kept junk with
  | nil => exact ⟨junk, by simp⟩
  | cons y rest ih =>
    have hget : (kept ++ junk ++ y :: rest)[kept.length + junk.length]? = some y := by
      rw [← List.length_append]
      simp
    rw [List.length_cons, List.range'_succ, List.foldl_cons, compactStep, hget]
    dsimp only
    by_cases hy : keep y = true
    · rw [if_pos hy]
      cases junk with
      | nil =>
        -- Everything was kept so far, so the swap is of an element with itself.
        obtain ⟨junk', h⟩ := ih (kept ++ [y]) []
        refine ⟨junk', ?_⟩
        simp only [List.length_nil, Nat.add_zero, List.append_nil] at h ⊢
        rw [swapApart_self]
        simp only [List.length_append, List.length_singleton, List.append_assoc,
          List.singleton_append] at h
        rw [h, List.filter_cons_of_pos hy]
        simp
      | cons j junk =>
        obtain ⟨junk', h⟩ := ih (kept ++ [y]) (junk ++ [j])
        refine ⟨junk', ?_⟩
        have hswap := swapApart_append kept junk rest j y
        rw [show kept ++ j :: junk ++ y :: rest = kept ++ j :: (junk ++ y :: rest) by simp,
          List.length_cons, ← Nat.add_assoc, hswap]
        have hlen : (kept ++ [y]).length + (junk ++ [j]).length
            = kept.length + junk.length + 1 + 1 := by
          simp only [List.length_append, List.length_singleton]
          omega
        rw [hlen] at h
        rw [show kept ++ [y] ++ (junk ++ [j]) ++ rest = kept ++ y :: (junk ++ j :: rest) by simp,
          show (kept ++ [y]).length = kept.length + 1 by simp] at h
        rw [h, List.filter_cons_of_pos hy]
        simp
    · rw [if_neg hy]
      obtain ⟨junk', h⟩ := ih kept (junk ++ [y])
      refine ⟨junk', ?_⟩
      have hlen : kept.length + (junk ++ [y]).length = kept.length + junk.length + 1 := by
        simp only [List.length_append, List.length_singleton]
        omega
      rw [hlen, show kept ++ (junk ++ [y]) ++ rest = kept ++ junk ++ y :: rest by simp] at h
      rw [h, List.filter_cons_of_neg hy]

theorem compact_eq_filter (keep : α → Bool) (xs : List α) : compact keep xs = xs.filter keep := by
  obtain ⟨junk, h⟩ := foldl_compact keep [] [] xs
  unfold compact
  simp only [List.length_nil, Nat.add_zero, List.nil_append] at h
  rw [List.range_eq_range', h]
  exact List.take_left

end Swaps
