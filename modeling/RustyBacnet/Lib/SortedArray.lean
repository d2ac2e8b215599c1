import Mathlib.Data.List.Basic
import Mathlib.Order.Lattice

/-!
# Arrays sorted by a key

An array whose elements stand in strictly increasing order of a key is a finite map: `entry` reads
it. The binary search finds an element or the place to insert one (`search_cases`), and around that
place insertion, replacement and removal are updates of the map.
-/

namespace SortedArray

variable {α κ : Type*} [LinearOrder κ] (key : α → κ)

/-- Strictly increasing keys. -/
def Sorted (xs : List α) : Prop := xs.Pairwise fun a b => key a < key b

/-- The element with key `k`. -/
def entry (xs : List α) (k : κ) : Option α := xs.find? fun x => key x == k

/-- What a binary search for `k` returns on a sorted array: the index of `k`, or where it would
stand. -/
def search (xs : List α) (k : κ) : Except ℕ ℕ :=
  let index := (xs.takeWhile fun x => key x < k).length
  if xs[index]?.any fun x => key x == k then .ok index else .error index

/-- `front` and `back` stand on either side of `k`. -/
structure Around (k : κ) (front back : List α) : Prop where
  before : ∀ x ∈ front, key x < k
  after : ∀ x ∈ back, k < key x

variable {key} {xs front back : List α} {x y : α} {k m : κ}

@[simp] theorem sorted_nil : Sorted key [] := List.Pairwise.nil

theorem search_cases (hs : Sorted key xs) (k : κ) :
    (∃ front x back, xs = front ++ x :: back ∧ key x = k ∧ Around key k front back
      ∧ search key xs k = .ok front.length)
    ∨ ∃ front back, xs = front ++ back ∧ Around key k front back
      ∧ search key xs k = .error front.length := by
  have hsplit := List.takeWhile_append_dropWhile (l := xs) (p := fun x => key x < k)
  have hbefore : ∀ y ∈ xs.takeWhile (fun x => key x < k), key y < k := by
    intro y hy
    exact of_decide_eq_true (List.all_eq_true.mp List.all_takeWhile y hy)
  unfold search
  generalize xs.takeWhile (fun x => decide (key x < k)) = front at hsplit hbefore ⊢
  cases hdrop : xs.dropWhile (fun x => decide (key x < k)) with
  | nil =>
    right
    rw [hdrop, List.append_nil] at hsplit
    subst hsplit
    refine ⟨front, [], (List.append_nil _).symm, ⟨hbefore, by simp⟩, ?_⟩
    simp
  | cons x back =>
    rw [hdrop] at hsplit
    have hget : xs[front.length]? = some x := by
      rw [← hsplit]
      simp
    have hge : k ≤ key x := by
      have h := List.head?_dropWhile_not (fun x => decide (key x < k)) xs
      rw [hdrop] at h
      simpa using h
    have hback : ∀ y ∈ back, key x < key y := by
      intro y hy
      have hpair : Sorted key (front ++ x :: back) := by
        rw [hsplit]
        exact hs
      exact List.rel_of_pairwise_cons (List.pairwise_append.mp hpair).2.1 hy
    dsimp only
    rw [hget, Option.any_some]
    by_cases hx : key x = k
    · left
      refine ⟨front, x, back, hsplit.symm, hx, ⟨hbefore, ?_⟩, ?_⟩
      · intro y hy
        rw [← hx]
        exact hback y hy
      · rw [if_pos (beq_iff_eq.mpr hx)]
    · right
      refine ⟨front, x :: back, hsplit.symm, ⟨hbefore, ?_⟩, ?_⟩
      · intro y hy
        rcases List.mem_cons.mp hy with rfl | hy
        · exact lt_of_le_of_ne hge (Ne.symm hx)
        · exact lt_of_le_of_lt hge (hback y hy)
      · rw [if_neg (by simpa using hx)]

/-! ## Reading around a place -/

theorem entry_eq_none_of_forall (h : ∀ x ∈ xs, key x ≠ k) : entry key xs k = none := by
  rw [entry, List.find?_eq_none]
  intro x hx
  simpa using h x hx

theorem Around.entry_none (h : Around key k front back) : entry key (front ++ back) k = none := by
  apply entry_eq_none_of_forall
  intro x hx
  rcases List.mem_append.mp hx with hx | hx
  · exact ne_of_lt (h.before x hx)
  · exact (ne_of_lt (h.after x hx)).symm

theorem Around.entry_self (h : Around key k front back) (hx : key x = k) :
    entry key (front ++ x :: back) k = some x := by
  have hfront : front.find? (fun x => key x == k) = none := by
    rw [List.find?_eq_none]
    intro y hy
    simpa using ne_of_lt (h.before y hy)
  unfold entry
  rw [List.find?_append, hfront, Option.none_or, List.find?_cons_of_pos (by simpa using hx)]

theorem entry_insert_ne (hx : key x ≠ m) :
    entry key (front ++ x :: back) m = entry key (front ++ back) m := by
  unfold entry
  rw [List.find?_append, List.find?_append, List.find?_cons_of_neg (by simpa using hx)]

theorem Around.entry_insert (h : Around key k front back) (hx : key x = k) (m : κ) :
    entry key (front ++ x :: back) m
      = if m = k then some x else entry key (front ++ back) m := by
  split_ifs with hm
  · rw [hm, h.entry_self hx]
  · exact entry_insert_ne fun h => hm (h.symm.trans hx)

theorem Around.sorted_insert (h : Around key k front back) (hx : key x = k)
    (hs : Sorted key (front ++ back)) : Sorted key (front ++ x :: back) := by
  obtain ⟨hf, hb, hfb⟩ := List.pairwise_append.mp hs
  refine List.pairwise_append.mpr ⟨hf, List.pairwise_cons.mpr ⟨?_, hb⟩, ?_⟩
  · intro y hy
    rw [hx]
    exact h.after y hy
  · intro y hy z hz
    rcases List.mem_cons.mp hz with rfl | hz
    · rw [hx]
      exact h.before y hy
    · exact hfb y hy z hz

theorem Sorted.erase (hs : Sorted key (front ++ x :: back)) : Sorted key (front ++ back) := by
  refine List.Pairwise.sublist ?_ hs
  exact List.Sublist.append_left (List.sublist_cons_self x back) front

/-! ## Changing every element -/

variable {f : α → α}

theorem entry_map (hf : ∀ x, key (f x) = key x) (xs : List α) (k : κ) :
    entry key (xs.map f) k = (entry key xs k).map f := by
  unfold entry
  rw [List.find?_map]
  congr 2
  funext x
  simp [hf]

theorem Sorted.map (hf : ∀ x, key (f x) = key x) (hs : Sorted key xs) : Sorted key (xs.map f) := by
  refine List.pairwise_map.mpr (hs.imp ?_)
  intro a b hab
  rw [hf, hf]
  exact hab

theorem mem_of_entry (h : entry key xs k = some x) : x ∈ xs ∧ key x = k :=
  ⟨List.mem_of_find?_eq_some h, by simpa using List.find?_some h⟩

theorem Sorted.entry_of_mem (hs : Sorted key xs) (hx : x ∈ xs) : entry key xs (key x) = some x := by
  obtain ⟨front, back, rfl⟩ := List.append_of_mem hx
  obtain ⟨_, hb, hfb⟩ := List.pairwise_append.mp hs
  refine Around.entry_self ⟨?_, ?_⟩ rfl
  · intro y hy
    exact hfb y hy x List.mem_cons_self
  · intro y hy
    exact List.rel_of_pairwise_cons hb hy

theorem Sorted.filter (p : α → Bool) (hs : Sorted key xs) : Sorted key (xs.filter p) :=
  List.Pairwise.filter p hs

theorem Sorted.filter_behind (hs : Sorted key (front ++ x :: back)) :
    (front ++ x :: back).filter (fun y => decide (key x < key y)) = back := by
  obtain ⟨_, hrest, hfront⟩ := List.pairwise_append.mp hs
  have hback : ∀ y ∈ back, key x < key y := fun y hy => List.rel_of_pairwise_cons hrest hy
  rw [List.filter_append, List.filter_cons, if_neg (by simp), List.filter_eq_nil_iff.mpr,
    List.filter_eq_self.mpr, List.nil_append]
  · intro y hy
    exact decide_eq_true (hback y hy)
  · intro y hy hlt
    exact lt_asymm (of_decide_eq_true hlt) (hfront y hy x List.mem_cons_self)

theorem Sorted.length_filter_le (hs : Sorted key xs) (k : κ) :
    (xs.filter fun x => key x == k).length ≤ 1 := by
  have hsorted := hs.filter fun x => key x == k
  have hkey : ∀ x ∈ xs.filter (fun x => key x == k), key x = k := by
    intro x hx
    exact beq_iff_eq.mp (List.mem_filter.mp hx).2
  generalize xs.filter (fun x => key x == k) = found at hsorted hkey ⊢
  match found with
  | [] => exact Nat.zero_le _
  | [_] => exact Nat.le_refl 1
  | x :: y :: rest =>
    have hlt := (List.pairwise_cons.mp hsorted).1 y (List.mem_cons_self ..)
    rw [hkey x (List.mem_cons_self ..),
      hkey y (List.mem_cons_of_mem _ (List.mem_cons_self ..))] at hlt
    exact absurd hlt (lt_irrefl k)

theorem Sorted.entry_filter (p : α → Bool) (hs : Sorted key xs) (k : κ) :
    entry key (xs.filter p) k = (entry key xs k).filter p := by
  cases h : entry key xs k with
  | none =>
    apply entry_eq_none_of_forall
    intro x hx hk
    have hmem := hs.entry_of_mem (List.mem_of_mem_filter hx)
    rw [hk, h] at hmem
    cases hmem
  | some x =>
    obtain ⟨hx, rfl⟩ := mem_of_entry h
    rw [Option.filter_some]
    split_ifs with hp
    · exact (hs.filter p).entry_of_mem (List.mem_filter.mpr ⟨hx, hp⟩)
    · apply entry_eq_none_of_forall
      intro y hy hk
      have hmem := hs.entry_of_mem (List.mem_of_mem_filter hy)
      rw [hk, h] at hmem
      cases hmem
      exact hp (List.mem_filter.mp hy).2

theorem Sorted.ext {ys : List α} (hx : Sorted key xs) (hy : Sorted key ys)
    (h : ∀ k, entry key xs k = entry key ys k) : xs = ys := by
  have hmem : ∀ z, z ∈ xs ↔ z ∈ ys := by
    intro z
    constructor
    · intro hz
      have he := hx.entry_of_mem hz
      rw [h] at he
      exact (mem_of_entry he).1
    · intro hz
      have he := hy.entry_of_mem hz
      rw [← h] at he
      exact (mem_of_entry he).1
  have hnodup : ∀ {zs : List α}, Sorted key zs → zs.Nodup := by
    intro zs hz
    refine hz.imp ?_
    rintro a b hab rfl
    exact lt_irrefl _ hab
  have hperm : xs.Perm ys := (List.perm_ext_iff_of_nodup (hnodup hx) (hnodup hy)).mpr hmem
  refine hperm.eq_of_pairwise ?_ hx hy
  intro a b _ _ hab hba
  exact absurd hba (lt_asymm hab)

end SortedArray
