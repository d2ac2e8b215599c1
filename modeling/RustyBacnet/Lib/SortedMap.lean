import RustyBacnet.Lib.SortedArray

/-!
# A map kept as a sorted array

Reading, writing and removing by key through the binary search. On a sorted array each is an update
of the map `entry` reads, and `countP` follows it: what a write replaces or a removal takes away is
counted off (`countP_put`, `countP_remove`).
-/

namespace SortedArray

variable {α κ : Type*} [LinearOrder κ] (key : α → κ)

/-- The element the search for `k` finds. -/
def get (xs : List α) (k : κ) : Option α :=
  match search key xs k with
  | .ok index => xs[index]?
  | .error _ => none

/-- Write `x` under its own key, and the element it replaced. -/
def put (xs : List α) (x : α) : Option α × List α :=
  match search key xs (key x) with
  | .ok index => (xs[index]?, xs.set index x)
  | .error index => (none, xs.take index ++ x :: xs.drop index)

/-- Take out the element with key `k`. -/
def remove (xs : List α) (k : κ) : Option α × List α :=
  match search key xs k with
  | .ok index => (xs[index]?, xs.eraseIdx index)
  | .error _ => (none, xs)

/-- Change the element with key `k`, if there is one. -/
def modify (xs : List α) (k : κ) (f : α → α) : List α :=
  match search key xs k with
  | .ok index => xs.modify index f
  | .error _ => xs

variable {key} {xs : List α} {x y : α} {k m : κ}

/-- A found element is the one the map has, and an element not found is none of its elements. -/
theorem split_cases (hs : Sorted key xs) (k : κ) :
    (∃ front x back, xs = front ++ x :: back ∧ key x = k ∧ Around key k front back ∧
        entry key xs k = some x ∧ search key xs k = .ok front.length) ∨
      ∃ front back, xs = front ++ back ∧ Around key k front back ∧
        entry key xs k = none ∧ search key xs k = .error front.length := by
  rcases search_cases hs k with ⟨front, x, back, rfl, hx, haround, hsearch⟩ |
    ⟨front, back, rfl, haround, hsearch⟩
  · exact .inl ⟨front, x, back, rfl, hx, haround, haround.entry_self hx, hsearch⟩
  · exact .inr ⟨front, back, rfl, haround, haround.entry_none, hsearch⟩

theorem get_eq (hs : Sorted key xs) (k : κ) : get key xs k = entry key xs k := by
  unfold get
  rcases split_cases hs k with ⟨front, x, back, rfl, _, _, hentry, hsearch⟩ |
    ⟨front, back, rfl, _, hentry, hsearch⟩
  · rw [hsearch, hentry]
    simp
  · rw [hsearch, hentry]

/-! ## Writing -/

theorem put_cases (hs : Sorted key xs) (x : α) :
    (∃ front old back, xs = front ++ old :: back ∧ key old = key x ∧
        Around key (key x) front back ∧ entry key xs (key x) = some old ∧
        put key xs x = (some old, front ++ x :: back)) ∨
      ∃ front back, xs = front ++ back ∧ Around key (key x) front back ∧
        entry key xs (key x) = none ∧ put key xs x = (none, front ++ x :: back) := by
  unfold put
  rcases split_cases hs (key x) with ⟨front, old, back, rfl, hold, haround, hentry, hsearch⟩ |
    ⟨front, back, rfl, haround, hentry, hsearch⟩
  · refine .inl ⟨front, old, back, rfl, hold, haround, hentry, ?_⟩
    rw [hsearch]
    simp
  · refine .inr ⟨front, back, rfl, haround, hentry, ?_⟩
    rw [hsearch]
    simp

theorem put_fst (hs : Sorted key xs) (x : α) : (put key xs x).1 = entry key xs (key x) := by
  rcases put_cases hs x with ⟨_, _, _, _, _, _, hentry, hput⟩ | ⟨_, _, _, _, hentry, hput⟩
  · rw [hput, hentry]
  · rw [hput, hentry]

theorem sorted_put (hs : Sorted key xs) (x : α) : Sorted key (put key xs x).2 := by
  rcases put_cases hs x with ⟨front, old, back, rfl, _, haround, _, hput⟩ |
    ⟨front, back, rfl, haround, _, hput⟩
  · rw [hput]
    exact haround.sorted_insert rfl hs.erase
  · rw [hput]
    exact haround.sorted_insert rfl hs

theorem entry_put (hs : Sorted key xs) (x : α) (m : κ) :
    entry key (put key xs x).2 m = if m = key x then some x else entry key xs m := by
  rcases put_cases hs x with ⟨front, old, back, rfl, hold, haround, _, hput⟩ |
    ⟨front, back, rfl, haround, _, hput⟩
  · rw [hput, haround.entry_insert rfl]
    split_ifs with hm
    · rfl
    · exact (entry_insert_ne fun h => hm (h.symm.trans hold)).symm
  · rw [hput, haround.entry_insert rfl]

theorem countP_put (hs : Sorted key xs) (x : α) (p : α → Bool) :
    (put key xs x).2.countP p + (entry key xs (key x)).toList.countP p
      = xs.countP p + if p x then 1 else 0 := by
  rcases put_cases hs x with ⟨front, old, back, rfl, _, _, hentry, hput⟩ |
    ⟨front, back, rfl, _, hentry, hput⟩
  · rw [hput, hentry]
    simp only [List.countP_append, List.countP_cons, Option.toList_some, List.countP_nil]
    omega
  · rw [hput, hentry]
    simp only [List.countP_append, List.countP_cons, Option.toList_none, List.countP_nil]
    omega

/-! ## Removing -/

theorem remove_cases (hs : Sorted key xs) (k : κ) :
    (∃ front x back, xs = front ++ x :: back ∧ key x = k ∧ Around key k front back ∧
        entry key xs k = some x ∧ remove key xs k = (some x, front ++ back)) ∨
      entry key xs k = none ∧ remove key xs k = (none, xs) := by
  unfold remove
  rcases split_cases hs k with ⟨front, x, back, rfl, hx, haround, hentry, hsearch⟩ |
    ⟨front, back, rfl, _, hentry, hsearch⟩
  · refine .inl ⟨front, x, back, rfl, hx, haround, hentry, ?_⟩
    rw [hsearch]
    simp [List.eraseIdx_append_of_length_le]
  · refine .inr ⟨hentry, ?_⟩
    rw [hsearch]

theorem remove_fst (hs : Sorted key xs) (k : κ) : (remove key xs k).1 = entry key xs k := by
  rcases remove_cases hs k with ⟨_, _, _, _, _, _, hentry, hremove⟩ | ⟨hentry, hremove⟩
  · rw [hremove, hentry]
  · rw [hremove, hentry]

theorem sorted_remove (hs : Sorted key xs) (k : κ) : Sorted key (remove key xs k).2 := by
  rcases remove_cases hs k with ⟨front, x, back, rfl, _, _, _, hremove⟩ | ⟨_, hremove⟩
  · rw [hremove]
    exact hs.erase
  · rw [hremove]
    exact hs

theorem entry_remove (hs : Sorted key xs) (k m : κ) :
    entry key (remove key xs k).2 m = if m = k then none else entry key xs m := by
  rcases remove_cases hs k with ⟨front, x, back, rfl, hx, haround, _, hremove⟩ |
    ⟨hentry, hremove⟩
  · rw [hremove]
    split_ifs with hm
    · rw [hm]
      exact haround.entry_none
    · exact (entry_insert_ne fun h => hm (h.symm.trans hx)).symm
  · rw [hremove]
    split_ifs with hm
    · rw [hm, hentry]
    · rfl

theorem countP_remove (hs : Sorted key xs) (k : κ) (p : α → Bool) :
    (remove key xs k).2.countP p + (entry key xs k).toList.countP p = xs.countP p := by
  rcases remove_cases hs k with ⟨front, x, back, rfl, _, _, hentry, hremove⟩ |
    ⟨hentry, hremove⟩
  · rw [hremove, hentry]
    simp only [List.countP_append, List.countP_cons, Option.toList_some, List.countP_nil]
    omega
  · rw [hremove, hentry]
    rfl

/-! ## Changing one element -/

theorem modify_cases (hs : Sorted key xs) (k : κ) (f : α → α) :
    (∃ front x back, xs = front ++ x :: back ∧ key x = k ∧ Around key k front back ∧
        entry key xs k = some x ∧ modify key xs k f = front ++ f x :: back) ∨
      entry key xs k = none ∧ modify key xs k f = xs := by
  unfold modify
  rcases split_cases hs k with ⟨front, x, back, rfl, hx, haround, hentry, hsearch⟩ |
    ⟨front, back, rfl, _, hentry, hsearch⟩
  · refine .inl ⟨front, x, back, rfl, hx, haround, hentry, ?_⟩
    rw [hsearch]
    simp [List.modify_eq_take_drop]
  · refine .inr ⟨hentry, ?_⟩
    rw [hsearch]

variable {f : α → α}

theorem sorted_modify (hf : ∀ x, key (f x) = key x) (hs : Sorted key xs) (k : κ) :
    Sorted key (modify key xs k f) := by
  rcases modify_cases hs k f with ⟨front, x, back, rfl, hx, haround, _, hmodify⟩ | ⟨_, hmodify⟩
  · rw [hmodify]
    exact haround.sorted_insert ((hf x).trans hx) hs.erase
  · rw [hmodify]
    exact hs

theorem entry_modify (hf : ∀ x, key (f x) = key x) (hs : Sorted key xs) (k m : κ) :
    entry key (modify key xs k f) m
      = if m = k then (entry key xs k).map f else entry key xs m := by
  rcases modify_cases hs k f with ⟨front, x, back, rfl, hx, haround, hentry, hmodify⟩ |
    ⟨hentry, hmodify⟩
  · rw [hmodify, hentry, haround.entry_insert ((hf x).trans hx)]
    split_ifs with hm
    · rfl
    · exact (entry_insert_ne fun h => hm (h.symm.trans hx)).symm
  · rw [hmodify, hentry]
    split_ifs with hm
    · rw [hm, hentry]
      rfl
    · rfl

/-- A change that keeps `g` keeps it for the whole array. -/
theorem map_modify {β : Type*} {g : α → β} (hg : ∀ x, g (f x) = g x) (xs : List α) (k : κ) :
    (modify key xs k f).map g = xs.map g := by
  unfold modify
  split
  · rename_i index _
    clear * - hg
    induction xs generalizing index with
    | nil => simp
    | cons x xs ih =>
      cases index with
      | zero => simp [hg]
      | succ index => simp [ih]
  · rfl

end SortedArray
