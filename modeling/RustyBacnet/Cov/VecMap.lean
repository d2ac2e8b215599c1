import RustyBacnet.Lib.SortedMap

/-!
# The table's small maps

`VecMap`, a map kept as one vector sorted by key, and the tallies the table keeps in it: a count
that falls to zero leaves the map, so an absent key reads zero.
-/

namespace RustyBacnet.Cov

open SortedArray (Sorted)

variable {K V : Type} [LinearOrder K]

/-- Pairs in the order of their keys. -/
abbrev VecMap (K V : Type) := List (K × V)

namespace VecMap

def get (map : VecMap K V) (k : K) : Option V := (SortedArray.get Prod.fst map k).map Prod.snd

/-- What a caller of `get_mut` does to the value at `k`. -/
def modify (map : VecMap K V) (k : K) (f : V → V) : VecMap K V :=
  SortedArray.modify Prod.fst map k fun pair => (pair.1, f pair.2)

/-- What a caller of `or_default` does to the value at `k`. -/
def orDefault [Inhabited V] (map : VecMap K V) (k : K) (f : V → V) : VecMap K V :=
  (SortedArray.put Prod.fst map (k, f ((map.get k).getD default))).2

def remove (map : VecMap K V) (k : K) : VecMap K V := (SortedArray.remove Prod.fst map k).2

variable {map : VecMap K V}

theorem get_eq (hs : Sorted Prod.fst map) (k : K) :
    map.get k = (SortedArray.entry Prod.fst map k).map Prod.snd := by
  unfold get
  rw [SortedArray.get_eq hs]

theorem sorted_modify (hs : Sorted Prod.fst map) (k : K) (f : V → V) :
    Sorted Prod.fst (map.modify k f) := by
  apply SortedArray.sorted_modify (fun pair => ?_) hs k
  rfl

theorem sorted_orDefault [Inhabited V] (hs : Sorted Prod.fst map) (k : K) (f : V → V) :
    Sorted Prod.fst (map.orDefault k f) :=
  SortedArray.sorted_put hs _

theorem sorted_remove (hs : Sorted Prod.fst map) (k : K) : Sorted Prod.fst (map.remove k) :=
  SortedArray.sorted_remove hs k

theorem get_modify (hs : Sorted Prod.fst map) (k m : K) (f : V → V) :
    (map.modify k f).get m = if m = k then (map.get k).map f else map.get m := by
  rw [get_eq (sorted_modify hs k f), get_eq hs, get_eq hs]
  have hkey : ∀ pair : K × V, Prod.fst (pair.1, f pair.2) = pair.1 := fun _ => rfl
  unfold modify
  rw [SortedArray.entry_modify hkey hs]
  split_ifs with hm
  · rw [Option.map_map, Option.map_map]
    rfl
  · rfl

theorem get_orDefault [Inhabited V] (hs : Sorted Prod.fst map) (k m : K) (f : V → V) :
    (map.orDefault k f).get m
      = if m = k then some (f ((map.get k).getD default)) else map.get m := by
  rw [get_eq (sorted_orDefault hs k f), get_eq hs m]
  unfold orDefault
  rw [SortedArray.entry_put hs]
  split_ifs with hm
  · rfl
  · rfl

theorem get_remove (hs : Sorted Prod.fst map) (k m : K) :
    (map.remove k).get m = if m = k then none else map.get m := by
  rw [get_eq (sorted_remove hs k), get_eq hs m]
  unfold remove
  rw [SortedArray.entry_remove hs]
  split_ifs with hm
  · rfl
  · rfl

variable {value : V}

theorem get_of_mem (hs : Sorted Prod.fst map) {k : K} (h : (k, value) ∈ map) :
    map.get k = some value := by
  rw [get_eq hs, hs.entry_of_mem h]
  rfl

theorem mem_of_get (hs : Sorted Prod.fst map) {k : K} (h : map.get k = some value) :
    (k, value) ∈ map := by
  rw [get_eq hs] at h
  obtain ⟨⟨at_, found⟩, hentry, rfl⟩ := Option.map_eq_some_iff.mp h
  obtain ⟨hmem, rfl⟩ := SortedArray.mem_of_entry hentry
  exact hmem

/-! ## Tallies -/

/-- The tally of `k`; none is zero. -/
def tally (map : VecMap K ℕ) (k : K) : ℕ := (map.get k).getD 0

/-- Count one more at `k`. -/
def raise (map : VecMap K ℕ) (k : K) : VecMap K ℕ := map.orDefault k (· + 1)

/-- Count `n` fewer at `k`, dropping a tally that reaches zero. -/
def lower (map : VecMap K ℕ) (k : K) (n : ℕ) : VecMap K ℕ :=
  match map.get k with
  | none => map
  | some count => if count - n = 0 then map.remove k else map.modify k (· - n)

variable {tallies : VecMap K ℕ}

theorem sorted_raise (hs : Sorted Prod.fst tallies) (k : K) : Sorted Prod.fst (tallies.raise k) :=
  sorted_orDefault hs k _

theorem sorted_lower (hs : Sorted Prod.fst tallies) (k : K) (n : ℕ) :
    Sorted Prod.fst (tallies.lower k n) := by
  unfold lower
  split
  · exact hs
  · split_ifs
    · exact sorted_remove hs k
    · exact sorted_modify hs k _

theorem tally_raise (hs : Sorted Prod.fst tallies) (k m : K) :
    (tallies.raise k).tally m = if m = k then tallies.tally k + 1 else tallies.tally m := by
  unfold tally raise
  rw [get_orDefault hs]
  split_ifs
  · rfl
  · rfl

theorem tally_lower (hs : Sorted Prod.fst tallies) (k m : K) (n : ℕ) :
    (tallies.lower k n).tally m = if m = k then tallies.tally k - n else tallies.tally m := by
  unfold lower
  split
  · rename_i hnone
    split_ifs with hm
    · rw [hm]
      unfold tally
      rw [hnone]
      exact (Nat.zero_sub n).symm
    · rfl
  · rename_i count hcount
    have hk : tallies.tally k = count := by
      unfold tally
      rw [hcount]
      rfl
    split_ifs with hzero hm hm
    · unfold tally
      rw [get_remove hs, if_pos hm]
      exact (hk ▸ hzero).symm
    · unfold tally
      rw [get_remove hs, if_neg hm]
    · unfold tally
      rw [get_modify hs, if_pos hm, hcount]
      rfl
    · unfold tally
      rw [get_modify hs, if_neg hm]

end VecMap

end RustyBacnet.Cov
