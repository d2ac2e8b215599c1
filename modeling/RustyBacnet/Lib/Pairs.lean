import Mathlib.Algebra.BigOperators.Group.List.Basic
import Mathlib.Algebra.GroupWithZero.Nat
import Mathlib.Data.List.Basic
import Mathlib.Data.List.Nodup

/-!
# Maps kept as pairs

A map as its pairs in no particular order, each key once. Reading after a write, and what a weight
summed over the map does under each write: what is replaced or taken away is weighed off.
-/

namespace RustyBacnet.Pairs

variable {κ α : Type*} [DecidableEq κ]

def get (map : List (κ × α)) (k : κ) : Option α :=
  (map.find? fun pair => pair.1 = k).map Prod.snd

def remove (map : List (κ × α)) (k : κ) : List (κ × α) := map.filter fun pair => pair.1 ≠ k

def insert (map : List (κ × α)) (k : κ) (a : α) : List (κ × α) := (k, a) :: remove map k

/-- Change the value at `k`, if there is one. -/
def modify (map : List (κ × α)) (k : κ) (f : α → α) : List (κ × α) :=
  map.map fun pair => if pair.1 = k then (pair.1, f pair.2) else pair

/-- Each key once. -/
def Distinct (map : List (κ × α)) : Prop := (map.map Prod.fst).Nodup

def weight (w : κ → α → ℕ) (map : List (κ × α)) : ℕ := (map.map fun pair => w pair.1 pair.2).sum

variable {map : List (κ × α)} {k m : κ} {a : α} {f : α → α} {w : κ → α → ℕ}

/-! ## Reading -/

@[simp] theorem get_nil : get ([] : List (κ × α)) k = none := rfl

theorem get_cons (pair : κ × α) :
    get (pair :: map) k = if pair.1 = k then some pair.2 else get map k := by
  unfold get
  rw [List.find?_cons]
  split_ifs with hkey
  · rw [decide_eq_true hkey]
    rfl
  · rw [decide_eq_false hkey]

theorem get_remove : get (remove map k) m = if m = k then none else get map m := by
  induction map with
  | nil =>
    split_ifs
    · rfl
    · rfl
  | cons pair map ih =>
    unfold remove at ih ⊢
    by_cases hpair : pair.1 = k
    · rw [List.filter_cons_of_neg (by simpa using hpair), ih, get_cons]
      split_ifs with hm hother
      · rfl
      · exact absurd (hother.symm.trans hpair) hm
      · rfl
    · rw [List.filter_cons_of_pos (by simpa using hpair), get_cons, ih, get_cons]
      split_ifs with hm hk
      · exact absurd (hm.trans hk) hpair
      · rfl
      · rfl
      · rfl

theorem get_insert : get (insert map k a) m = if m = k then some a else get map m := by
  unfold insert
  rw [get_cons, get_remove]
  by_cases hm : m = k
  · rw [if_pos (show (k, a).1 = m from hm.symm), if_pos hm]
  · rw [if_neg (show ¬(k, a).1 = m from fun h => hm h.symm), if_neg hm, if_neg hm]

theorem get_modify : get (modify map k f) m = if m = k then (get map k).map f else get map m := by
  induction map with
  | nil =>
    split_ifs
    · rfl
    · rfl
  | cons pair map ih =>
    have hcons : modify (pair :: map) k f
        = (if pair.1 = k then (pair.1, f pair.2) else pair) :: modify map k f := rfl
    rw [hcons, get_cons, ih]
    by_cases hm : m = k
    · subst hm
      rw [if_pos rfl, if_pos rfl, get_cons]
      by_cases hpair : pair.1 = m
      · rw [if_pos hpair, if_pos hpair, if_pos hpair]
        rfl
      · rw [if_neg hpair, if_neg hpair, if_neg hpair]
    · rw [if_neg hm, if_neg hm, get_cons]
      by_cases hpair : pair.1 = k
      · have hother : ¬pair.1 = m := fun h => hm (h.symm.trans hpair)
        rw [if_pos hpair, if_neg hother, if_neg hother]
      · rw [if_neg hpair]

theorem get_eq_some_mem (h : get map k = some a) : (k, a) ∈ map := by
  obtain ⟨pair, hfound, rfl⟩ := Option.map_eq_some_iff.mp h
  have hkey := List.find?_some hfound
  rw [decide_eq_true_iff] at hkey
  rw [← hkey]
  exact List.mem_of_find?_eq_some hfound

theorem mem_iff_get (hdistinct : Distinct map) : (k, a) ∈ map ↔ get map k = some a := by
  refine ⟨?_, get_eq_some_mem⟩
  induction map with
  | nil => exact fun h => absurd h (List.not_mem_nil)
  | cons pair map ih =>
    intro hmem
    have hdistinct : pair.1 ∉ map.map Prod.fst ∧ Distinct map := List.nodup_cons.mp hdistinct
    rw [get_cons]
    rcases List.mem_cons.mp hmem with rfl | hmem
    · exact if_pos rfl
    · rw [if_neg, ih hdistinct.2 hmem]
      rintro rfl
      exact hdistinct.1 (List.mem_map.mpr ⟨_, hmem, rfl⟩)

omit [DecidableEq κ] in
theorem distinct_nil : Distinct ([] : List (κ × α)) := List.nodup_nil

theorem distinct_remove (h : Distinct map) : Distinct (remove map k) :=
  List.Nodup.sublist (List.Sublist.map _ List.filter_sublist) h

theorem distinct_insert (h : Distinct map) : Distinct (insert map k a) := by
  refine List.nodup_cons.mpr ⟨?_, distinct_remove h⟩
  intro hmem
  obtain ⟨pair, hpair, hkey⟩ := List.mem_map.mp hmem
  have hother := (List.mem_filter.mp hpair).2
  rw [decide_eq_true_iff] at hother
  exact hother hkey

theorem distinct_modify (h : Distinct map) : Distinct (modify map k f) := by
  have hkeys : (modify map k f).map Prod.fst = map.map Prod.fst := by
    unfold modify
    rw [List.map_map]
    refine List.map_congr_left ?_
    intro pair _
    show (if pair.1 = k then (pair.1, f pair.2) else pair).1 = pair.1
    split_ifs
    · rfl
    · rfl
  unfold Distinct
  rw [hkeys]
  exact h

/-! ## Weights -/

omit [DecidableEq κ] in
omit [DecidableEq κ] in
@[simp] theorem weight_cons (pair : κ × α) :
    weight w (pair :: map) = w pair.1 pair.2 + weight w map := rfl

/-- The weight of the value at `k`. -/
def weightAt (w : κ → α → ℕ) (map : List (κ × α)) (k : κ) : ℕ := (get map k).elim 0 (w k)

theorem remove_of_notMem (h : k ∉ map.map Prod.fst) : remove map k = map := by
  unfold remove
  rw [List.filter_eq_self]
  intro pair hpair
  refine decide_eq_true ?_
  rintro rfl
  exact h (List.mem_map.mpr ⟨pair, hpair, rfl⟩)

theorem get_of_notMem (h : k ∉ map.map Prod.fst) : get map k = none := by
  cases hget : get map k with
  | none => rfl
  | some a => exact absurd (List.mem_map.mpr ⟨_, get_eq_some_mem hget, rfl⟩) h

theorem le_weight (h : get map k = some a) : w k a ≤ weight w map := by
  induction map with
  | nil => cases h
  | cons pair map ih =>
    rw [get_cons] at h
    rw [weight_cons]
    split_ifs at h with hpair
    · cases h
      rw [hpair]
      exact Nat.le_add_right _ _
    · have := ih h
      omega

theorem weight_remove (h : Distinct map) :
    weight w map = weight w (remove map k) + weightAt w map k := by
  induction map with
  | nil => rfl
  | cons pair map ih =>
    have h : pair.1 ∉ map.map Prod.fst ∧ Distinct map := List.nodup_cons.mp h
    unfold weightAt at ih ⊢
    rw [get_cons]
    by_cases hpair : pair.1 = k
    · subst hpair
      have hremove : remove (pair :: map) pair.1 = map := by
        rw [← remove_of_notMem h.1]
        unfold remove
        rw [List.filter_cons_of_neg (by simp), List.filter_filter]
        simp
      rw [hremove, if_pos rfl, weight_cons, Nat.add_comm]
      rfl
    · have hremove : remove (pair :: map) k = pair :: remove map k := by
        unfold remove
        rw [List.filter_cons_of_pos (by simpa using hpair)]
      rw [hremove, if_neg hpair, weight_cons, weight_cons, ih h.2, Nat.add_assoc]

theorem weight_insert (h : Distinct map) :
    weight w (insert map k a) + weightAt w map k = weight w map + w k a := by
  have hremoved : weight w map = weight w (remove map k) + weightAt w map k := weight_remove h
  unfold insert
  rw [weight_cons]
  dsimp only
  omega

theorem weight_modify (h : Distinct map) :
    weight w (modify map k f) + weightAt w map k
      = weight w map + weightAt (fun k a => w k (f a)) map k := by
  induction map with
  | nil => rfl
  | cons pair map ih =>
    have h : pair.1 ∉ map.map Prod.fst ∧ Distinct map := List.nodup_cons.mp h
    have hcons : modify (pair :: map) k f
        = (if pair.1 = k then (pair.1, f pair.2) else pair) :: modify map k f := rfl
    unfold weightAt at ih ⊢
    rw [hcons, get_cons]
    by_cases hpair : pair.1 = k
    · subst hpair
      rw [if_pos rfl, if_pos rfl]
      have hih := ih h.2
      rw [get_of_notMem h.1] at hih
      rw [weight_cons, weight_cons]
      dsimp only [Option.elim_none, Option.elim_some] at hih ⊢
      omega
    · rw [if_neg hpair, if_neg hpair]
      have hih := ih h.2
      rw [weight_cons, weight_cons]
      omega

end RustyBacnet.Pairs
