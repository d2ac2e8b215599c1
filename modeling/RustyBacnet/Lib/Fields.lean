import RustyBacnet.Lib.Slices

/-!
# Fields at an offset

A reader keeps the whole input and an offset into it. `At data offset field` says that `field`
stands in `data` at `offset`; a read that succeeds gives such a fact and a read of a field that
stands there succeeds, so both directions of a codec are chains of them (`at_append`).
-/

namespace Fields

open Slices

variable {α : Type*} {data field : List α} {offset : ℕ}

/-- `field` stands in `data` at `offset`. -/
def At (data : List α) (offset : ℕ) (field : List α) : Prop :=
  ∃ before behind, data = before ++ (field ++ behind) ∧ before.length = offset

theorem at_nil (h : offset ≤ data.length) : At data offset [] :=
  ⟨data.take offset, data.drop offset, (List.take_append_drop offset data).symm,
    List.length_take_of_le h⟩

theorem at_zero (data : List α) : At data 0 data := ⟨[], [], (List.append_nil data).symm, rfl⟩

theorem at_append {first second : List α} :
    At data offset (first ++ second) ↔
      At data offset first ∧ At data (offset + first.length) second := by
  constructor
  · rintro ⟨before, behind, rfl, rfl⟩
    refine ⟨⟨before, second ++ behind, ?_, rfl⟩, before ++ first, behind, ?_, ?_⟩
    · rw [List.append_assoc]
    · rw [List.append_assoc, List.append_assoc]
    · rw [List.length_append]
  · rintro ⟨⟨before, behind, rfl, rfl⟩, before', behind', heq, hlength⟩
    have hsplit : before' = before ++ first ∧ second ++ behind' = behind := by
      refine List.append_inj (heq.symm.trans (List.append_assoc _ _ _).symm) ?_
      rw [hlength, List.length_append]
    refine ⟨before, behind', ?_, rfl⟩
    rw [← hsplit.2, List.append_assoc]

theorem at_cons {x : α} {xs : List α} :
    At data offset (x :: xs) ↔ At data offset [x] ∧ At data (offset + 1) xs := by
  rw [← List.singleton_append, at_append]
  rfl

theorem At.bound (h : At data offset field) : offset + field.length ≤ data.length := by
  obtain ⟨before, behind, rfl, rfl⟩ := h
  rw [List.length_append, List.length_append]
  omega

theorem at_singleton {x : α} : At data offset [x] ↔ data[offset]? = some x := by
  constructor
  · rintro ⟨before, behind, rfl, rfl⟩
    rw [List.getElem?_append_right (Nat.le_refl _), Nat.sub_self]
    rfl
  · intro h
    obtain ⟨hlt, hget⟩ := List.getElem?_eq_some_iff.mp h
    refine ⟨data.take offset, data.drop (offset + 1), ?_, List.length_take_of_le (Nat.le_of_lt hlt)⟩
    rw [← hget, List.singleton_append, ← List.drop_eq_getElem_cons hlt, List.take_append_drop]

theorem At.drop_eq (h : At data offset field) :
    data.drop offset = field ++ data.drop (offset + field.length) := by
  obtain ⟨before, behind, rfl, rfl⟩ := h
  rw [List.drop_left, ← List.drop_drop, List.drop_left, List.drop_left]

theorem At.slice_eq (h : At data offset field) : slice data offset field.length = field := by
  unfold slice
  rw [h.drop_eq, List.take_left]

theorem at_slice {count : ℕ} (h : offset + count ≤ data.length) :
    At data offset (slice data offset count) := by
  refine ⟨data.take offset, data.drop (offset + count), ?_, List.length_take_of_le (by omega)⟩
  unfold slice
  rw [← List.drop_drop, List.take_append_drop, List.take_append_drop]

theorem At.eq_of_end (h : At data 0 field) (hend : field.length = data.length) : field = data := by
  have hslice := h.slice_eq
  unfold slice at hslice
  rw [hend, List.drop_zero, List.take_length] at hslice
  exact hslice.symm

end Fields
