import Mathlib.Data.List.Basic
import Mathlib.Data.Nat.Basic

/-!
# Consistent overhead byte stuffing

COBS cuts a field into runs of nonzero octets, each at most 254 long, and writes a run after a
code octet one more than its length. A code below 255 stands for a zero after its run, except at
the end of the field. `Stuffs` is the relation between data and the fields an encoder may send for
it; an encoder is correct when what it writes is related to the data, and a decoder when it gives
the data back from a related field. `Stuffs.rec`-style induction follows the blocks of the field.
-/

namespace ByteStuffing

def maxRun : ℕ := 254

/-- `field` is the stuffed form of `data`. -/
inductive Stuffs : List UInt8 → List UInt8 → Prop
  /-- The last run, with the phantom zero that its code stands for. -/
  | last {run : List UInt8} : 0 ∉ run → run.length < maxRun →
      Stuffs run (UInt8.ofNat (run.length + 1) :: run)
  /-- A full run at the end of the field: nothing follows it. -/
  | lastFull {run : List UInt8} : 0 ∉ run → run.length = maxRun →
      Stuffs run (UInt8.ofNat (run.length + 1) :: run)
  /-- A run up to a zero of the data. -/
  | zero {run rest field : List UInt8} : 0 ∉ run → run.length < maxRun → Stuffs rest field →
      Stuffs (run ++ 0 :: rest) (UInt8.ofNat (run.length + 1) :: (run ++ field))
  /-- A full run inside the data. -/
  | full {run rest field : List UInt8} : 0 ∉ run → run.length = maxRun → rest ≠ [] →
      Stuffs rest field →
      Stuffs (run ++ rest) (UInt8.ofNat (run.length + 1) :: (run ++ field))

theorem toNat_code {n : ℕ} (h : n ≤ maxRun) : (UInt8.ofNat (n + 1)).toNat = n + 1 := by
  unfold maxRun at h
  simp only [UInt8.toNat_ofNat']
  omega

variable {field data : List UInt8}

theorem Stuffs.ne_nil (h : Stuffs data field) : field ≠ [] := by
  cases h <;> simp

/-- Stuffing adds one octet for each started 254 octets of data, and one for none. -/
theorem Stuffs.length_le (h : Stuffs data field) :
    field.length ≤ data.length + max 1 ((data.length + 253) / 254) := by
  induction h with
  | last _ _ =>
    simp only [List.length_cons]
    omega
  | lastFull _ _ =>
    simp only [List.length_cons]
    omega
  | zero _ _ _ ih =>
    simp only [List.length_append, List.length_cons]
    omega
  | @full run rest field _ hlen hne _ ih =>
    have hpos : 0 < rest.length := List.length_pos_iff.mpr hne
    unfold maxRun at hlen
    simp only [List.length_append, List.length_cons]
    omega

theorem Stuffs.length_gt (h : Stuffs data field) : data.length < field.length := by
  induction h with
  | last _ _ => simp
  | lastFull _ _ => simp
  | zero _ _ _ ih =>
    simp only [List.length_append, List.length_cons]
    omega
  | full _ _ _ _ ih =>
    simp only [List.length_append, List.length_cons]
    omega

theorem Stuffs.length_eq (h : Stuffs data field) (hshort : data.length ≤ maxRun) :
    field.length = data.length + 1 := by
  have hle := h.length_le
  have hgt := h.length_gt
  unfold maxRun at hshort
  omega

theorem Stuffs.zero_notMem (h : Stuffs data field) : 0 ∉ field := by
  have hcode : ∀ run : List UInt8, run.length ≤ maxRun →
      (0 : UInt8) ≠ UInt8.ofNat (run.length + 1) := by
    intro run hrun hzero
    have hnat := congrArg UInt8.toNat hzero
    rw [toNat_code hrun] at hnat
    cases hnat
  induction h with
  | last hrun hlen =>
    rw [List.mem_cons, not_or]
    exact ⟨hcode _ (Nat.le_of_lt hlen), hrun⟩
  | lastFull hrun hlen =>
    rw [List.mem_cons, not_or]
    exact ⟨hcode _ (Nat.le_of_eq hlen), hrun⟩
  | zero hrun hlen _ ih =>
    rw [List.mem_cons, List.mem_append, not_or, not_or]
    exact ⟨hcode _ (Nat.le_of_lt hlen), hrun, ih⟩
  | full hrun hlen _ _ ih =>
    rw [List.mem_cons, List.mem_append, not_or, not_or]
    exact ⟨hcode _ (Nat.le_of_eq hlen), hrun, ih⟩

/-- What a field stands for, read block by block; its codes are bounded by its length. -/
def unstuffFrom : ℕ → List UInt8 → Option (List UInt8)
  | _, [] => some []
  | 0, _ :: _ => none
  | fuel + 1, code :: rest =>
    if code = 0 ∨ rest.length < code.toNat - 1 then none
    else
      let more := rest.drop (code.toNat - 1)
      (unstuffFrom fuel more).map fun data =>
        rest.take (code.toNat - 1) ++ if code ≠ 255 ∧ more ≠ [] then 0 :: data else data

/-- The data of a field, or none when a code is zero or runs past its end. -/
def unstuff (field : List UInt8) : Option (List UInt8) := unstuffFrom field.length field

theorem exists_block {code : UInt8} {rest : List UInt8} (hcode : code ≠ 0)
    (hrest : code.toNat - 1 ≤ rest.length) :
    ∃ run more, rest = run ++ more ∧ run.length ≤ maxRun ∧ code = UInt8.ofNat (run.length + 1) ∧
      run = rest.take (code.toNat - 1) ∧ more = rest.drop (code.toNat - 1) := by
  have hlt := code.toNat_lt
  have hpos : code.toNat ≠ 0 := by
    intro hzero
    exact hcode (UInt8.toNat_inj.mp hzero)
  have hlen : (rest.take (code.toNat - 1)).length = code.toNat - 1 := by
    rw [List.length_take]
    exact Nat.min_eq_left hrest
  refine ⟨_, _, (List.take_append_drop _ _).symm, ?_, ?_, rfl, rfl⟩
  · unfold maxRun
    omega
  · rw [hlen, Nat.sub_add_cancel (Nat.pos_of_ne_zero hpos), UInt8.ofNat_toNat]

end ByteStuffing
