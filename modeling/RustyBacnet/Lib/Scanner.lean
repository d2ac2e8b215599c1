import Mathlib.Data.List.Basic

/-!
# Incremental scanners

A scanner looks at the front of a buffer and either waits for more input or reports an item and
how many symbols of the stream the item accounts for. The count may reach past the buffer: the
rest of it is then dropped as it arrives. Such a scanner does not see how its input is cut up as
soon as its verdicts are stable, that is, no later symbol changes a verdict already reached.

1. `Cursor`: what is buffered, and how much of the stream is still to be dropped.
2. `Scans`: the items reported until the scanner waits, and the cursor it then has.
3. `Reports`: the items of a part of a scan.
4. `Scans.push`: input that arrives later may as well have been there from the start.
5. `Feeds.scans`: so a run over any pieces is the run over the whole stream.
-/

namespace Scanner

variable {α ι : Type*}

/-- Where a scanner stands in its stream. -/
structure Cursor (α : Type*) where
  /-- Symbols that arrived and are not accounted for. -/
  buffered : List α
  /-- Symbols of the last item that have not arrived. -/
  skip : ℕ
  /-- Nothing is buffered while symbols are skipped. -/
  skip_empty : skip ≠ 0 → buffered = []

variable {c d : Cursor α}

namespace Cursor

def start : Cursor α := ⟨[], 0, fun _ => rfl⟩

/-- Take `input`: what finishes the skip is dropped, the rest is buffered. -/
def push (c : Cursor α) (input : List α) : Cursor α where
  buffered := c.buffered ++ input.drop c.skip
  skip := c.skip - input.length
  skip_empty := by
    intro h
    rw [c.skip_empty (by omega), List.drop_eq_nil_of_le (by omega)]
    rfl

/-- Account for `n` symbols from the front. -/
def advance (c : Cursor α) (n : ℕ) : Cursor α where
  buffered := c.buffered.drop n
  skip := c.skip + (n - c.buffered.length)
  skip_empty := by
    intro h
    rcases Nat.eq_zero_or_pos c.skip with hs | hs
    · exact List.drop_eq_nil_of_le (by omega)
    · rw [c.skip_empty (by omega), List.drop_nil]

@[ext] theorem ext (hb : c.buffered = d.buffered) (hs : c.skip = d.skip) : c = d := by
  cases c
  cases d
  simp_all

@[simp] theorem push_nil (c : Cursor α) : c.push [] = c := by
  ext1 <;> simp [push]

theorem push_append (c : Cursor α) (xs ys : List α) : c.push (xs ++ ys) = (c.push xs).push ys := by
  ext1
  · simp only [push, List.drop_append, List.append_assoc]
  · simp only [push, List.length_append]
    omega

@[simp] theorem advance_zero (c : Cursor α) : c.advance 0 = c := by
  ext1 <;> simp [advance]

theorem advance_add {m : ℕ} (n : ℕ) (hm : m ≤ c.buffered.length) :
    c.advance (m + n) = (c.advance m).advance n := by
  ext1
  · simp [advance, List.drop_drop]
  · simp only [advance, List.length_drop]
    omega

theorem advance_push (c : Cursor α) (n : ℕ) (more : List α) (hc : c.skip = 0) :
    (c.push more).advance n = (c.advance n).push more := by
  ext1
  · simp [push, advance, hc, List.drop_append]
  · simp only [push, advance, hc, List.length_append, List.drop_zero]
    omega

end Cursor

/-- Verdicts on the front of a buffer: an item with its length in the stream, or `none` to wait. -/
structure Verdicts (α ι : Type*) where
  next : List α → Option (ι × ℕ)
  /-- No item is reported on nothing. -/
  next_nil : next [] = none
  /-- What arrives later changes no verdict. -/
  stable : ∀ buf more i n, next buf = some (i, n) → next (buf ++ more) = some (i, n)

variable (V : Verdicts α ι)

/-- From the first cursor the scanner reports the items, then waits at the second. -/
inductive Scans : Cursor α → List ι → Cursor α → Prop
  | wait {c : Cursor α} : V.next c.buffered = none → Scans c [] c
  | item {c d : Cursor α} {i : ι} {n : ℕ} {is : List ι} :
      V.next c.buffered = some (i, n) → Scans (c.advance n) is d → Scans c (i :: is) d

/-- The scanner reports the items on the way from the first cursor to the second. -/
inductive Reports : Cursor α → List ι → Cursor α → Prop
  | refl {c : Cursor α} : Reports c [] c
  | item {c d : Cursor α} {i : ι} {n : ℕ} {is : List ι} :
      V.next c.buffered = some (i, n) → Reports (c.advance n) is d → Reports c (i :: is) d

/-- Each piece is pushed, then scanned until the scanner waits. -/
inductive Feeds : Cursor α → List (List α) → List ι → Cursor α → Prop
  | nil {c : Cursor α} : Feeds c [] [] c
  | cons {c d e : Cursor α} {piece : List α} {pieces : List (List α)} {is js : List ι} :
      Scans V (c.push piece) is d → Feeds d pieces js e → Feeds c (piece :: pieces) (is ++ js) e

variable {V}

theorem skip_eq_zero_of_next {v : ι × ℕ} (h : V.next c.buffered = some v) : c.skip = 0 := by
  by_contra hs
  rw [c.skip_empty hs, V.next_nil] at h
  exact absurd h (by simp)

variable {is js : List ι}

theorem Scans.unique {d' : Cursor α} (h : Scans V c is d) (h' : Scans V c js d') :
    is = js ∧ d = d' := by
  induction h generalizing js d' with
  | wait hw =>
    cases h' with
    | wait _ => exact ⟨rfl, rfl⟩
    | item hn _ => rw [hw] at hn; exact absurd hn (by simp)
  | item hn _ ih =>
    cases h' with
    | wait hw => rw [hn] at hw; exact absurd hw (by simp)
    | item hn' hrest =>
      rw [hn] at hn'
      obtain ⟨rfl, rfl⟩ := Prod.mk.inj (Option.some.inj hn')
      obtain ⟨rfl, rfl⟩ := ih hrest
      exact ⟨rfl, rfl⟩

theorem Reports.single {i : ι} {n : ℕ} (h : V.next c.buffered = some (i, n)) :
    Reports V c [i] (c.advance n) :=
  Reports.item h Reports.refl

theorem Reports.suffix (h : Reports V c is d) : d.buffered <:+ c.buffered := by
  induction h with
  | refl => exact List.suffix_rfl
  | item _ _ ih => exact ih.trans (List.drop_suffix _ _)

theorem Scans.suffix (h : Scans V c is d) : d.buffered <:+ c.buffered := by
  induction h with
  | wait _ => exact List.suffix_rfl
  | item _ _ ih => exact ih.trans (List.drop_suffix _ _)

variable {e : Cursor α}

theorem Reports.scans (h : Reports V c is d) (hrest : Scans V d js e) : Scans V c (is ++ js) e := by
  induction h with
  | refl => exact hrest
  | item hn _ ih => exact Scans.item hn (ih hrest)

theorem Scans.waits (h : Scans V c is d) : V.next d.buffered = none := by
  induction h with
  | wait hw => exact hw
  | item _ _ ih => exact ih

/-- Input that arrives once the scanner waits may as well have been there from the start. -/
theorem Scans.push {more : List α} (h : Scans V c is d) (hmore : Scans V (d.push more) js e) :
    Scans V (c.push more) (is ++ js) e := by
  induction h with
  | wait _ => exact hmore
  | @item c _ i n is hn _ ih =>
    have hc : c.skip = 0 := skip_eq_zero_of_next hn
    refine Scans.item (n := n) ?_ ?_
    · have := V.stable _ more _ _ hn
      simpa [Cursor.push, hc] using this
    · rw [c.advance_push n more hc]
      exact ih hmore

theorem Feeds.scans {pieces : List (List α)} (h : Feeds V c pieces is d)
    (hc : V.next c.buffered = none) : Scans V (c.push pieces.flatten) is d := by
  induction h with
  | nil => simpa using Scans.wait hc
  | @cons c d e piece pieces is js hscan _ ih =>
    rw [List.flatten_cons, Cursor.push_append]
    exact hscan.push (ih hscan.waits)

end Scanner
