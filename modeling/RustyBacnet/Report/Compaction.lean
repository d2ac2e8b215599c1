import Mathlib.Algebra.GroupWithZero.Nat
import RustyBacnet.Report.Outbox

/-!
# Compaction keeps every notification's octets

The live parameters sit apart from each other in the buffer (`Packed`). Compaction moves the lowest
one not moved yet down to the end of those moved: every other is either below that end or above the
octets it leaves, so none is written over, and in the end the buffer holds the live octets alone.
-/

namespace RustyBacnet.Report

open Slices

/-! ## Where the parameters sit -/

/-- A notification as it was pushed. -/
structure Notification where
  notice : Notice
  params : List UInt8
  deriving DecidableEq

def Entry.shown (buf : List UInt8) (entry : Entry) : Option Notification :=
  if entry.live then some ⟨entry.toNotice, slice buf entry.start entry.len⟩ else none

/-- The entry holds octets of the buffer. -/
def Entry.Occupies (entry : Entry) : Prop := entry.live = true ∧ 0 < entry.len

/-- Two entries hold no octet in common. -/
def Clear (a b : Entry) : Prop :=
  a.Occupies → b.Occupies → a.start + a.len ≤ b.start ∨ b.start + b.len ≤ a.start

theorem Clear.symm {a b : Entry} (h : Clear a b) : Clear b a :=
  fun hb ha => (h ha hb).symm

structure Packed (entries : List Entry) (buf : List UInt8) : Prop where
  inside : ∀ entry ∈ entries, entry.live = true → entry.start + entry.len ≤ buf.length
  clear : entries.Pairwise Clear

def octetsOf (entries : List Entry) : ℕ :=
  (entries.map fun entry => if entry.live then entry.len else 0).sum

def liveOf (entries : List Entry) : ℕ := entries.countP (·.live)

variable {entry : Entry}

theorem shown_of_live (buf : List UInt8) (h : entry.live = true) :
    entry.shown buf = some ⟨entry.toNotice, slice buf entry.start entry.len⟩ := if_pos h

theorem shown_of_dead (buf : List UInt8) (h : ¬entry.live = true) :
    entry.shown buf = none := if_neg h

theorem shown_isSome (buf : List UInt8) (entry : Entry) :
    (entry.shown buf).isSome = entry.live := by
  unfold Entry.shown
  split_ifs with hlive
  · rw [hlive]
    rfl
  · rw [Bool.eq_false_iff.mpr hlive]
    rfl

variable {buf : List UInt8}

theorem shown_congr {buf' : List UInt8} {entry' : Entry}
    (hnotice : entry'.toNotice = entry.toNotice) (hlive : entry'.live = entry.live)
    (hread : entry.Occupies → slice buf' entry'.start entry'.len = slice buf entry.start entry.len)
    (hlen : entry'.len = entry.len) : entry'.shown buf' = entry.shown buf := by
  unfold Entry.shown
  rw [hlive, hnotice]
  by_cases hshown : entry.live = true
  · rw [if_pos hshown, if_pos hshown]
    by_cases hempty : entry.len = 0
    · rw [hlen, hempty, slice_zero, slice_zero]
    · rw [hread ⟨hshown, Nat.pos_of_ne_zero hempty⟩]
  · rw [if_neg hshown, if_neg hshown]

/-! ## One move -/

theorem argmin_le {α : Type} (f : α → ℕ) {xs : List α} {m x : α} (hm : xs.argmin f = some m)
    (hx : x ∈ xs) : f m ≤ f x := Nat.le_of_not_lt (List.not_lt_of_mem_argmin hx hm)

variable {entries : List Entry} {next : ℕ}

theorem mem_candidates (hentry : entry ∈ entries) (hoccupies : entry.Occupies)
    (hfrom : next ≤ entry.start) :
    ∃ index, (entry, index) ∈ entries.zipIdx.filter fun at_ =>
      at_.1.live && 0 < at_.1.len && next ≤ at_.1.start := by
  obtain ⟨index, hindex⟩ := List.getElem?_of_mem hentry
  refine ⟨index, List.mem_filter.mpr ⟨List.mem_zipIdx_iff_getElem?.mpr hindex, ?_⟩⟩
  simp only [Bool.and_eq_true, decide_eq_true_eq]
  exact ⟨⟨hoccupies.1, hoccupies.2⟩, hfrom⟩

/-- The entry `lowest` finds, and where. -/
theorem lowest_some {at_ : ℕ} (h : Outbox.lowest entries next = some (entry, at_)) :
    entries[at_]? = some entry ∧ entry.Occupies ∧ next ≤ entry.start ∧
      ∀ other ∈ entries, other.Occupies → next ≤ other.start → entry.start ≤ other.start := by
  have hmem := List.argmin_mem h
  rw [List.mem_filter, List.mem_zipIdx_iff_getElem?] at hmem
  obtain ⟨hat, hcandidate⟩ := hmem
  simp only [Bool.and_eq_true, decide_eq_true_eq] at hcandidate
  refine ⟨hat, ⟨hcandidate.1.1, hcandidate.1.2⟩, hcandidate.2, ?_⟩
  intro other hother hoccupies hfrom
  obtain ⟨index, hindex⟩ := mem_candidates hother hoccupies hfrom
  exact argmin_le (fun at_ : Entry × ℕ => at_.1.start) h hindex

theorem lowest_none (h : Outbox.lowest entries next = none) :
    ∀ entry ∈ entries, entry.Occupies → entry.start < next := by
  intro entry hentry hoccupies
  unfold Outbox.lowest at h
  rw [List.argmin_eq_none] at h
  by_contra hfrom
  obtain ⟨index, hindex⟩ := mem_candidates hentry hoccupies (Nat.le_of_not_lt hfrom)
  rw [h] at hindex
  exact List.not_mem_nil hindex

def unmoved (entries : List Entry) (next : ℕ) : ℕ :=
  (entries.map fun entry => if entry.live ∧ next ≤ entry.start then entry.len else 0).sum

def unmovedCount (entries : List Entry) (next : ℕ) : ℕ :=
  entries.countP fun entry => entry.live && 0 < entry.len && next ≤ entry.start

/-- The loop's invariant: the octets below `next` are those moved. -/
structure Moving (entries : List Entry) (buf : List UInt8) (next : ℕ) : Prop
    extends Packed entries buf where
  moved : ∀ entry ∈ entries, entry.Occupies → entry.start < next → entry.start + entry.len ≤ next
  empty : ∀ entry ∈ entries, entry.len = 0 → entry.start = 0
  next_le : next ≤ buf.length
  total : next + unmoved entries next = octetsOf entries

variable {before after : List Entry}

theorem pairwise_clear_middle :
    (before ++ entry :: after).Pairwise Clear ↔
      (∀ other ∈ before ++ after, Clear entry other) ∧ (before ++ after).Pairwise Clear := by
  rw [List.pairwise_middle (fun h => h.symm), List.pairwise_cons]

/-- Every other entry's octets are below those moved to, or above those moved from. -/
theorem away {before after : List Entry} {entry other : Entry} {buf : List UInt8} {next : ℕ}
    (h : Moving (before ++ entry :: after) buf next) (hentry : entry.Occupies)
    (hlowest : ∀ other ∈ before ++ entry :: after, other.Occupies → next ≤ other.start →
      entry.start ≤ other.start) (hother : other ∈ before ++ after) (hoccupies : other.Occupies) :
    other.start + other.len ≤ next ∨
      next ≤ other.start ∧ entry.start + entry.len ≤ other.start := by
  have hmem : other ∈ before ++ entry :: after := by
    rw [List.mem_append] at hother
    rw [List.mem_append, List.mem_cons]
    exact hother.imp id .inr
  by_cases hfrom : next ≤ other.start
  · right
    have habove := hlowest other hmem hoccupies hfrom
    have hpositive := hoccupies.2
    rcases (pairwise_clear_middle.mp h.clear).1 other hother hentry hoccupies with hafter | hbefore
    · exact ⟨hfrom, hafter⟩
    · omega
  · exact .inl (h.moved other hmem hoccupies (Nat.lt_of_not_le hfrom))

/-- Moving the lowest entry down keeps the invariant and what every entry shows. -/
theorem Moving.move (h : Moving (before ++ entry :: after) buf next) (hentry : entry.Occupies)
    (hfrom : next ≤ entry.start)
    (hlowest : ∀ other ∈ before ++ entry :: after, other.Occupies → next ≤ other.start →
      entry.start ≤ other.start) :
    let buf' := splice buf next (slice buf entry.start entry.len)
    let entries' := before ++ { entry with start := next } :: after
    Moving entries' buf' (next + entry.len) ∧
      entries'.map (·.shown buf') = (before ++ entry :: after).map (·.shown buf) ∧
      unmovedCount entries' (next + entry.len) < unmovedCount (before ++ entry :: after) next := by
  intro buf' entries'
  have haway := fun other => @away before after entry other buf next h hentry hlowest
  obtain ⟨⟨hinside, hclear⟩, hmoved, hempty, hnext, htotal⟩ := h
  obtain ⟨hapart, hrest⟩ := pairwise_clear_middle.mp hclear
  have hwithin := hinside entry (List.mem_append_right _ List.mem_cons_self) hentry.1
  have hpositive := hentry.2
  have hlen : (slice buf entry.start entry.len).length = entry.len := length_slice hwithin
  have hbuf : buf'.length = buf.length := length_splice (by rw [hlen]; omega)
  have hothers : ∀ other ∈ before ++ after, other ∈ before ++ entry :: after := by
    intro other hother
    rw [List.mem_append] at hother
    rw [List.mem_append, List.mem_cons]
    exact hother.imp id .inr
  have hcases : ∀ other ∈ entries', other = { entry with start := next } ∨
      other ∈ before ++ after := by
    intro other hother
    rw [List.mem_append, List.mem_cons] at hother
    rw [List.mem_append]
    tauto
  have hshown : ∀ other ∈ before ++ after, other.shown buf' = other.shown buf := by
    intro other hother
    refine shown_congr rfl rfl (fun hoccupies => ?_) rfl
    rcases haway other hother hoccupies with hbelow | ⟨-, habove⟩
    · exact slice_splice_before hbelow hnext
    · exact slice_splice_after (by rw [hlen]; omega) hnext
  have hmine : ({ entry with start := next } : Entry).shown buf' = entry.shown buf := by
    refine shown_congr rfl rfl (fun _ => ?_) rfl
    have hread := @slice_splice _ buf (slice buf entry.start entry.len) next hnext
    rw [hlen] at hread
    exact hread
  refine ⟨⟨⟨?_, ?_⟩, ?_, ?_, by rw [hbuf]; omega, ?_⟩, ?_, ?_⟩
  · intro other hother hlive
    rw [hbuf]
    rcases hcases other hother with rfl | hother
    · dsimp only
      omega
    · exact hinside other (hothers other hother) hlive
  · refine pairwise_clear_middle.mpr ⟨fun other hother _ hoccupies => ?_, hrest⟩
    dsimp only
    rcases haway other hother hoccupies with hbelow | ⟨-, habove⟩
    · exact .inr hbelow
    · exact .inl (by omega)
  · intro other hother hoccupies hbelow
    rcases hcases other hother with rfl | hother
    · exact Nat.le_refl _
    · rcases haway other hother hoccupies with hmovedDown | ⟨-, habove⟩
      · omega
      · omega
  · intro other hother hzero
    rcases hcases other hother with rfl | hother
    · dsimp only at hzero
      omega
    · exact hempty other (hothers other hother) hzero
  · have hsame : ∀ other ∈ before ++ after,
        (if other.live ∧ next + entry.len ≤ other.start then other.len else 0)
          = if other.live ∧ next ≤ other.start then other.len else 0 := by
      intro other hother
      by_cases hoccupies : other.Occupies
      · have hsize := hoccupies.2
        rcases haway other hother hoccupies with hbelow | ⟨-, habove⟩
        · rw [if_neg (by omega), if_neg (by omega)]
        · rw [if_pos ⟨hoccupies.1, by omega⟩, if_pos ⟨hoccupies.1, by omega⟩]
      · by_cases hlive : other.live = true
        · have hzero : other.len = 0 := Nat.eq_zero_of_not_pos fun hpos => hoccupies ⟨hlive, hpos⟩
          rw [hzero, ite_self, ite_self]
        · rw [if_neg (fun h => hlive h.1), if_neg (fun h => hlive h.1)]
    have hbefore := List.map_congr_left fun other hother =>
      hsame other (List.mem_append_left after hother)
    have hafter := List.map_congr_left fun other hother =>
      hsame other (List.mem_append_right before hother)
    unfold unmoved octetsOf at *
    rw [List.map_append, List.map_cons, List.sum_append, List.sum_cons] at htotal ⊢
    rw [List.map_append, List.map_cons, List.sum_append, List.sum_cons] at htotal ⊢
    rw [hbefore, hafter]
    rw [if_pos ⟨hentry.1, hfrom⟩, if_pos hentry.1] at htotal
    dsimp only
    rw [if_neg (by omega), if_pos hentry.1]
    omega
  · rw [List.map_append, List.map_cons, List.map_append, List.map_cons, hmine,
      List.map_congr_left fun other hother => hshown other (List.mem_append_left after hother),
      List.map_congr_left fun other hother => hshown other (List.mem_append_right before hother)]
  · have hsame : ∀ other ∈ before ++ after,
        (other.live && 0 < other.len && next + entry.len ≤ other.start) = true ↔
          (other.live && 0 < other.len && next ≤ other.start) = true := by
      intro other hother
      simp only [Bool.and_eq_true, decide_eq_true_eq]
      constructor
      · rintro ⟨hoccupies, habove⟩
        exact ⟨hoccupies, by omega⟩
      · rintro ⟨hoccupies, habove⟩
        refine ⟨hoccupies, ?_⟩
        have hsize := hoccupies.2
        rcases haway other hother hoccupies with hbelow | ⟨-, hbeyond⟩ <;> omega
    unfold unmovedCount
    rw [List.countP_append, List.countP_cons, List.countP_append, List.countP_cons,
      List.countP_congr fun other hother => hsame other (List.mem_append_left after hother),
      List.countP_congr fun other hother => hsame other (List.mem_append_right before hother)]
    rw [if_neg, if_pos]
    · omega
    · simp only [Bool.and_eq_true, decide_eq_true_eq]
      exact ⟨hentry, hfrom⟩
    · simp only [Bool.and_eq_true, decide_eq_true_eq]
      omega

/-! ## The loop -/

/-- The loop ends with every entry moved. -/
theorem compactLoop_spec {fuel : ℕ} (h : Moving entries buf next)
    (hfuel : unmovedCount entries next < fuel) :
    ∃ entries' buf' next', Outbox.compactLoop fuel entries buf next = some (entries', buf', next') ∧
      Moving entries' buf' next' ∧ entries'.map (·.shown buf') = entries.map (·.shown buf) ∧
      ∀ entry ∈ entries', entry.Occupies → entry.start < next' := by
  induction fuel generalizing entries buf next with
  | zero => exact absurd hfuel (Nat.not_lt_zero _)
  | succ fuel ih =>
    unfold Outbox.compactLoop
    cases hlowest : Outbox.lowest entries next with
    | none => exact ⟨entries, buf, next, rfl, h, rfl, lowest_none hlowest⟩
    | some found =>
      obtain ⟨entry, at_⟩ := found
      obtain ⟨hat, hoccupies, hfrom, hleast⟩ := lowest_some hlowest
      obtain ⟨hlt, hget⟩ := List.getElem?_eq_some_iff.mp hat
      obtain ⟨before, after, hentries, hbefore⟩ : ∃ before after,
          entries = before ++ entry :: after ∧ before.length = at_ := by
        refine ⟨entries.take at_, entries.drop (at_ + 1), ?_, List.length_take_of_le hlt.le⟩
        rw [← hget, List.getElem_cons_drop, List.take_append_drop]
      subst hentries
      have hinside := h.inside entry (List.mem_append_right _ List.mem_cons_self) hoccupies.1
      obtain ⟨hmoving, hshown, hcount⟩ := h.move hoccupies hfrom hleast
      have hset : (before ++ entry :: after).set at_ { entry with start := next }
          = before ++ { entry with start := next } :: after := by
        rw [← hbefore, List.set_append_right _ _ (Nat.le_refl _), Nat.sub_self, List.set_cons_zero]
      have hcopy : Outbox.copyWithin buf entry.start entry.len next
          = some (splice buf next (slice buf entry.start entry.len)) :=
        if_pos ⟨hinside, by omega⟩
      obtain ⟨entries', buf', next', hloop, hmoving', hshown', hdone⟩ :=
        ih hmoving (by omega)
      refine ⟨entries', buf', next', ?_, hmoving', hshown'.trans hshown, hdone⟩
      dsimp only
      rw [hcopy, Option.bind_eq_bind, Option.bind_some, hset]
      exact hloop

theorem octetsOf_eq
    (h : ∀ entry ∈ entries, entry.live = true → entry.start + entry.len ≤ buf.length) :
    octetsOf entries
      = (((entries.map (·.shown buf)).filterMap id).map (·.params.length)).sum := by
  induction entries with
  | nil => rfl
  | cons entry entries ih =>
    have hrest := ih fun other hother => h other (List.mem_cons_of_mem _ hother)
    have hhead := h entry List.mem_cons_self
    unfold octetsOf at hrest ⊢
    rw [List.map_cons, List.map_cons, List.sum_cons, hrest]
    by_cases hlive : entry.live = true
    · rw [if_pos hlive, shown_of_live buf hlive]
      show _ = (List.map _ (_ :: List.filterMap id _)).sum
      rw [List.map_cons, List.sum_cons, length_slice (hhead hlive)]
    · rw [if_neg hlive, shown_of_dead buf hlive, Nat.zero_add]
      rfl

theorem liveOf_eq (entries : List Entry) (buf : List UInt8) :
    liveOf entries = ((entries.map (·.shown buf)).filterMap id).length := by
  rw [List.filterMap_map, List.length_filterMap_eq_countP]
  refine List.countP_congr fun entry _ => ?_
  rw [Function.comp_apply, id, shown_isSome]

theorem unmoved_eq_zero (h : ∀ entry ∈ entries, entry.Occupies → entry.start < next) :
    unmoved entries next = 0 := by
  induction entries with
  | nil => rfl
  | cons entry entries ih =>
    have hrest := ih fun other hother => h other (List.mem_cons_of_mem _ hother)
    have hhead := h entry List.mem_cons_self
    unfold unmoved at hrest ⊢
    rw [List.map_cons, List.sum_cons, hrest]
    by_cases hfrom : entry.live ∧ next ≤ entry.start
    · rw [if_pos hfrom]
      by_contra hsize
      have := hhead ⟨hfrom.1, Nat.pos_of_ne_zero hsize⟩
      omega
    · rw [if_neg hfrom]

/-- Compaction leaves what every entry shows, and only the live octets in the buffer. -/
theorem compact_spec {outbox : Outbox} (h : Packed outbox.entries outbox.buf) :
    ∃ entries buf, outbox.compact = some { outbox with entries := entries, buf := buf } ∧
      Packed entries buf ∧
      entries.map (·.shown buf) = outbox.entries.map (·.shown outbox.buf) ∧
      buf.length = octetsOf entries := by
  obtain ⟨hinside, hclear⟩ := h
  obtain ⟨zeroed, hzeroed⟩ : ∃ zeroed, zeroed = fun entry : Entry =>
    if entry.len = 0 then { entry with start := 0 } else entry := ⟨_, rfl⟩
  have hzero : ∀ entry, entry.len = 0 → zeroed entry = { entry with start := 0 } := by
    intro entry hlen
    rw [hzeroed]
    exact if_pos hlen
  have hkeep : ∀ entry, entry.len ≠ 0 → zeroed entry = entry := by
    intro entry hlen
    rw [hzeroed]
    exact if_neg hlen
  have hshown : (outbox.entries.map zeroed).map (·.shown outbox.buf)
      = outbox.entries.map (·.shown outbox.buf) := by
    rw [List.map_map]
    refine List.map_congr_left fun entry _ => ?_
    by_cases hlen : entry.len = 0
    · rw [Function.comp_apply, hzero entry hlen]
      refine shown_congr rfl rfl (fun hoccupies => ?_) rfl
      exact absurd hoccupies.2 (by omega)
    · rw [Function.comp_apply, hkeep entry hlen]
  have hmoving : Moving (outbox.entries.map zeroed) outbox.buf 0 := by
    refine ⟨⟨?_, ?_⟩, fun _ _ _ hbelow => absurd hbelow (Nat.not_lt_zero _), ?_, Nat.zero_le _, ?_⟩
    · intro entry hentry hlive
      obtain ⟨old, hold, rfl⟩ := List.mem_map.mp hentry
      by_cases hlen : old.len = 0
      · rw [hzero old hlen]
        dsimp only
        omega
      · rw [hkeep old hlen] at hlive ⊢
        exact hinside old hold hlive
    · refine List.pairwise_map.mpr (hclear.imp fun {a b} hapart ha hb => ?_)
      have hposA := ha.2
      have hposB := hb.2
      by_cases hlenA : a.len = 0
      · rw [hzero a hlenA] at hposA
        exact absurd hposA (by dsimp only; omega)
      · by_cases hlenB : b.len = 0
        · rw [hzero b hlenB] at hposB
          exact absurd hposB (by dsimp only; omega)
        · rw [hkeep a hlenA] at ha ⊢
          rw [hkeep b hlenB] at hb ⊢
          exact hapart ha hb
    · intro entry hentry hempty
      obtain ⟨old, -, rfl⟩ := List.mem_map.mp hentry
      by_cases hlen : old.len = 0
      · rw [hzero old hlen]
      · rw [hkeep old hlen] at hempty
        exact absurd hempty hlen
    · unfold unmoved octetsOf
      simp only [Nat.zero_le, and_true, Nat.zero_add]
  have hcount : unmovedCount (outbox.entries.map zeroed) 0
      < (outbox.entries.map zeroed).length + 1 :=
    Nat.lt_succ_of_le List.countP_le_length
  obtain ⟨entries, buf, next, hloop, hdone, hsame, hmoved⟩ := compactLoop_spec hmoving hcount
  have htotal := hdone.total
  rw [unmoved_eq_zero hmoved, Nat.add_zero] at htotal
  have hlength : (buf.take next).length = next := List.length_take_of_le hdone.next_le
  have hread : ∀ entry ∈ entries, entry.live = true → entry.start + entry.len ≤ next := by
    intro entry hentry hlive
    by_cases hlen : entry.len = 0
    · have := hdone.empty entry hentry hlen
      omega
    · exact hdone.moved entry hentry ⟨hlive, Nat.pos_of_ne_zero hlen⟩
        (hmoved entry hentry ⟨hlive, Nat.pos_of_ne_zero hlen⟩)
  refine ⟨entries, buf.take next, ?_, ⟨?_, hdone.clear⟩, ?_, hlength.trans htotal⟩
  · unfold Outbox.compact
    rw [← hzeroed]
    dsimp only
    rw [hloop]
    rfl
  · intro entry hentry hlive
    rw [hlength]
    exact hread entry hentry hlive
  · rw [← hshown, ← hsame]
    refine List.map_congr_left fun entry hentry => ?_
    refine shown_congr rfl rfl (fun hoccupies => ?_) rfl
    have hbelow := hread entry hentry hoccupies.1
    unfold slice
    rw [List.drop_take, List.take_take, Nat.min_eq_left (by omega)]

end RustyBacnet.Report
