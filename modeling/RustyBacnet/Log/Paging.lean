import RustyBacnet.Log.Reader

/-!
# A paged read loses nothing silently

A record is told apart by its place in the history of the log: the records held at the start and all
those logged since. Places count on while numbers wrap, so the argument runs on places, moved up by
`Site.base` so that the places before the history have a name too.

* What request `n` meets is the part of the history from `Site.low n` to `Site.top n`; both only grow.
* A number a read asks for belongs to one place less than a cycle below the top. The answer to it is
  empty exactly when that place is below `Site.low n`.
* The oldest place told by the counts is never above the oldest one there when they had been read.
* A read starts over only at a place above the one it asked for, and below it nothing is left.
-/

namespace RustyBacnet.Log

open Encoding

variable {R : Type} [ResidentLogRecord R]

/-- The number of the place `place`. -/
def numberAt (place : ℕ) : ℕ := place % sequenceCycle + 1

/-- A number is one of those between the number expected and the page's first. -/
def LogGap.Covers (gap : LogGap) (number : ℕ) : Prop :=
  sequenceDistance gap.expected number < sequenceDistance gap.expected gap.first

namespace Site

variable (site : Site R)

/-- The records held at the start and those logged up to the request number `n`. -/
def history : ℕ → List R
  | 0 => site.start.records ++ site.logged 0
  | n + 1 => history n ++ site.logged (n + 1)

def base : ℕ := site.start.totalRecordCount + sequenceCycle - site.start.records.length

/-- The number of the record at `place` of the history. -/
def number (place : ℕ) : ℕ := numberAt (site.base + place)

/-- The place in the history of the oldest record request `n` meets. -/
def oldest (n : ℕ) : ℕ := (site.history n).length - (site.buffer n).records.length

/-- The place after the newest record, counted from the base. -/
def top (n : ℕ) : ℕ := site.base + (site.history n).length

def low (n : ℕ) : ℕ := site.base + site.oldest n

/-- The log a read starts with. -/
structure Sound : Prop where
  keeps : site.start.Keeps site.start.records
  positive : 1 ≤ site.start.capacity
  small : site.start.capacity ≤ 2147483647

end Site

/-! ## Numbers of places -/

/-- The count after `more` records. -/
def totalAfter (total more : ℕ) : ℕ :=
  if total + more = 0 then 0 else (total + sequenceCycle + more - 1) % sequenceCycle + 1

variable {total : ℕ}

theorem totalAfter_zero (h : total ≤ sequenceCycle) : totalAfter total 0 = total := by
  unfold totalAfter
  unfold sequenceCycle at h ⊢
  split_ifs
  · omega
  · omega

theorem nextSequence_totalAfter (total more : ℕ) :
    nextSequence (totalAfter total more) = totalAfter total (more + 1) := by
  unfold totalAfter nextSequence sequenceCycle
  rw [if_neg (by omega : ¬total + (more + 1) = 0)]
  split_ifs
  · omega
  · omega
  · omega
  · omega

variable {other : ℕ}

theorem totalAfter_inj {more : ℕ} (hle : more ≤ other) (hlt : other < 2147483648)
    (hsame : totalAfter total more = totalAfter total other) : more = other := by
  unfold totalAfter at hsame
  by_cases hzero : total + more = 0
  · rw [if_pos hzero] at hsame
    by_cases hother : total + other = 0
    · omega
    · rw [if_neg hother] at hsame
      exact absurd hsame (Nat.succ_ne_zero _).symm
  · rw [if_neg hzero, if_neg (by omega)] at hsame
    unfold sequenceCycle at hsame
    omega

theorem numberAt_bounds (place : ℕ) : numberAt place ≠ 0 ∧ numberAt place ≤ sequenceCycle := by
  unfold numberAt sequenceCycle
  omega

variable {place : ℕ}

theorem sequenceDistance_numberAt (hle : place ≤ other) (hlt : other < place + sequenceCycle) :
    sequenceDistance (numberAt place) (numberAt other) = other - place := by
  unfold sequenceDistance numberAt
  unfold sequenceCycle at hlt ⊢
  omega

def logSpace : SequenceSpace := ⟨sequenceCycle⟩

theorem advance_numberAt (place n : ℕ) :
    logSpace.advance (numberAt place) n = numberAt (place + n) := by
  unfold SequenceSpace.advance numberAt logSpace sequenceCycle
  rw [if_neg (by omega)]
  dsimp only
  omega

theorem retreat_numberAt {back : ℕ} (hle : back ≤ place) (hback : back < sequenceCycle) :
    logSpace.retreat (numberAt place) back = numberAt (place - back) := by
  unfold SequenceSpace.retreat numberAt logSpace
  unfold sequenceCycle at hback ⊢
  rw [if_neg (by omega)]
  dsimp only
  omega

theorem distance_numberAt (place other : ℕ) :
    logSpace.distance (numberAt place) (numberAt other)
      = if ((other : ℤ) - place) % sequenceCycle > sequenceCycle / 2
        then ((other : ℤ) - place) % sequenceCycle - sequenceCycle
        else ((other : ℤ) - place) % sequenceCycle := by
  have hmax : ∀ place, Nat.max (numberAt place) 1 = place % sequenceCycle + 1 := by
    intro place
    show max (place % sequenceCycle + 1) 1 = place % sequenceCycle + 1
    omega
  unfold SequenceSpace.distance logSpace
  dsimp only
  rw [hmax, hmax]
  have hsame : (((other % sequenceCycle + 1 : ℕ) : ℤ) - ((place % sequenceCycle + 1 : ℕ) : ℤ))
      % (sequenceCycle : ℤ) = ((other : ℤ) - place) % sequenceCycle := by
    unfold sequenceCycle
    omega
  rw [hsame]

theorem distance_nonneg (hle : place ≤ other) (hhalf : other ≤ place + sequenceCycle / 2) :
    0 ≤ logSpace.distance (numberAt place) (numberAt other) := by
  rw [distance_numberAt]
  unfold sequenceCycle at hhalf ⊢
  split_ifs
  · omega
  · omega

theorem distance_eq_zero_iff (hle : place ≤ other) (hlt : other < place + sequenceCycle) :
    logSpace.distance (numberAt place) (numberAt other) = 0 ↔ place = other := by
  rw [distance_numberAt]
  unfold sequenceCycle at hlt ⊢
  split_ifs
  · omega
  · omega

/-! ## What a request meets -/

namespace LogRecordBuffer

theorem insertForced_total (buffer : LogRecordBuffer R) (record : R) :
    (buffer.insertForced record).2.totalRecordCount = nextSequence buffer.totalRecordCount := by
  unfold insertForced insertCounted
  dsimp only
  split_ifs
  · rfl
  · unfold pushBack popFront
    split
    · rfl
    · rfl
  · rfl

theorem logAll_keeps (records : List R) : ∀ {buffer : LogRecordBuffer R} {inserted : List R},
    buffer.Keeps inserted → 1 ≤ buffer.capacity →
      (buffer.logAll records).Keeps (inserted ++ records) ∧
        (buffer.logAll records).capacity = buffer.capacity := by
  induction records with
  | nil =>
    intro buffer inserted h _
    rw [List.append_nil]
    exact ⟨h, rfl⟩
  | cons record records ih =>
    intro buffer inserted h hpositive
    have hcapacity : (buffer.insertForced record).2.capacity = buffer.capacity :=
      capacity_perform buffer (.insertForced record)
    have hinserted : (buffer.insertCounted record).1 = .inserted := by
      unfold insertCounted
      rw [if_neg (by show ¬buffer.capacity = 0; omega)]
    have hone := keeps_insertCounted h record
    rw [if_pos hinserted] at hone
    obtain ⟨hkeeps, hsame⟩ := ih hone (by
      show 1 ≤ (buffer.insertForced record).2.capacity
      rw [hcapacity]
      exact hpositive)
    rw [List.append_assoc, List.singleton_append] at hkeeps
    exact ⟨hkeeps, hsame.trans hcapacity⟩

theorem logAll_total (records : List R) : ∀ {buffer : LogRecordBuffer R} {total more : ℕ},
    buffer.totalRecordCount = totalAfter total more →
      (buffer.logAll records).totalRecordCount = totalAfter total (more + records.length) := by
  induction records with
  | nil => exact fun h => h
  | cons record records ih =>
    intro buffer total more h
    have hone : (buffer.insertForced record).2.totalRecordCount = totalAfter total (more + 1) := by
      rw [insertForced_total, h, nextSequence_totalAfter]
    have hall := ih hone
    rw [List.length_cons, Nat.add_comm records.length 1, ← Nat.add_assoc]
    exact hall

end LogRecordBuffer

namespace Site

variable {site : Site R} {n m : ℕ}

omit [ResidentLogRecord R] in
theorem history_prefix_of (h : n ≤ m) : site.history n <+: site.history m := by
  induction m, h using Nat.le_induction with
  | base => exact List.prefix_refl _
  | succ m _ ih => exact ih.trans (List.prefix_append _ _)

omit [ResidentLogRecord R] in
theorem history_length_le (h : n ≤ m) : (site.history n).length ≤ (site.history m).length :=
  (history_prefix_of h).length_le

omit [ResidentLogRecord R] in
theorem start_length_le (n : ℕ) : site.start.records.length ≤ (site.history n).length := by
  refine le_trans ?_ (history_length_le (Nat.zero_le n))
  show _ ≤ (site.start.records ++ site.logged 0).length
  rw [List.length_append]
  exact Nat.le_add_right _ _

namespace Sound

theorem start_length (h : site.Sound) : site.start.records.length ≤ site.start.capacity :=
  h.keeps.length_le

theorem buffer_keeps (h : site.Sound) (n : ℕ) :
    (site.buffer n).Keeps (site.history n) ∧ (site.buffer n).capacity = site.start.capacity := by
  induction n with
  | zero => exact LogRecordBuffer.logAll_keeps (site.logged 0) h.keeps h.positive
  | succ n ih =>
    have hpositive := h.positive
    rw [← ih.2] at hpositive
    obtain ⟨hkeeps, hcapacity⟩ := LogRecordBuffer.logAll_keeps (site.logged (n + 1)) ih.1 hpositive
    exact ⟨hkeeps, hcapacity.trans ih.2⟩

theorem buffer_total (h : site.Sound) (n : ℕ) :
    (site.buffer n).totalRecordCount = totalAfter site.start.totalRecordCount
      ((site.history n).length - site.start.records.length) := by
  induction n with
  | zero =>
    have hall := LogRecordBuffer.logAll_total (site.logged 0)
      (totalAfter_zero h.keeps.total).symm
    show (site.start.logAll (site.logged 0)).totalRecordCount = totalAfter _
      ((site.start.records ++ site.logged 0).length - _)
    rw [hall, List.length_append]
    congr 1
    omega
  | succ n ih =>
    have hall := LogRecordBuffer.logAll_total (site.logged (n + 1)) ih
    have hle : site.start.records.length ≤ (site.history n).length := start_length_le n
    show ((site.buffer n).logAll (site.logged (n + 1))).totalRecordCount = totalAfter _
      ((site.history n ++ site.logged (n + 1)).length - _)
    rw [hall, List.length_append]
    congr 1
    omega

theorem buffer_records (h : site.Sound) (n : ℕ) :
    (site.buffer n).records = (site.history n).drop (site.oldest n) := by
  have hkeeps := (h.buffer_keeps n).1
  have hlength : (site.buffer n).records.length = (site.history n).length
      - ((site.history n).length - (site.buffer n).capacity) := by
    rw [hkeeps.records, List.length_drop]
  unfold oldest
  rw [hlength, hkeeps.records]
  congr 1
  omega

theorem buffer_length (h : site.Sound) (n : ℕ) :
    (site.buffer n).records.length = site.top n - site.low n ∧ site.low n ≤ site.top n := by
  have hlength : (site.buffer n).records.length = (site.history n).length - site.oldest n := by
    rw [h.buffer_records n, List.length_drop]
  have hle : site.oldest n ≤ (site.history n).length := Nat.sub_le _ _
  unfold top low
  omega

theorem oldest_eq (h : site.Sound) (n : ℕ) :
    site.oldest n = (site.history n).length - site.start.capacity := by
  obtain ⟨hkeeps, hcapacity⟩ := h.buffer_keeps n
  unfold oldest
  rw [hkeeps.records, List.length_drop, hcapacity]
  omega

omit [ResidentLogRecord R] in
theorem top_mono (h : n ≤ m) : site.top n ≤ site.top m :=
  Nat.add_le_add_left (history_length_le h) _

theorem low_mono (h : site.Sound) (hle : n ≤ m) : site.low n ≤ site.low m := by
  have hlength : (site.history n).length ≤ (site.history m).length := history_length_le hle
  unfold low
  rw [h.oldest_eq, h.oldest_eq]
  omega

theorem top_le_low_add (h : site.Sound) (n : ℕ) : site.top n ≤ site.low n + site.start.capacity := by
  unfold top low
  rw [h.oldest_eq]
  omega

theorem low_lt_top (h : site.Sound) (hne : site.history n ≠ []) : site.low n < site.top n := by
  have hpositive := h.positive
  have hlength := List.length_pos_iff.mpr hne
  unfold top low
  rw [h.oldest_eq]
  omega

theorem top_eq (h : site.Sound) (n : ℕ) :
    site.top n = site.start.totalRecordCount + sequenceCycle
      + ((site.history n).length - site.start.records.length) := by
  have hle : site.start.records.length ≤ (site.history n).length := start_length_le n
  have hstart := le_trans h.start_length h.small
  unfold top base
  unfold sequenceCycle
  omega

theorem total_eq (h : site.Sound) (hne : site.history n ≠ []) :
    (site.buffer n).totalRecordCount = numberAt (site.top n - 1) := by
  have htotal := h.buffer_total n
  have hlength := List.length_pos_iff.mpr hne
  have hnumbered := h.keeps.numbered
  rw [htotal, h.top_eq]
  have hsome : site.start.totalRecordCount
      + ((site.history n).length - site.start.records.length) ≠ 0 := by
    by_cases hnil : site.start.records = []
    · rw [hnil, List.length_nil]
      omega
    · have := hnumbered hnil
      omega
  unfold totalAfter numberAt
  rw [if_neg hsome]

theorem total_inj (h : site.Sound) (hle : n ≤ m)
    (hfew : (site.history m).length < site.start.records.length + 2147483648)
    (hsame : (site.buffer n).totalRecordCount = (site.buffer m).totalRecordCount) :
    (site.history n).length = (site.history m).length := by
  have hlength : (site.history n).length ≤ (site.history m).length := history_length_le hle
  have hstart : site.start.records.length ≤ (site.history n).length := start_length_le n
  rw [h.buffer_total, h.buffer_total] at hsame
  have hmore := totalAfter_inj (by omega) (by omega) hsame
  omega

/-- The number of a place below the top is found exactly while the place is there. -/
theorem recordPosition_eq (h : site.Sound) (hlt : place < site.top n)
    (hcycle : site.top n ≤ place + sequenceCycle) :
    (site.buffer n).recordPosition (numberAt place)
      = if site.low n ≤ place then some (place - site.low n) else none := by
  obtain ⟨hlength, hle⟩ := h.buffer_length n
  obtain ⟨hpos, hbound⟩ := numberAt_bounds place
  unfold LogRecordBuffer.recordPosition
  rw [if_neg (by omega)]
  dsimp only
  by_cases hnil : site.history n = []
  · have hempty : (site.buffer n).records.length = 0 := by
      rw [h.buffer_records n, hnil, List.drop_nil, List.length_nil]
    rw [if_neg (by omega), if_neg (by omega)]
  · rw [h.total_eq hnil, sequenceDistance_numberAt (by omega) (by omega)]
    split_ifs
    · congr 1
      omega
    · omega
    · omega
    · rfl

end Sound

end Site

/-! ## Answers -/

section Answers

variable {frame : ReadRangeAck R → ℕ} {buffer : LogRecordBuffer R} {budget : ReadRangeBudget}

theorem pageLength_le (matching : Window) (numbered backwards : Bool) (left : ℕ) :
    ∀ offset accepted,
      pageLength frame buffer matching numbered backwards budget left offset accepted
        ≤ offset + left := by
  induction left with
  | zero => exact fun _ _ => le_refl _
  | succ left ih =>
    intro offset accepted
    have htaken : ∀ bytes limit, (if bytes > limit then offset
        else pageLength frame buffer matching numbered backwards budget left (offset + 1) bytes)
          ≤ offset + (left + 1) := by
      intro bytes limit
      have hrest := ih (offset + 1) bytes
      split_ifs
      · exact Nat.le_add_right _ _
      · omega
    unfold pageLength
    split
    · exact Nat.le_add_right _ _
    dsimp only
    split
    · exact Nat.le_add_right _ _
    · exact htaken _ _

variable {ack : ReadRangeAck R}

/-- A nonempty window is answered by its first records, at least one. -/
theorem appendPage_ok {matching : Window} (hpart : matching.start < matching.stop)
    (hok : appendPage frame buffer matching true false budget = .ok ack) :
    ∃ length, 1 ≤ length ∧ matching.start + length ≤ matching.stop ∧ ack.itemCount = length ∧
      ack.records = (buffer.records.drop matching.start).take length ∧
      ack.firstSequenceNumber = (buffer.recordIdentity matching.start).map (·.sequenceNumber) ∧
      ack.resultFlags.lastItem
        = decide (matching.start + length = buffer.records.length) := by
  unfold appendPage at hok
  split_ifs at hok with hframe
  dsimp only at hok
  split_ifs at hok with hnone
  cases hok
  have hle : pageLength frame buffer matching true false budget matching.length 0 0
      ≤ 0 + matching.length := pageLength_le matching true false matching.length 0 0
  set length := pageLength frame buffer matching true false budget matching.length 0 0
  have hlength : matching.length = matching.stop - matching.start := rfl
  have hpositive : length ≠ 0 := fun hzero => hnone ⟨by omega, hzero⟩
  have hpartLength : (matching.part false length).length = length := by
    unfold Window.part Window.length
    rw [if_neg (by decide)]
    exact Nat.add_sub_cancel_left _ _
  have hpartStart : (matching.part false length).start = matching.start := rfl
  have hpartStop : (matching.part false length).stop = matching.start + length := rfl
  refine ⟨length, by omega, by omega, hpartLength, ?_, ?_, ?_⟩
  · rw [hpartLength, hpartStart]
  · unfold envelope
    dsimp only
    rw [hpartLength, hpartStart, if_pos]
    rw [Bool.true_and, bne_iff_ne]
    exact hpositive
  · unfold envelope
    rw [hpartLength, if_neg hpositive]
    rw [hpartStop]
    exact Bool.beq_eq_decide_eq _ _

theorem appendPage_empty (hok : appendPage frame buffer ⟨0, 0⟩ true false budget = .ok ack) :
    ack.itemCount = 0 := by
  unfold appendPage at hok
  split_ifs at hok with hframe
  dsimp only at hok
  split_ifs at hok with hnone
  cases hok
  rfl

/-- A read by number is answered from the record with that number on, or with nothing. -/
theorem serveReadRange_sequence {inserted : List R} (hkeeps : buffer.Keeps inserted) {number : ℕ}
    {count : ℤ} (hcount : 0 < count)
    (hok : serveReadRange frame buffer (some (.bySequenceNumber number count)) budget = .ok ack) :
    match buffer.recordPosition number with
    | none => ack.itemCount = 0
    | some index => ∃ length, 1 ≤ length ∧ index + length ≤ buffer.records.length ∧
        ack.itemCount = length ∧ ack.records = (buffer.records.drop index).take length ∧
        ack.firstSequenceNumber = some number ∧
        ack.resultFlags.lastItem = decide (index + length = buffer.records.length) := by
  have hforward : ((some (RangeSpec.bySequenceNumber number count)).any
      fun range => decide (range.count < 0)) = false := by
    rw [Option.any_some]
    exact decide_eq_false (by show ¬count < 0; omega)
  unfold serveReadRange prepareReadRange at hok
  dsimp only [LogIdentities.position] at hok
  rw [hforward] at hok
  cases hposition : buffer.recordPosition number with
  | none =>
    rw [hposition] at hok
    exact appendPage_empty hok
  | some index =>
    obtain ⟨identity, hidentity, hnumber⟩ :=
      (LogRecordBuffer.recordPosition_eq_some_iff hkeeps number index).mp hposition
    have hindex := (LogRecordBuffer.index_lt hidentity).1
    have hselected : selectSignedRange buffer.recordCount (some index) count
        = ⟨index, min (index + count.toNat) buffer.records.length⟩ := by
      unfold selectSignedRange
      have hcounted : index < buffer.recordCount := hindex
      rw [Option.filter_some, if_pos (decide_eq_true hcounted)]
      dsimp only
      rw [if_neg (by omega), if_pos (by omega)]
      unfold Window.orEmpty
      rw [if_neg]
      · rfl
      · show ¬min (index + count.toNat) buffer.records.length ≤ index
        omega
    rw [hposition] at hok
    rw [hselected] at hok
    obtain ⟨length, hpositive, hle, hitems, hrecords, hfirst, hlast⟩ :=
      appendPage_ok (by dsimp only; omega) hok
    dsimp only at hle hrecords hfirst hlast ⊢
    refine ⟨length, hpositive, by omega, hitems, hrecords, ?_, hlast⟩
    rw [hfirst, hidentity, Option.map_some, hnumber]

end Answers

end RustyBacnet.Log
