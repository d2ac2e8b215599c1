import RustyBacnet.ReadRange.Page

/-!
# A page is exact

Every selection is a window of the items, with its flags and its first number (`Selected`). The answer
for its first items, from the end the count starts at, is `answer`, and what the budget has to say
of it is `Fits`. The loop holds the answer for the items it has taken (`Holds`), all of which fit; it
stops where the next does not, or where an item is refused (`takeItems_spec`). `page_exact` collects
what that says of one page.
-/

namespace RustyBacnet.ReadRange

open Encoding Fields
open Log (Window ResultFlags RangeSpec LogIdentities ResidentLogRecord LookupError ReadRangeBudget)

variable {A R : Type} [AuditLogRecord A] [ResidentLogRecord R]

/-! ## Selections -/

/-- A selection is a window of the items, with the flags and the first number it implies. -/
structure PreparedReadRange.Selected (selected : PreparedReadRange A R) : Prop where
  start_le : selected.selection.range.start ≤ selected.selection.range.stop
  stop_le : selected.selection.range.stop ≤ selected.items.len
  flags : selected.selection.resultFlags =
    if selected.selection.range.length = 0 then ⟨false, false, false⟩
    else ⟨selected.selection.range.start == 0, selected.selection.range.stop == selected.items.len,
      false⟩
  first : selected.firstSequenceNumber =
    if selected.selection.range.length = 0 then none
    else selected.identities.map fun identities =>
      sequenceNumber identities selected.selection.range.start

theorem selectSignedRange_stop (total : ℕ) (reference : Option ℕ) (count : ℤ) :
    (Log.selectSignedRange total reference count).stop ≤ total := by
  unfold Log.selectSignedRange
  cases hreference : reference.filter fun reference => reference < total with
  | none => exact Nat.zero_le total
  | some reference =>
    have hlt : reference < total := by
      simpa using (Option.filter_eq_some_iff.mp hreference).2
    dsimp only
    unfold Window.orEmpty
    split_ifs
    · exact Nat.zero_le total
    · exact Nat.zero_le total
    · exact Nat.min_le_right _ _
    · exact Nat.zero_le total
    · exact hlt

variable {range : Window}

theorem fromRange_spec {total : ℕ} (h : range.stop ≤ total) :
    let selection := SignedRangeSelection.fromRange total range
    selection.range.start ≤ selection.range.stop ∧ selection.range.stop ≤ total ∧
      selection.resultFlags =
        if selection.range.length = 0 then ⟨false, false, false⟩
        else ⟨selection.range.start == 0, selection.range.stop == total, false⟩ := by
  unfold SignedRangeSelection.fromRange
  by_cases hempty : range.stop ≤ range.start
  · rw [if_pos hempty]
    exact ⟨Nat.le_refl 0, Nat.zero_le total, rfl⟩
  · rw [if_neg hempty]
    refine ⟨Nat.le_of_lt (Nat.not_le.mp hempty), h, ?_⟩
    have hlength : ¬ range.length = 0 := by
      unfold Window.length
      omega
    rw [if_neg hlength]

variable {items : RangeItems A R}
  {identities : Option (LogIdentities R)} {request : ReadRangeRequest}

omit [AuditLogRecord A] in
theorem selected_of {first : Option UInt64} (h : range.stop ≤ items.len)
    (hfirst : first = if (SignedRangeSelection.fromRange items.len range).range.length = 0 then none
      else identities.map fun identities => sequenceNumber identities
        (SignedRangeSelection.fromRange items.len range).range.start) :
    PreparedReadRange.Selected
      ⟨request, items, .fromRange items.len range, first, identities⟩ := by
  obtain ⟨hstart, hstop, hflags⟩ := fromRange_spec h
  exact ⟨hstart, hstop, hflags, hfirst⟩

theorem no_first (selection : SignedRangeSelection) :
    (none : Option UInt64) = if selection.range.length = 0 then none
      else (none : Option (LogIdentities R)).map fun identities =>
        sequenceNumber identities selection.range.start := by
  split_ifs <;> rfl

theorem firstSequence_eq (identities : LogIdentities R) (selection : SignedRangeSelection) :
    firstSequence identities selection = if selection.range.length = 0 then none
      else (some identities).map fun identities =>
        sequenceNumber identities selection.range.start := rfl

omit [AuditLogRecord A] in
/-- What a request selects is a window of the items it was given. -/
theorem prepareReadRange_spec {selected : PreparedReadRange A R}
    (h : prepareReadRange request items identities = .ok selected) : selected.Selected := by
  unfold prepareReadRange at h
  split at h
  · cases h
    exact selected_of (Nat.le_refl _) (no_first _)
  · cases h
    exact selected_of (selectSignedRange_stop _ _ _) (no_first _)
  · split_ifs at h
    split at h
    · cases h
    · split_ifs at h
      split at h
      · cases h
      · cases h
        exact selected_of (selectSignedRange_stop _ _ _) (firstSequence_eq _ _)
  · split_ifs at h
    split at h
    · cases h
    · next selection first htime =>
      cases h
      unfold selectTimeRange at htime
      split at htime
      · cases htime
      · split_ifs at htime
        split at htime
        · cases htime
        · split at htime
          · cases htime
          · obtain ⟨rfl, rfl⟩ := Prod.mk.inj (Except.ok.inj htime)
            exact selected_of (selectSignedRange_stop _ _ _) (firstSequence_eq _ _)

/-! ## The answers that may be given -/

variable {count : ℕ}

namespace PreparedReadRange

variable (selected : PreparedReadRange A R)

def matching : Window := selected.selection.range

/-- The window of the first `count` items, or the last for a negative count. -/
def page (count : ℕ) : Window := selected.matching.part (negative selected.request.range) count

/-- The place of the item that is taken after `count` others. -/
def itemIndex (count : ℕ) : ℕ :=
  if negative selected.request.range then selected.matching.stop - 1 - count
  else selected.matching.start + count

/-- The answer for `count` items with these octets. -/
def answer (count : ℕ) (itemData : List UInt8) : ReadRangeAck where
  objectIdentifier := selected.request.objectIdentifier
  propertyIdentifier := selected.request.propertyIdentifier
  propertyArrayIndex := selected.request.propertyArrayIndex
  resultFlags :=
    if count = 0 then ⟨false, false, false⟩
    else ⟨(selected.page count).start == 0, (selected.page count).stop == selected.items.len,
      count != selected.matching.length⟩
  itemCount := UInt32.ofNat count
  itemData
  firstSequenceNumber :=
    if count = 0 then none
    else selected.identities.map fun identities =>
      sequenceNumber identities (selected.page count).start

variable (encodeValue : PropertyValue → Except Error (List UInt8)) (budget : ReadRangeBudget)

/-- The octets of the first `count` items, in the order of the list. -/
def itemData (count : ℕ) : Except Error (List UInt8) :=
  encodeItems encodeValue selected.items (selected.page count).start count

/-- The answer for `count` items is within the budget, and within an Unsigned32 of items. -/
def Fits (count : ℕ) : Prop :=
  count ≤ budget.maxReturnedItems ∧ count ≤ 4294967295 ∧
    ∃ octets, selected.itemData encodeValue count = .ok octets ∧
      (selected.answer count octets).encode.length ≤ budget.maxServiceAckBytes

/-- The answer for `count` items is past the budget: by its items, before any octets of them, or with
the octets they have. -/
def TooLong (count : ℕ) : Prop :=
  budget.maxReturnedItems < count ∨ 4294967295 < count ∨
    budget.maxServiceAckBytes < (selected.answer count []).encode.length ∨
      ∃ octets, selected.itemData encodeValue count = .ok octets ∧
        budget.maxServiceAckBytes < (selected.answer count octets).encode.length

/-- Every item is encoded as elements, one at least, nested at most 31 deep. -/
def ItemsAreElements : Prop :=
  ∀ index < selected.items.len, ∀ octets,
    selected.items.encodeWith encodeValue index = .ok octets →
      octets ≠ [] ∧ Elements (maxContextNestingDepth - 1) octets

variable {selected encodeValue budget}

omit [AuditLogRecord A] in
theorem length_answer (count : ℕ) (octets : List UInt8) :
    (selected.answer count octets).encode.length
      = (selected.answer count []).encode.length + octets.length :=
  ReadRangeAck.length_encode (selected.answer count octets) octets

theorem Fits.not_tooLong (h : selected.Fits encodeValue budget count) :
    ¬selected.TooLong encodeValue budget count := by
  obtain ⟨hitems, hcount, octets, hdata, hbytes⟩ := h
  have hlength := selected.length_answer count octets
  rintro (hover | hover | hover | ⟨octets', hdata', hover⟩)
  · omega
  · omega
  · omega
  · rw [hdata] at hdata'
    cases hdata'
    omega

omit [AuditLogRecord A] in
theorem page_length (h : selected.Selected) (hle : count ≤ selected.matching.length) :
    (selected.page count).length = count := by
  have hstart := h.start_le
  unfold page Window.part Window.length matching at *
  split_ifs
  · dsimp only
    omega
  · dsimp only
    omega

omit [AuditLogRecord A] in
theorem page_eq_matching_iff (h : selected.Selected) (hle : count ≤ selected.matching.length) :
    selected.page count = selected.matching ↔ count = selected.matching.length := by
  have hstart := h.start_le
  constructor
  · intro heq
    rw [← heq, page_length h hle]
  · rintro rfl
    unfold page Window.part Window.length matching at *
    split_ifs
    · rw [Nat.sub_sub_self hstart]
    · rw [Nat.add_sub_cancel' hstart]

omit [AuditLogRecord A] in
theorem envelope_page (h : selected.Selected) (hle : count ≤ selected.matching.length)
    (hcount : count ≤ 4294967295) :
    envelope selected (selected.page count) = .ok (selected.answer count []) := by
  have hsame : (selected.page count != selected.selection.range)
      = (count != selected.matching.length) := by
    rw [Bool.eq_iff_iff, bne_iff_ne, bne_iff_ne]
    exact not_congr (page_eq_matching_iff h hle)
  unfold envelope
  rw [page_length h hle, if_neg (Nat.not_lt.mpr hcount), hsame]
  rfl

end PreparedReadRange

/-! ## The octets of a page -/

variable {encodeValue : PropertyValue → Except Error (List UInt8)}

/-- One more item behind the others. -/
theorem encodeItems_snoc (length : ℕ) :
    ∀ {start : ℕ} {octets : List UInt8}, encodeItems encodeValue items start length = .ok octets →
      encodeItems encodeValue items start (length + 1)
        = (items.encodeWith encodeValue (start + length)).map (octets ++ ·) := by
  induction length with
  | zero =>
    intro start octets h
    cases h
    unfold encodeItems
    cases items.encodeWith encodeValue start with
    | error refused => rfl
    | ok item =>
      show Except.ok (item ++ []) = Except.ok ([] ++ item)
      rw [List.append_nil, List.nil_append]
  | succ length ih =>
    intro start octets h
    unfold encodeItems at h ⊢
    cases hitem : items.encodeWith encodeValue start with
    | error refused =>
      rw [hitem] at h
      cases h
    | ok item =>
      rw [hitem] at h
      cases hrest : encodeItems encodeValue items (start + 1) length with
      | error refused =>
        rw [hrest] at h
        cases h
      | ok rest =>
        rw [hrest] at h
        cases h
        rw [ih hrest, Nat.add_right_comm start 1 length, Nat.add_assoc start length 1]
        cases items.encodeWith encodeValue (start + (length + 1)) with
        | error refused => rfl
        | ok last =>
          show Except.ok (item ++ (rest ++ last)) = Except.ok (item ++ rest ++ last)
          rw [List.append_assoc]

/-- Items that are elements are elements together, and octets if there are any items. -/
theorem encodeItems_elements {depth : ℕ} (length : ℕ) :
    ∀ {start : ℕ} {octets : List UInt8}, encodeItems encodeValue items start length = .ok octets →
      (∀ index, start ≤ index → index < start + length → ∀ item,
        items.encodeWith encodeValue index = .ok item → item ≠ [] ∧ Elements depth item) →
      Elements depth octets ∧ (length = 0 ↔ octets = []) := by
  induction length with
  | zero =>
    intro start octets h _
    cases h
    exact ⟨.nil depth, by simp⟩
  | succ length ih =>
    intro start octets h hall
    unfold encodeItems at h
    cases hitem : items.encodeWith encodeValue start with
    | error refused =>
      rw [hitem] at h
      cases h
    | ok item =>
      rw [hitem] at h
      cases hrest : encodeItems encodeValue items (start + 1) length with
      | error refused =>
        rw [hrest] at h
        cases h
      | ok rest =>
        rw [hrest] at h
        cases h
        obtain ⟨hne, helements⟩ := hall start (Nat.le_refl _) (by omega) item hitem
        obtain ⟨hothers, -⟩ := ih hrest fun index hle hlt => hall index (by omega) (by omega)
        refine ⟨helements.append hothers, ?_⟩
        simp [hne]

variable {octets : List UInt8}

namespace PreparedReadRange

variable {selected : PreparedReadRange A R} {budget : ReadRangeBudget}

theorem itemData_succ (h : selected.Selected) (hlt : count < selected.matching.length)
    (hdata : selected.itemData encodeValue count = .ok octets) :
    selected.itemData encodeValue (count + 1)
      = (selected.items.encodeWith encodeValue (selected.itemIndex count)).map fun item =>
          if negative selected.request.range then item ++ octets else octets ++ item := by
  have hstart := h.start_le
  unfold itemData page Window.part itemIndex at *
  cases hback : negative selected.request.range with
  | false =>
    rw [hback, if_neg Bool.false_ne_true] at hdata
    rw [if_neg Bool.false_ne_true, if_neg Bool.false_ne_true]
    rw [encodeItems_snoc count hdata]
    rfl
  | true =>
    rw [hback, if_pos rfl] at hdata
    rw [if_pos rfl, if_pos rfl]
    have hnext : selected.matching.stop - (count + 1) = selected.matching.stop - 1 - count := by
      omega
    have hbehind : selected.matching.stop - 1 - count + 1 = selected.matching.stop - count := by
      unfold Window.length at hlt
      omega
    unfold encodeItems
    rw [hnext, hbehind, hdata]
    cases selected.items.encodeWith encodeValue (selected.matching.stop - 1 - count) with
    | error refused => rfl
    | ok item => rfl

omit [AuditLogRecord A] [ResidentLogRecord R] in
theorem candidate_eq (selected : PreparedReadRange A R) (count : ℕ) :
    (if negative selected.request.range then
        (⟨selected.itemIndex count, selected.selection.range.stop⟩ : Window)
      else ⟨selected.selection.range.start, selected.itemIndex count + 1⟩)
        = selected.page (count + 1) := by
  unfold page Window.part itemIndex matching
  split_ifs
  · congr 1
    omega
  · rfl

end PreparedReadRange

/-! ## The loop -/

/-- The loop has taken `count` items, all of which fit. -/
structure Taken.Holds (taken : Taken) (selected : PreparedReadRange A R)
    (encodeValue : PropertyValue → Except Error (List UInt8)) (budget : ReadRangeBudget)
    (count : ℕ) : Prop where
  count_eq : taken.chunks.length = count
  octets : selected.itemData encodeValue count = .ok
    (if negative selected.request.range then taken.chunks.reverse else taken.chunks).flatten
  bytes : taken.acceptedBytes
    = (if negative selected.request.range then taken.chunks.reverse else taken.chunks).flatten.length
  range : taken.range = selected.page count
  ack : taken.ack = selected.answer count []
  fits : ∀ shorter ≤ count, selected.Fits encodeValue budget shorter

theorem flatten_taken (backwards : Bool) (chunks : List (List UInt8)) (item : List UInt8) :
    (if backwards then (chunks ++ [item]).reverse else chunks ++ [item]).flatten
      = if backwards then item ++ (if backwards then chunks.reverse else chunks).flatten
        else (if backwards then chunks.reverse else chunks).flatten ++ item := by
  cases backwards <;> simp

/-- The loop from the items it holds: it ends with a longer page, whole or before an item that is too
long, or at an item that is refused. -/
theorem takeItems_spec {selected : PreparedReadRange A R} {budget : ReadRangeBudget}
    (h : selected.Selected) (left : ℕ) :
    ∀ {count : ℕ} {taken : Taken}, left + count = selected.matching.length →
      taken.Holds selected encodeValue budget count →
      match takeItems encodeValue selected budget (negative selected.request.range) left count
        taken with
      | .ok final => ∃ reached ≤ selected.matching.length,
          final.Holds selected encodeValue budget reached ∧
            (reached = selected.matching.length ∨
              selected.TooLong encodeValue budget (reached + 1))
      | .error refused => ∃ reached < selected.matching.length, ∃ error,
          refused = .service error ∧
            selected.items.encodeWith encodeValue (selected.itemIndex reached) = .error error ∧
            (∀ shorter ≤ reached, selected.Fits encodeValue budget shorter) ∧
            ¬selected.TooLong encodeValue budget (reached + 1) := by
  induction left with
  | zero =>
    intro count taken hleft hholds
    rw [Nat.zero_add] at hleft
    exact ⟨count, Nat.le_of_eq hleft, hholds, .inl hleft⟩
  | succ left ih =>
    intro count taken hleft hholds
    have hlt : count < selected.matching.length := by omega
    unfold takeItems
    dsimp only
    rw [show (if negative selected.request.range then selected.selection.range.stop - 1 - count
      else selected.selection.range.start + count) = selected.itemIndex count from rfl]
    by_cases hcaps : taken.chunks.length ≥ budget.maxReturnedItems ∨
        taken.chunks.length ≥ 4294967295
    · rw [if_pos hcaps]
      rw [hholds.count_eq] at hcaps
      refine ⟨count, Nat.le_of_lt hlt, hholds, .inr ?_⟩
      rcases hcaps with hitems | hcount
      · exact .inl (Nat.lt_succ_of_le hitems)
      · exact .inr (.inl (Nat.lt_succ_of_le hcount))
    rw [if_neg hcaps]
    rw [hholds.count_eq, not_or, not_le, not_le] at hcaps
    rw [selected.candidate_eq count, PreparedReadRange.envelope_page h (Nat.succ_le_of_lt hlt)
      (Nat.succ_le_of_lt hcaps.2)]
    dsimp only
    by_cases hheader : (selected.answer (count + 1) []).encode.length > budget.maxServiceAckBytes
    · rw [if_pos hheader]
      exact ⟨count, Nat.le_of_lt hlt, hholds, .inr (.inr (.inr (.inl hheader)))⟩
    rw [if_neg hheader]
    have hdata := PreparedReadRange.itemData_succ h hlt hholds.octets
    cases hitem : selected.items.encodeWith encodeValue (selected.itemIndex count) with
    | error error =>
      refine ⟨count, hlt, error, rfl, hitem, hholds.fits, ?_⟩
      rw [hitem] at hdata
      rintro (hover | hover | hover | ⟨octets, hoctets, -⟩)
      · omega
      · omega
      · exact hheader hover
      · rw [hdata] at hoctets
        cases hoctets
    | ok item =>
      dsimp only
      rw [hitem] at hdata
      replace hdata : selected.itemData encodeValue (count + 1) = .ok
          (if negative selected.request.range then (taken.chunks ++ [item]).reverse
            else taken.chunks ++ [item]).flatten := by
        rw [hdata, flatten_taken]
        rfl
      have hbytes : taken.acceptedBytes + item.length
          = (if negative selected.request.range then (taken.chunks ++ [item]).reverse
            else taken.chunks ++ [item]).flatten.length := by
        rw [hholds.bytes, flatten_taken]
        split_ifs
        · rw [List.length_append, Nat.add_comm]
        · rw [List.length_append]
      have hlength := selected.length_answer (count + 1)
        (if negative selected.request.range then (taken.chunks ++ [item]).reverse
          else taken.chunks ++ [item]).flatten
      by_cases hlong : taken.acceptedBytes + item.length
          > budget.maxServiceAckBytes - (selected.answer (count + 1) []).encode.length
      · rw [if_pos hlong]
        refine ⟨count, Nat.le_of_lt hlt, hholds, .inr (.inr (.inr (.inr ⟨_, hdata, ?_⟩)))⟩
        omega
      rw [if_neg hlong]
      apply ih (by omega)
      refine ⟨?_, hdata, hbytes, rfl, rfl, ?_⟩
      · rw [List.length_append, hholds.count_eq]
        rfl
      · intro shorter hle
        rcases Nat.lt_or_eq_of_le hle with hlt | rfl
        · exact hholds.fits shorter (Nat.le_of_lt_succ hlt)
        · exact ⟨hcaps.1, hcaps.2, _, hdata, by omega⟩

/-! ## The page -/

section Page

variable {selected : PreparedReadRange A R} {budget : ReadRangeBudget}

def firstTaken (selected : PreparedReadRange A R) : Taken :=
  ⟨[], 0, selected.page 0, selected.answer 0 []⟩

theorem itemData_zero (selected : PreparedReadRange A R) :
    selected.itemData encodeValue 0 = .ok [] := rfl

theorem fits_zero_iff : selected.Fits encodeValue budget 0 ↔
    (selected.answer 0 []).encode.length ≤ budget.maxServiceAckBytes := by
  constructor
  · rintro ⟨-, -, octets, hdata, hbytes⟩
    rw [itemData_zero] at hdata
    cases hdata
    exact hbytes
  · intro hbytes
    exact ⟨Nat.zero_le _, Nat.zero_le _, [], rfl, hbytes⟩

theorem firstTaken_holds (h : selected.Fits encodeValue budget 0) :
    (firstTaken selected).Holds selected encodeValue budget 0 := by
  refine ⟨rfl, ?_, ?_, rfl, rfl, ?_⟩
  · rw [itemData_zero]
    split_ifs <;> rfl
  · split_ifs <;> rfl
  · intro shorter hle
    rwa [Nat.le_zero.mp hle]

theorem appendPageWith_eq (h : selected.Selected) (response : List UInt8) :
    appendPageWith encodeValue selected budget response
      = if (selected.answer 0 []).encode.length > budget.maxServiceAckBytes then
          (.error .bytes, response)
        else
          match takeItems encodeValue selected budget (negative selected.request.range)
            selected.matching.length 0 (firstTaken selected) with
          | .error refused => (.error refused, response)
          | .ok taken =>
            if selected.matching.length ≠ 0 ∧ taken.range.length = 0 then (.error .bytes, response)
            else (.ok (), response ++ { taken.ack with
              itemData := (if negative selected.request.range then taken.chunks.reverse
                else taken.chunks).flatten }.encode) := by
  have hrange : (if negative selected.request.range then
        (⟨selected.selection.range.stop, selected.selection.range.stop⟩ : Window)
      else ⟨selected.selection.range.start, selected.selection.range.start⟩) = selected.page 0 := by
    rfl
  unfold appendPageWith
  dsimp only
  rw [hrange, PreparedReadRange.envelope_page h (Nat.zero_le _) (Nat.zero_le _)]
  rfl

/-- What becomes of a page: its empty answer or its first item is too long; an item is refused before
any answer is too long; or it is the longest page that fits. -/
theorem appendPageWith_spec (h : selected.Selected) (response : List UInt8) :
    ((¬selected.Fits encodeValue budget 0 ∨
        (selected.matching.length ≠ 0 ∧ selected.TooLong encodeValue budget 1)) ∧
      appendPageWith encodeValue selected budget response = (.error .bytes, response)) ∨
    (∃ reached < selected.matching.length, ∃ error,
      selected.items.encodeWith encodeValue (selected.itemIndex reached) = .error error ∧
      (∀ shorter ≤ reached, selected.Fits encodeValue budget shorter) ∧
      ¬selected.TooLong encodeValue budget (reached + 1) ∧
      appendPageWith encodeValue selected budget response = (.error (.service error), response)) ∨
    (∃ reached ≤ selected.matching.length, ∃ octets,
      selected.itemData encodeValue reached = .ok octets ∧
      (∀ shorter ≤ reached, selected.Fits encodeValue budget shorter) ∧
      (reached = selected.matching.length ∨ selected.TooLong encodeValue budget (reached + 1)) ∧
      (selected.matching.length ≠ 0 → reached ≠ 0) ∧
      appendPageWith encodeValue selected budget response
        = (.ok (), response ++ (selected.answer reached octets).encode)) := by
  rw [appendPageWith_eq h response]
  by_cases hzero : (selected.answer 0 []).encode.length > budget.maxServiceAckBytes
  · rw [if_pos hzero]
    refine .inl ⟨.inl ?_, rfl⟩
    rw [fits_zero_iff]
    exact Nat.not_le.mpr hzero
  rw [if_neg hzero]
  have hfits : selected.Fits encodeValue budget 0 := fits_zero_iff.mpr (Nat.not_lt.mp hzero)
  have hloop := takeItems_spec h selected.matching.length (Nat.add_zero _) (firstTaken_holds hfits)
  cases htake : takeItems encodeValue selected budget (negative selected.request.range)
      selected.matching.length 0 (firstTaken selected) with
  | error refused =>
    rw [htake] at hloop
    obtain ⟨reached, hlt, error, rfl, hitem, hshorter, hnot⟩ := hloop
    exact .inr (.inl ⟨reached, hlt, error, hitem, hshorter, hnot, rfl⟩)
  | ok final =>
    rw [htake] at hloop
    obtain ⟨reached, hle, hholds, hlast⟩ := hloop
    dsimp only
    rw [hholds.range, PreparedReadRange.page_length h hle]
    by_cases hnone : selected.matching.length ≠ 0 ∧ reached = 0
    · rw [if_pos hnone]
      obtain ⟨hne, rfl⟩ := hnone
      rcases hlast with hlast | hlast
      · exact absurd hlast.symm hne
      · exact .inl ⟨.inr ⟨hne, hlast⟩, rfl⟩
    · rw [if_neg hnone]
      refine .inr (.inr ⟨reached, hle, _, hholds.octets, hholds.fits, hlast, ?_, ?_⟩)
      · exact fun hne hzero => hnone ⟨hne, hzero⟩
      · rw [hholds.ack]
        rfl

theorem answer_decodes (h : selected.Selected) (helements : selected.ItemsAreElements encodeValue)
    (hle : count ≤ selected.matching.length) (hcount : count ≤ 4294967295)
    (hdata : selected.itemData encodeValue count = .ok octets) :
    ReadRangeAck.decode (selected.answer count octets).encode = .ok (selected.answer count octets) := by
  have hstop := h.stop_le
  have hstart := h.start_le
  have hwithin : (selected.page count).start + count ≤ selected.items.len := by
    unfold PreparedReadRange.page Window.part
    unfold Window.length at hle
    unfold PreparedReadRange.matching at hle ⊢
    split_ifs
    · dsimp only
      omega
    · dsimp only
      omega
  obtain ⟨hitems, hempty⟩ := encodeItems_elements count hdata fun index _ hlt item hitem =>
    helements index (by omega) item hitem
  have hzero : UInt32.ofNat count = 0 ↔ count = 0 := by
    rw [← UInt32.toNat_inj, UInt32.toNat_ofNat', Nat.mod_eq_of_lt (by omega)]
    rfl
  apply ReadRangeAck.decode_encode _ hitems
  · exact hzero.trans hempty
  · intro hsome hnone
    have hunnumbered : (selected.answer count octets).firstSequenceNumber = none :=
      if_pos (hzero.mp hnone)
    rw [hunnumbered] at hsome
    cases hsome

theorem append_all (h : selected.Selected)
    (hdata : selected.itemData encodeValue selected.matching.length = .ok octets)
    (response : List UInt8) :
    appendReadRangeAckWith encodeValue selected.request selected.items selected.selection
      selected.firstSequenceNumber response
      = (.ok (), response ++ (selected.answer selected.matching.length octets).encode) := by
  have hpage : selected.page selected.matching.length = selected.selection.range :=
    (PreparedReadRange.page_eq_matching_iff h (Nat.le_refl _)).mpr rfl
  have hitems : encodeItems encodeValue selected.items selected.selection.range.start
      selected.selection.range.length = .ok octets := by
    unfold PreparedReadRange.itemData at hdata
    rwa [hpage] at hdata
  unfold appendReadRangeAckWith
  rw [hitems, h.flags, h.first]
  unfold PreparedReadRange.answer
  rw [hpage, bne_self_eq_false]
  rfl

end Page

/-- A page is refused for its size exactly when its empty answer, or the first of the items there are,
does not fit, and a refusal leaves the response alone. Otherwise the response gets the answer for the
longest page that fits with every shorter one, within the budget, and the whole answer if everything
fits. Octets of items that are elements are read back. -/
theorem page_exact {request : ReadRangeRequest} {items : RangeItems A R}
    {identities : Option (LogIdentities R)} {selected : PreparedReadRange A R}
    (h : prepareReadRange request items identities = .ok selected) (budget : ReadRangeBudget)
    (response : List UInt8) :
    let page := appendPageWith encodeValue selected budget response
    (∀ refused, page.1 = .error refused → page.2 = response) ∧
    (page.1 = .error .bytes ↔ ¬selected.Fits encodeValue budget 0 ∨
      (selected.matching.length ≠ 0 ∧ selected.TooLong encodeValue budget 1)) ∧
    (∀ error, page.1 = .error (.service error) → ∃ count < selected.matching.length,
      selected.items.encodeWith encodeValue (selected.itemIndex count) = .error error ∧
      (∀ shorter ≤ count, selected.Fits encodeValue budget shorter)) ∧
    (page.1 = .ok () → ∃ count ≤ selected.matching.length, ∃ octets,
      selected.itemData encodeValue count = .ok octets ∧
      (∀ shorter ≤ count, selected.Fits encodeValue budget shorter) ∧
      (count = selected.matching.length ∨ ¬selected.Fits encodeValue budget (count + 1)) ∧
      page.2 = response ++ (selected.answer count octets).encode ∧
      (selected.answer count octets).encode.length ≤ budget.maxServiceAckBytes ∧
      (selected.ItemsAreElements encodeValue →
        ReadRangeAck.decode (selected.answer count octets).encode
          = .ok (selected.answer count octets))) ∧
    ((∀ count ≤ selected.matching.length, selected.Fits encodeValue budget count) →
      page.1 = .ok () ∧
        appendReadRangeAckWith encodeValue selected.request selected.items selected.selection
          selected.firstSequenceNumber response = (.ok (), page.2)) := by
  intro page
  have hselected := prepareReadRange_spec h
  obtain ⟨hsize, hpage⟩ | ⟨reached, hlt, error, hitem, hshorter, hnot, hpage⟩ |
    ⟨reached, hle, octets, hdata, hshorter, hlast, hsome, hpage⟩ :=
    @appendPageWith_spec _ _ _ _ encodeValue selected budget hselected response
  · have hrefused : page.1 = .error .bytes := congrArg Prod.fst hpage
    refine ⟨fun _ _ => congrArg Prod.snd hpage, ⟨fun _ => hsize, fun _ => hrefused⟩, ?_, ?_, ?_⟩
    · intro error hservice
      rw [hrefused] at hservice
      cases hservice
    · intro hok
      rw [hrefused] at hok
      cases hok
    · intro hall
      rcases hsize with hzero | ⟨hne, hlong⟩
      · exact absurd (hall 0 (Nat.zero_le _)) hzero
      · exact absurd hlong (hall 1 (Nat.one_le_iff_ne_zero.mpr hne)).not_tooLong
  · have hrefused : page.1 = .error (.service error) := congrArg Prod.fst hpage
    refine ⟨fun _ _ => congrArg Prod.snd hpage, ⟨?_, ?_⟩, ?_, ?_, ?_⟩
    · intro hbytes
      rw [hrefused] at hbytes
      cases hbytes
    · rintro (hzero | ⟨hne, hlong⟩)
      · exact absurd (hshorter 0 (Nat.zero_le _)) hzero
      · rcases Nat.eq_zero_or_pos reached with rfl | hpos
        · exact absurd hlong hnot
        · exact absurd hlong (hshorter 1 hpos).not_tooLong
    · intro error' hservice
      rw [hrefused] at hservice
      cases hservice
      exact ⟨reached, hlt, hitem, hshorter⟩
    · intro hok
      rw [hrefused] at hok
      cases hok
    · intro hall
      obtain ⟨-, -, octets, hdata, -⟩ := hshorter reached (Nat.le_refl _)
      obtain ⟨-, -, next, hnext, -⟩ := hall (reached + 1) hlt
      rw [PreparedReadRange.itemData_succ hselected hlt hdata, hitem] at hnext
      cases hnext
  · have hok : page.1 = .ok () := congrArg Prod.fst hpage
    have hoctets : page.2 = response ++ (selected.answer reached octets).encode :=
      congrArg Prod.snd hpage
    obtain ⟨-, hcount, octets', hdata', hbytes⟩ := hshorter reached (Nat.le_refl _)
    rw [hdata] at hdata'
    cases hdata'
    refine ⟨?_, ⟨?_, ?_⟩, ?_, ?_, ?_⟩
    · intro refused hrefused
      rw [hok] at hrefused
      cases hrefused
    · intro hrefused
      rw [hok] at hrefused
      cases hrefused
    · rintro (hzero | ⟨hne, hlong⟩)
      · exact absurd (hshorter 0 (Nat.zero_le _)) hzero
      · exact absurd hlong
          (hshorter 1 (Nat.one_le_iff_ne_zero.mpr (hsome hne))).not_tooLong
    · intro error hrefused
      rw [hok] at hrefused
      cases hrefused
    · intro _
      refine ⟨reached, hle, octets, hdata, hshorter, ?_, hoctets, hbytes, ?_⟩
      · exact hlast.imp_right fun hlong hfits => hfits.not_tooLong hlong
      · exact fun helements => answer_decodes hselected helements hle hcount hdata
    · intro hall
      have hreached : reached = selected.matching.length := by
        rcases hlast with heq | hlong
        · exact heq
        · by_contra hne
          exact (hall (reached + 1) (by omega)).not_tooLong hlong
      rw [hreached] at hdata hoctets
      refine ⟨hok, ?_⟩
      rw [append_all hselected hdata response, hoctets]

/-! ## One page, and an item without octets -/

/-- A record of an Audit Log that there is not. -/
instance : AuditLogRecord Empty where
  encode record := record.elim

instance : ResidentLogRecord Empty where
  timestamp record := record.elim
  encode record := record.elim

/-- The last two of three numbered items, of which the budget lets one through. -/
theorem page_exact_backwards :
    let items : RangeItems Empty Empty := .values [.unsigned 7, .unsigned 8, .unsigned 9]
    let identity := fun number => (⟨number, ⟨126, 8, 1, 6⟩, ⟨0, 0, 0, 0⟩⟩ : Log.LogRecordIdentity)
    let identities : LogIdentities Empty := .listed [identity 4, identity 5, identity 6]
    let device : ObjectIdentifier := ⟨20, 1, by decide, by decide⟩
    let selected : PreparedReadRange Empty Empty :=
      ⟨⟨device, logBufferProperty, none, some (.bySequenceNumber 6 (-2))⟩, items,
        ⟨⟨1, 3⟩, ⟨false, true, false⟩⟩, some 5, some identities⟩
    ∃ count ≤ 2, ∃ octets, selected.itemData encodeValueOctets count = .ok octets ∧
      (appendPageWith encodeValueOctets selected ⟨50, 1⟩ []).2
        = (selected.answer count octets).encode := by
  intro items identity identities device selected
  have hprepared : prepareReadRange selected.request items (some identities) = .ok selected :=
    rfl
  have hok : (appendPageWith encodeValueOctets selected ⟨50, 1⟩ []).1 = .ok () := rfl
  obtain ⟨count, hle, octets, hdata, -, -, hpage, -⟩ :=
    (page_exact hprepared ⟨50, 1⟩ []).2.2.2.1 hok
  exact ⟨count, hle, octets, hdata, hpage⟩

/-- An item that is an empty list has no octets, and the decoder refuses an answer that counts it. -/
theorem empty_list_not_decoded :
    let device : ObjectIdentifier := ⟨20, 1, by decide, by decide⟩
    let items : RangeItems Empty Empty := .values [.list []]
    ∃ selected octets,
      prepareReadRange ⟨device, 85, none, none⟩ items none = .ok selected ∧
      appendPageWith encodeValueOctets selected ⟨1476, 100⟩ [] = (.ok (), octets) ∧
      ReadRangeAck.decode octets = .error (.decodingAt 12
        "ReadRange ACK item-count contradicts empty item-data") := by
  intro device items
  refine ⟨_, [12, 5, 0, 0, 1, 25, 85, 58, 5, 192, 73, 1, 94, 95], rfl, ?_, ?_⟩
  · decide
  · decide

end RustyBacnet.ReadRange
