import RustyBacnet.Log.BufferLaws

/-!
# Looking records up

ReadRange finds a record by its number or by time. On a record buffer the number's place is computed
and a time is bisected while the timestamps run in order; the listed identities are scanned. Both give
the same answers on every buffer a run can leave.
-/

namespace RustyBacnet.Log

open Encoding

variable {R : Type} [ResidentLogRecord R]

/-- The refusals of a lookup: PROPERTY with LIST_ITEM_NOT_NUMBERED or LIST_ITEM_NOT_TIMESTAMPED. -/
inductive LookupError where
  | listItemNotNumbered
  | listItemNotTimestamped
  deriving DecidableEq

/-- The loop of `scan_time_anchor` over the indices that are left. -/
def scanFrom (key : ℕ → Option TimestampKey) (reference : TimestampKey) :
    List ℕ → Option ℕ → Option ℕ → Except LookupError (Option ℕ × Option ℕ)
  | [], firstAfter, lastBefore => .ok (firstAfter, lastBefore)
  | index :: indices, firstAfter, lastBefore =>
    match key index with
    | none => .error .listItemNotTimestamped
    | some found =>
      scanFrom key reference indices
        (if firstAfter.isNone ∧ found > reference then some index else firstAfter)
        (if found < reference then some index else lastBefore)

/-- The time anchor over every record in resident order. -/
def scanTimeAnchor (len : ℕ) (key : ℕ → Option TimestampKey) (reference : TimestampKey)
    (count : ℤ) : Except LookupError (Option ℕ) :=
  match scanFrom key reference (List.range len) none none with
  | .error refused => .error refused
  | .ok (firstAfter, lastBefore) => .ok (if count > 0 then firstAfter else lastBefore)

/-- The loop of `partition_point`. -/
def partitionFrom (before : ℕ → Bool) (low high : ℕ) : ℕ :=
  if low < high then
    let middle := low + (high - low) / 2
    if before middle then partitionFrom before (middle + 1) high
    else partitionFrom before low middle
  else low
termination_by high - low

def partitionPoint (len : ℕ) (before : ℕ → Bool) : ℕ := partitionFrom before 0 len

/-- The time anchor by bisection; a missing timestamp compares below every moment. -/
def bisectTimeAnchor (len : ℕ) (key : ℕ → Option TimestampKey) (reference : TimestampKey)
    (count : ℤ) : Option ℕ :=
  if count > 0 then
    let after := partitionPoint len fun index => (key index).all fun found => found ≤ reference
    if after < len then some after else none
  else
    let from_ := partitionPoint len fun index => (key index).all fun found => found < reference
    if from_ = 0 then none else some (from_ - 1)

/-! ## The identities of a log -/

/-- A record of an Audit Log's ring. -/
structure AuditRecord where
  sequenceNumber : ℕ
  date : Date
  time : Time

/-- How many places after `start` the number `number` comes, in a cycle of `2^64 - 1`. -/
def sequenceOffset (start number : ℕ) : Option ℕ :=
  if start = 0 ∨ number = 0 then none
  else some (if number ≥ start then number - start else 18446744073709551615 - start + number)

/-- What ReadRange selects a log's records by. -/
inductive LogIdentities (R : Type) where
  | buffer (records : LogRecordBuffer R)
  | audit (records : List AuditRecord)
  | listed (identities : List LogRecordIdentity)

namespace LogIdentities

def len : LogIdentities R → ℕ
  | .buffer records => records.recordCount
  | .audit records => records.length
  | .listed identities => identities.length

/-- The index of the record numbered `number`. -/
def position (ids : LogIdentities R) (number : ℕ) : Except LookupError (Option ℕ) :=
  match ids with
  | .buffer records => .ok (records.recordPosition number)
  | .audit records =>
    let computed := (records.head?.bind fun oldest => sequenceOffset oldest.sequenceNumber number)
    match computed.filter fun index =>
      (records[index]?).any fun record => record.sequenceNumber == number with
    | some index => .ok (some index)
    | none =>
      if records.any fun record => record.sequenceNumber == 0 then .error .listItemNotNumbered
      else .ok (records.findIdx? fun record => record.sequenceNumber == number)
  | .listed identities =>
    .ok (identities.findIdx? fun identity => identity.sequenceNumber == number)

def timeAnchor (ids : LogIdentities R) (reference : TimestampKey) (count : ℤ) :
    Except LookupError (Option ℕ) :=
  match ids with
  | .buffer records =>
    let key := fun index => (records.recordIdentity index).bind (·.timestampKey)
    match records.timestampOrder with
    | .unkeyed => .error .listItemNotTimestamped
    | .ascending => .ok (bisectTimeAnchor records.recordCount key reference count)
    | .unordered =>
      if count > 0 then
        .ok ((List.range records.recordCount).find? fun index =>
          (key index).any fun found => found > reference)
      else
        .ok ((List.range records.recordCount).reverse.find? fun index =>
          (key index).any fun found => found < reference)
  | .audit records =>
    scanTimeAnchor records.length
      (fun index => records[index]?.bind fun record =>
        if record.sequenceNumber = 0 then none else TimestampKey.of record.date record.time)
      reference count
  | .listed identities =>
    scanTimeAnchor identities.length (fun index => identities[index]?.bind (·.timestampKey))
      reference count

end LogIdentities

/-! ## Numbers in the cycle -/

theorem sequenceBefore_bounds (number steps : ℕ) :
    sequenceBefore number steps ≠ 0 ∧ sequenceBefore number steps ≤ sequenceCycle := by
  unfold sequenceBefore sequenceCycle
  omega

variable {number : ℕ}

theorem sequenceBefore_zero (hpos : number ≠ 0) (hle : number ≤ sequenceCycle) :
    sequenceBefore number 0 = number := by
  unfold sequenceBefore
  unfold sequenceCycle at hle ⊢
  omega

variable {steps : ℕ}

theorem nextSequence_sequenceBefore (hle : number ≤ sequenceCycle)
    (hsteps : steps + 1 < sequenceCycle) :
    nextSequence (sequenceBefore number (steps + 1)) = sequenceBefore number steps := by
  unfold nextSequence sequenceBefore
  unfold sequenceCycle at hle hsteps ⊢
  split_ifs
  · omega
  · omega

theorem sequenceDistance_eq_iff {total : ℕ} (hnumber : number ≠ 0) (hbound : number ≤ sequenceCycle)
    (hpos : total ≠ 0) (hle : total ≤ sequenceCycle) (hsteps : steps < sequenceCycle) :
    sequenceDistance number total = steps ↔ sequenceBefore total steps = number := by
  unfold sequenceDistance sequenceBefore
  unfold sequenceCycle at hbound hle hsteps ⊢
  omega

namespace LogRecordBuffer

variable {buffer : LogRecordBuffer R} {inserted : List R} {index : ℕ}

theorem recordIdentity_some (h : index < buffer.records.length) :
    ∃ record, buffer.records[index]? = some record ∧
      buffer.recordIdentity index = some (buffer.identityAt index record) := by
  refine ⟨buffer.records[index], List.getElem?_eq_getElem h, ?_⟩
  unfold recordIdentity
  rw [List.getElem?_eq_getElem h]
  rfl

variable {identity : LogRecordIdentity}

theorem index_lt (h : buffer.recordIdentity index = some identity) :
    index < buffer.records.length ∧
      identity.sequenceNumber
        = sequenceBefore buffer.totalRecordCount (buffer.records.length - 1 - index) := by
  obtain ⟨record, hrecord, rfl⟩ := Option.map_eq_some_iff.mp h
  exact ⟨(List.getElem?_eq_some_iff.mp hrecord).1, rfl⟩

theorem identities_getElem? (buffer : LogRecordBuffer R) (index : ℕ) :
    buffer.identities[index]? = buffer.recordIdentity index := by
  exact List.getElem?_mapIdx

theorem identities_length (buffer : LogRecordBuffer R) :
    buffer.identities.length = buffer.records.length :=
  List.length_mapIdx

/-- A place is computed exactly for the numbers of resident records. -/
theorem recordPosition_eq_some_iff (h : buffer.Keeps inserted) (number index : ℕ) :
    buffer.recordPosition number = some index ↔
      ∃ identity, buffer.recordIdentity index = some identity ∧
        identity.sequenceNumber = number := by
  have hlength := le_trans h.length_le h.capacity
  have htotal := h.total
  unfold recordPosition
  constructor
  · intro hposition
    split_ifs at hposition with hrange
    dsimp only at hposition
    split_ifs at hposition with hnewer
    cases hposition
    have hindex : buffer.records.length - 1 - sequenceDistance number buffer.totalRecordCount
        < buffer.records.length := by omega
    obtain ⟨record, _, hidentity⟩ := recordIdentity_some hindex
    refine ⟨_, hidentity, ?_⟩
    have hne : buffer.records ≠ [] := by
      rintro hnil
      rw [hnil] at hnewer
      exact absurd hnewer (Nat.not_lt_zero _)
    rw [not_or, not_lt] at hrange
    have hsame := (sequenceDistance_eq_iff hrange.2 hrange.1 (h.numbered hne) htotal
      (by omega : sequenceDistance number buffer.totalRecordCount < sequenceCycle)).mp rfl
    unfold identityAt
    rw [show buffer.records.length - 1
      - (buffer.records.length - 1 - sequenceDistance number buffer.totalRecordCount)
      = sequenceDistance number buffer.totalRecordCount by omega]
    exact hsame
  · rintro ⟨identity, hidentity, rfl⟩
    obtain ⟨hindex, hnumber⟩ := index_lt hidentity
    have hne : buffer.records ≠ [] := by
      rintro hnil
      rw [hnil] at hindex
      exact absurd hindex (Nat.not_lt_zero _)
    obtain ⟨hpos, hle⟩ := sequenceBefore_bounds buffer.totalRecordCount
      (buffer.records.length - 1 - index)
    rw [← hnumber] at hpos hle
    have hdistance := (sequenceDistance_eq_iff hpos hle (h.numbered hne) htotal
      (by omega : buffer.records.length - 1 - index < sequenceCycle)).mpr hnumber.symm
    rw [if_neg (by omega)]
    rw [hdistance, if_pos (by omega), Option.some.injEq]
    omega

theorem sequenceNumber_injective (h : buffer.Keeps inserted) {other : ℕ}
    {identity' : LogRecordIdentity} (hidentity : buffer.recordIdentity index = some identity)
    (hidentity' : buffer.recordIdentity other = some identity')
    (hsame : identity.sequenceNumber = identity'.sequenceNumber) : index = other := by
  have hposition := (recordPosition_eq_some_iff h identity.sequenceNumber index).mpr
    ⟨identity, hidentity, rfl⟩
  have hposition' := (recordPosition_eq_some_iff h identity.sequenceNumber other).mpr
    ⟨identity', hidentity', hsame.symm⟩
  rw [hposition] at hposition'
  exact Option.some.inj hposition'

/-- The computed place is the one a scan of the identities finds. -/
theorem position_eq_listed (h : buffer.Keeps inserted) (number : ℕ) :
    (LogIdentities.buffer buffer).position number
      = (LogIdentities.listed buffer.identities : LogIdentities R).position number := by
  unfold LogIdentities.position
  dsimp only
  congr 1
  cases hposition : buffer.recordPosition number with
  | none =>
    symm
    rw [List.findIdx?_eq_none_iff]
    intro identity hmem
    rw [beq_eq_false_iff_ne]
    rintro rfl
    obtain ⟨index, hindex⟩ := List.mem_iff_getElem?.mp hmem
    rw [identities_getElem?] at hindex
    rw [(recordPosition_eq_some_iff h _ index).mpr ⟨identity, hindex, rfl⟩] at hposition
    cases hposition
  | some index =>
    symm
    obtain ⟨identity, hidentity, rfl⟩ := (recordPosition_eq_some_iff h _ index).mp hposition
    have hlt : index < buffer.identities.length := by
      rw [identities_length]
      exact (index_lt hidentity).1
    have hat : ∀ other (hother : other < buffer.identities.length),
        buffer.recordIdentity other = some (buffer.identities[other]) := by
      intro other hother
      rw [← identities_getElem?, List.getElem?_eq_getElem hother]
    rw [List.findIdx?_eq_some_iff_getElem]
    refine ⟨hlt, ?_, ?_⟩
    · have hhere := hat index hlt
      rw [hidentity] at hhere
      rw [← Option.some.inj hhere]
      exact beq_self_eq_true _
    · intro other hother hmatch
      have hsame := sequenceNumber_injective h (hat other (lt_trans hother hlt)) hidentity
        (beq_iff_eq.mp hmatch)
      omega

end LogRecordBuffer

/-! ## Times in order -/

variable {key : ℕ → Option TimestampKey} {reference : TimestampKey}

/-- The scan over keyed records finds the first after the reference and the last before it. -/
theorem scanFrom_ok (indices : List ℕ) :
    ∀ firstAfter lastBefore, (∀ index ∈ indices, (key index).isSome = true) →
      scanFrom key reference indices firstAfter lastBefore
        = .ok (firstAfter.or (indices.find? fun index =>
            (key index).any fun found => found > reference),
          (indices.reverse.find? fun index =>
            (key index).any fun found => found < reference).or lastBefore) := by
  induction indices with
  | nil => exact fun firstAfter lastBefore _ => by simp [scanFrom]
  | cons index indices ih =>
    intro firstAfter lastBefore hkeyed
    obtain ⟨found, hfound⟩ := Option.isSome_iff_exists.mp (hkeyed index List.mem_cons_self)
    unfold scanFrom
    rw [hfound]
    dsimp only
    rw [ih _ _ fun other hother => hkeyed other (List.mem_cons_of_mem _ hother)]
    rw [List.reverse_cons, List.find?_append, List.find?_cons, List.find?_cons, List.find?_nil,
      hfound, Option.any_some, Option.any_some]
    congr 2
    · by_cases hafter : found > reference
      · cases firstAfter with
        | none => simp [hafter]
        | some first => simp [hafter]
      · simp [hafter]
    · rw [Option.or_assoc]
      congr 1
      by_cases hbefore : found < reference
      · simp [hbefore]
      · simp [hbefore]

theorem scanFrom_error (indices : List ℕ) :
    ∀ firstAfter lastBefore, (∃ index ∈ indices, key index = none) →
      scanFrom key reference indices firstAfter lastBefore = .error .listItemNotTimestamped := by
  induction indices with
  | nil => exact fun _ _ h => absurd h (by simp)
  | cons index indices ih =>
    intro firstAfter lastBefore hunkeyed
    unfold scanFrom
    split
    · rfl
    · rename_i found hfound
      refine ih _ _ ?_
      obtain ⟨other, hother, hnone⟩ := hunkeyed
      rcases List.mem_cons.mp hother with rfl | hother
      · rw [hfound] at hnone
        cases hnone
      · exact ⟨other, hother, hnone⟩

variable {before : ℕ → Bool}

theorem partitionFrom_spec {len : ℕ}
    (hdown : ∀ i j, i ≤ j → j < len → before j = true → before i = true) (low high : ℕ) :
    low ≤ high → high ≤ len → (∀ i < low, before i = true) →
      (∀ i, high ≤ i → i < len → before i = false) →
      partitionFrom before low high ≤ len ∧
        (∀ i < partitionFrom before low high, before i = true) ∧
        ∀ i, partitionFrom before low high ≤ i → i < len → before i = false := by
  induction hn : high - low using Nat.strong_induction_on generalizing low high with
  | _ n ih =>
    intro hle hlen hbelow habove
    unfold partitionFrom
    split_ifs with hlt
    · dsimp only
      split_ifs with hmiddle
      · refine ih (high - (low + (high - low) / 2 + 1)) (by omega) _ _ rfl (by omega) hlen ?_ habove
        intro i hi
        exact hdown i _ (by omega) (by omega) hmiddle
      · refine ih (low + (high - low) / 2 - low) (by omega) _ _ rfl (by omega) (by omega) hbelow ?_
        intro i hi hilen
        by_contra hholds
        rw [Bool.not_eq_false] at hholds
        exact hmiddle (hdown _ i hi hilen hholds)
    · have heq : low = high := by omega
      subst heq
      exact ⟨hlen, hbelow, habove⟩

theorem partitionPoint_spec {len : ℕ}
    (hdown : ∀ i j, i ≤ j → j < len → before j = true → before i = true) :
    partitionPoint len before ≤ len ∧ (∀ i < partitionPoint len before, before i = true) ∧
      ∀ i, partitionPoint len before ≤ i → i < len → before i = false :=
  partitionFrom_spec hdown 0 len (Nat.zero_le _) (le_refl _) (fun i hi => absurd hi (by omega))
    fun i hi hlt => absurd hi (by omega)

variable {p : ℕ → Bool}

theorem find?_range_eq_some {len n : ℕ} (hlt : n < len) (hn : p n = true)
    (hbefore : ∀ i < n, p i = false) : (List.range len).find? p = some n := by
  rw [List.find?_range_eq_some]
  refine ⟨hn, List.mem_range.mpr hlt, ?_⟩
  intro i hi
  rw [hbefore i hi]
  rfl

theorem find?_reverse_range_eq_some {len n : ℕ} (hlt : n < len) (hn : p n = true)
    (hafter : ∀ i, n < i → i < len → p i = false) : (List.range len).reverse.find? p = some n := by
  induction len with
  | zero => exact absurd hlt (Nat.not_lt_zero _)
  | succ len ih =>
    rw [List.range_succ, List.reverse_append, List.reverse_singleton, List.singleton_append,
      List.find?_cons]
    by_cases hlast : n = len
    · subst hlast
      rw [hn]
    · rw [hafter len (by omega) (Nat.lt_succ_self _)]
      exact ih (by omega) fun i hi hlt => hafter i hi (by omega)

/-- Bisection of timestamps in order finds what the scan finds. -/
theorem bisectTimeAnchor_eq {len : ℕ} (hkeyed : ∀ i < len, (key i).isSome = true)
    (hordered : ∀ i j, i ≤ j → j < len → ∀ a b, key i = some a → key j = some b → a ≤ b)
    (reference : TimestampKey) (count : ℤ) :
    bisectTimeAnchor len key reference count
      = if count > 0 then (List.range len).find? fun index =>
          (key index).any fun found => found > reference
        else (List.range len).reverse.find? fun index =>
          (key index).any fun found => found < reference := by
  -- what holds of an earlier moment holds on a prefix
  have hdown : ∀ (p : TimestampKey → Bool), (∀ a b, a ≤ b → p b = true → p a = true) →
      ∀ i j, i ≤ j → j < len → (key j).all p = true → (key i).all p = true := by
    intro p hp i j hij hj hall
    obtain ⟨a, ha⟩ := Option.isSome_iff_exists.mp (hkeyed i (by omega))
    obtain ⟨b, hb⟩ := Option.isSome_iff_exists.mp (hkeyed j hj)
    rw [ha, Option.all_some]
    rw [hb, Option.all_some] at hall
    exact hp a b (hordered i j hij hj a b ha hb) hall
  unfold bisectTimeAnchor
  split_ifs with hcount
  · obtain ⟨hle, hbelow, habove⟩ := partitionPoint_spec
      (hdown (fun found => decide (found ≤ reference)) fun a b hab hb => by
        rw [decide_eq_true_iff] at hb ⊢
        exact le_trans hab hb)
    dsimp only
    generalize partitionPoint len (fun index => (key index).all fun found =>
      decide (found ≤ reference)) = after at hle hbelow habove ⊢
    have hnot : ∀ i < after, ((key i).any fun found => decide (found > reference)) = false := by
      intro i hi
      have hall := hbelow i hi
      obtain ⟨a, ha⟩ := Option.isSome_iff_exists.mp (hkeyed i (by omega))
      rw [ha, Option.all_some, decide_eq_true_iff] at hall
      rw [ha, Option.any_some, decide_eq_false_iff_not]
      exact not_lt.mpr hall
    split_ifs with hlt
    · symm
      refine find?_range_eq_some hlt ?_ hnot
      have hfalse := habove after (le_refl _) hlt
      obtain ⟨a, ha⟩ := Option.isSome_iff_exists.mp (hkeyed after hlt)
      rw [ha, Option.all_some, decide_eq_false_iff_not] at hfalse
      rw [ha, Option.any_some, decide_eq_true_iff]
      exact not_le.mp hfalse
    · symm
      rw [List.find?_eq_none]
      intro i hi
      rw [hnot i (by have := List.mem_range.mp hi; omega)]
      decide
  · obtain ⟨hle, hbelow, habove⟩ := partitionPoint_spec
      (hdown (fun found => decide (found < reference)) fun a b hab hb => by
        rw [decide_eq_true_iff] at hb ⊢
        exact lt_of_le_of_lt hab hb)
    dsimp only
    generalize partitionPoint len (fun index => (key index).all fun found =>
      decide (found < reference)) = from_ at hle hbelow habove ⊢
    have hnot : ∀ i, from_ ≤ i → i < len →
        ((key i).any fun found => decide (found < reference)) = false := by
      intro i hi hlt
      have hall := habove i hi hlt
      obtain ⟨a, ha⟩ := Option.isSome_iff_exists.mp (hkeyed i hlt)
      rw [ha, Option.all_some] at hall
      rw [ha, Option.any_some]
      exact hall
    split_ifs with hzero
    · symm
      rw [List.find?_eq_none]
      intro i hi
      rw [List.mem_reverse, List.mem_range] at hi
      rw [hnot i (by omega) hi]
      decide
    · symm
      refine find?_reverse_range_eq_some (by omega) ?_ fun i hi hlt => hnot i (by omega) hlt
      have hall := hbelow (from_ - 1) (by omega)
      obtain ⟨a, ha⟩ := Option.isSome_iff_exists.mp (hkeyed (from_ - 1) (by omega))
      rw [ha, Option.all_some] at hall
      rw [ha, Option.any_some]
      exact hall

namespace LogRecordBuffer

variable {buffer : LogRecordBuffer R} {inserted : List R}

theorem recordIdentity_timestampKey (buffer : LogRecordBuffer R) (index : ℕ) :
    (buffer.recordIdentity index).bind (·.timestampKey)
      = buffer.records[index]?.bind timestampKey := by
  unfold recordIdentity
  cases buffer.records[index]? with
  | none => rfl
  | some record => rfl

theorem unkeyed_eq_zero_iff (h : buffer.Tallied) :
    buffer.unkeyed = 0 ↔ ∀ record ∈ buffer.records, (timestampKey record).isSome = true := by
  rw [h.unkeyed, List.countP_eq_zero]
  refine forall₂_congr fun record _ => ?_
  cases timestampKey record with
  | none => simp
  | some key => simp

/-- Without descents, timestamps that are moments run in order. -/
theorem ordered_of_countDescents {records : List R} (hzero : countDescents records = 0)
    (hkeyed : ∀ record ∈ records, (timestampKey record).isSome = true) :
    records.Pairwise fun earlier later => ∀ a b, timestampKey earlier = some a →
      timestampKey later = some b → a ≤ b := by
  induction records with
  | nil => exact .nil
  | cons first rest ih =>
    rw [countDescents_cons] at hzero
    have hrest := ih (by omega) fun record hrecord => hkeyed record (List.mem_cons_of_mem _ hrecord)
    refine List.pairwise_cons.mpr ⟨?_, hrest⟩
    cases rest with
    | nil => exact fun _ h => absurd h List.not_mem_nil
    | cons second rest =>
      obtain ⟨b, hb⟩ := Option.isSome_iff_exists.mp
        (hkeyed second (List.mem_cons_of_mem _ List.mem_cons_self))
      have hfirst : ∀ a, timestampKey first = some a → a ≤ b := by
        intro a ha
        have hdescends : descends first second = false := by
          by_contra hdescends
          rw [Bool.not_eq_false] at hdescends
          rw [List.head?_cons, Option.any_some, if_pos hdescends] at hzero
          omega
        unfold descends at hdescends
        rw [ha, hb] at hdescends
        exact not_lt.mp (of_decide_eq_false hdescends)
      intro later hlater a c ha hc
      rcases List.mem_cons.mp hlater with rfl | hlater
      · rw [hb] at hc
        cases hc
        exact hfirst a ha
      · exact le_trans (hfirst a ha) ((List.pairwise_cons.mp hrest).1 later hlater b c hb hc)

/-- Looking a time up on the buffer is scanning its identities. -/
theorem timeAnchor_eq_listed (h : buffer.Keeps inserted) (reference : TimestampKey) (count : ℤ) :
    (LogIdentities.buffer buffer).timeAnchor reference count
      = (LogIdentities.listed buffer.identities : LogIdentities R).timeAnchor reference count := by
  have hkeys : (fun index : ℕ =>
      buffer.identities[index]?.bind LogRecordIdentity.timestampKey) = fun index => buffer.records[index]?.bind timestampKey := by
    funext index
    rw [identities_getElem?, recordIdentity_timestampKey]
  have hkeys' : (fun index =>
      (buffer.recordIdentity index).bind LogRecordIdentity.timestampKey) = fun index => buffer.records[index]?.bind timestampKey :=
    funext (recordIdentity_timestampKey buffer)
  have hunkeyed := unkeyed_eq_zero_iff h.toTallied
  have hdescents := h.descents
  unfold LogIdentities.timeAnchor timestampOrder scanTimeAnchor recordCount
  dsimp only
  rw [hkeys, hkeys', identities_length]
  by_cases hzero : buffer.unkeyed = 0
  · have hall := hunkeyed.mp hzero
    have hkeyed : ∀ index < buffer.records.length,
        (buffer.records[index]?.bind timestampKey).isSome = true := by
      intro index hindex
      rw [List.getElem?_eq_getElem hindex]
      exact hall _ (List.getElem_mem hindex)
    rw [scanFrom_ok (List.range buffer.records.length) none none fun index hindex =>
      hkeyed index (List.mem_range.mp hindex)]
    rw [Option.none_or, Option.or_none, if_neg (by omega)]
    by_cases hback : buffer.descents = 0
    · rw [if_neg (by omega)]
      rw [bisectTimeAnchor_eq hkeyed ?_ reference count]
      intro i j hij hj a b ha hb
      rcases Nat.lt_or_eq_of_le hij with hlt | rfl
      · have hpair := List.pairwise_iff_getElem.mp
          (ordered_of_countDescents (hdescents.symm.trans hback) hall) i j (by omega) hj hlt
        rw [List.getElem?_eq_getElem (by omega)] at ha
        rw [List.getElem?_eq_getElem hj] at hb
        exact hpair a b ha hb
      · rw [ha] at hb
        exact le_of_eq (Option.some.inj hb)
    · rw [if_pos (by omega)]
      simp only [recordIdentity_timestampKey]
      split_ifs
      · rfl
      · rfl
  · rw [if_pos (by omega)]
    rw [scanFrom_error]
    by_contra hnone
    apply hzero
    rw [hunkeyed]
    intro record hrecord
    obtain ⟨index, hindex⟩ := List.mem_iff_getElem?.mp hrecord
    by_contra hmissing
    refine hnone ⟨index, List.mem_range.mpr (List.getElem?_eq_some_iff.mp hindex).1, ?_⟩
    rw [hindex]
    simpa using hmissing

/-! ## The full walk -/

theorem walkOrder_unkeyed {keys : List (Option TimestampKey)} (h : none ∈ keys) :
    ∀ previous order, walkOrder keys previous order = .unkeyed := by
  induction keys with
  | nil => exact absurd h List.not_mem_nil
  | cons key keys ih =>
    intro previous order
    cases key with
    | none => rfl
    | some key =>
      rcases List.mem_cons.mp h with heq | h
      · cases heq
      · exact ih h _ _

/-- Over moments the walk tells whether any pair goes back. -/
theorem walkOrder_keyed (records : List R) :
    ∀ (previous : Option R) (order : TimestampOrder),
      (∀ record ∈ records, (timestampKey record).isSome = true) →
      (∀ record, previous = some record → (timestampKey record).isSome = true) →
      walkOrder (records.map timestampKey) (previous.bind timestampKey) order
        = if 0 < countDescents (previous.toList ++ records) then .unordered else order := by
  induction records with
  | nil =>
    intro previous order _ _
    cases previous with
    | none => rfl
    | some record => rfl
  | cons record records ih =>
    intro previous order hkeyed hprevious
    obtain ⟨key, hkey⟩ := Option.isSome_iff_exists.mp (hkeyed record List.mem_cons_self)
    have hrest := ih (some record)
      (if (previous.bind timestampKey).any fun previous => key < previous then .unordered else order)
      (fun other hother => hkeyed other (List.mem_cons_of_mem _ hother))
      (fun other hother => by
        cases hother
        exact hkeyed record List.mem_cons_self)
    rw [Option.bind_some, hkey, Option.toList_some, List.singleton_append] at hrest
    rw [List.map_cons, hkey]
    show walkOrder (records.map timestampKey) (some key) _ = _
    rw [hrest]
    cases previous with
    | none =>
      rw [Option.toList_none, List.nil_append]
      rfl
    | some before =>
      obtain ⟨earlier, hearlier⟩ := Option.isSome_iff_exists.mp (hprevious before rfl)
      have hdescends : descends before record = decide (key < earlier) := by
        unfold descends
        rw [hearlier, hkey]
      have hcount : countDescents (before :: record :: records)
          = (if descends before record then 1 else 0) + countDescents (record :: records) := rfl
      rw [Option.toList_some, List.singleton_append, hcount, hdescends, Option.bind_some, hearlier,
        Option.any_some]
      by_cases hback : key < earlier
      · simp only [decide_eq_true hback, if_true, ite_self]
        rw [if_pos (by omega)]
      · simp only [decide_eq_false hback, Bool.false_eq_true, if_false, Nat.zero_add]

theorem timestampOrder_eq_walk (h : buffer.Tallied) :
    buffer.timestampOrder
      = walkOrder (buffer.records.map timestampKey) none .ascending := by
  have hunkeyed := unkeyed_eq_zero_iff h
  unfold timestampOrder
  by_cases hzero : buffer.unkeyed = 0
  · have hwalk := walkOrder_keyed buffer.records none .ascending (hunkeyed.mp hzero)
      fun _ h => nomatch h
    rw [Option.bind_none, Option.toList_none, List.nil_append] at hwalk
    rw [if_neg (by omega), hwalk, h.descents]
  · rw [if_pos (by omega), walkOrder_unkeyed]
    by_contra hnone
    apply hzero
    rw [hunkeyed]
    intro record hrecord
    by_contra hmissing
    apply hnone
    rw [List.mem_map]
    exact ⟨record, hrecord, by simpa using hmissing⟩

/-! ## Every run -/

/-- After every run a buffer holds the newest records since the last clear or restore, numbered
consecutively up to its count; it finds each by its number and no other, its tallies never underflow
and answer as a full walk would, admissions that stop before it is full drop nothing, a refused
restore changes nothing, and lookups are those of a scan over its identities. -/
theorem log_identities_and_lookups (capacity : UInt32) (ops : List (Op R)) :
    let buffer : LogRecordBuffer R := (new capacity).performAll ops
    let inserted := recallAll (new capacity) [] ops
    (buffer.records = inserted.drop (inserted.length - capacity.toNat) ∧
      buffer.records.length ≤ capacity.toNat) ∧
    (∀ index identity, buffer.recordIdentity index = some identity →
      identity.sequenceNumber ≠ 0 ∧ identity.sequenceNumber ≤ sequenceCycle ∧
      (∀ other identity', buffer.recordIdentity other = some identity' →
        identity'.sequenceNumber = identity.sequenceNumber → other = index) ∧
      (∀ next, buffer.recordIdentity (index + 1) = some next →
        next.sequenceNumber = nextSequence identity.sequenceNumber) ∧
      (index + 1 = buffer.records.length →
        identity.sequenceNumber = buffer.totalRecordCount)) ∧
    (∀ index, (buffer.recordIdentity index).isSome = decide (index < buffer.records.length)) ∧
    (∀ number index, buffer.recordPosition number = some index ↔
      ∃ identity, buffer.recordIdentity index = some identity ∧
        identity.sequenceNumber = number) ∧
    (∀ oldest rest, buffer.records = oldest :: rest →
      (if (timestampKey oldest).isNone then 1 else 0) ≤ buffer.unkeyed ∧
      (if rest.head?.any fun next => descends oldest next then 1 else 0) ≤ buffer.descents) ∧
    buffer.timestampOrder = walkOrder (buffer.records.map timestampKey) none .ascending ∧
    (∀ record enabled,
      (buffer.admitOrdinary record enabled true).2.records = buffer.records ∨
        (buffer.admitOrdinary record enabled true).2.records = buffer.records ++ [record]) ∧
    (∀ total records stops refused, (buffer.restore total records stops).1 = .error refused →
      (buffer.restore total records stops).2 = buffer) ∧
    (∀ number, (LogIdentities.buffer buffer).position number
      = (LogIdentities.listed buffer.identities : LogIdentities R).position number) ∧
    ∀ reference count, (LogIdentities.buffer buffer).timeAnchor reference count
      = (LogIdentities.listed buffer.identities : LogIdentities R).timeAnchor reference count := by
  intro buffer inserted
  have h : buffer.Keeps inserted := keeps_performAll ops (keeps_new capacity)
  have hcapacity : buffer.capacity = capacity.toNat := capacity_performAll ops _
  have hlength := le_trans h.length_le h.capacity
  refine ⟨⟨?_, ?_⟩, ?_, ?_, recordPosition_eq_some_iff h, fun _ _ => h.covers,
    timestampOrder_eq_walk h.toTallied, admitOrdinary_stop buffer, ?_, position_eq_listed h,
    timeAnchor_eq_listed h⟩
  · rw [← hcapacity]
    exact h.records
  · rw [← hcapacity]
    exact h.length_le
  · intro index identity hidentity
    obtain ⟨hindex, hnumber⟩ := index_lt hidentity
    have hne : buffer.records ≠ [] := List.ne_nil_of_length_pos (by omega)
    have hbounds := sequenceBefore_bounds buffer.totalRecordCount
      (buffer.records.length - 1 - index)
    rw [← hnumber] at hbounds
    refine ⟨hbounds.1, hbounds.2, ?_, ?_, ?_⟩
    · exact fun other identity' hidentity' hsame =>
        sequenceNumber_injective h hidentity' hidentity hsame
    · intro next hnext
      obtain ⟨hindex', hnumber'⟩ := index_lt hnext
      rw [hnumber', hnumber,
        show buffer.records.length - 1 - index = buffer.records.length - 1 - (index + 1) + 1 by
          omega,
        nextSequence_sequenceBefore h.total (by omega)]
    · intro hlast
      rw [hnumber, show buffer.records.length - 1 - index = 0 by omega]
      exact sequenceBefore_zero (h.numbered hne) h.total
  · intro index
    unfold recordIdentity
    rw [Option.isSome_map]
    by_cases hindex : index < buffer.records.length
    · rw [List.getElem?_eq_getElem hindex, decide_eq_true hindex]
      rfl
    · rw [List.getElem?_eq_none (by omega), decide_eq_false hindex]
      rfl
  · intro total records stops refused hrefused
    rcases restore_cases buffer total records stops with ⟨_, h⟩ | ⟨_, _, h⟩
    · rw [h]
    · rw [h] at hrefused
      cases hrefused

end LogRecordBuffer

end RustyBacnet.Log
