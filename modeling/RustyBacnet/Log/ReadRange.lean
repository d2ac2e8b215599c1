import RustyBacnet.Log.Lookup

/-!
# ReadRange over a record buffer

The server's side of a paged read: the window a request selects (`select_signed_range`,
`prepare_read_range`) and the part of it one answer carries under a budget (`append_page_with`). An
answer carries the records themselves; the octets of its frame are a parameter, since they only
decide where a page is cut.
-/

namespace RustyBacnet.Log

open Encoding

variable {R : Type} [ResidentLogRecord R]

/-- The range a request names. -/
inductive RangeSpec where
  | byPosition (referenceIndex : ℕ) (count : ℤ)
  | bySequenceNumber (referenceSeq : ℕ) (count : ℤ)
  | byTime (date : Date) (time : Time) (count : ℤ)

def RangeSpec.count : RangeSpec → ℤ
  | .byPosition _ count => count
  | .bySequenceNumber _ count => count
  | .byTime _ _ count => count

/-- A window of the list, from `start` up to `stop`. -/
structure Window where
  start : ℕ
  stop : ℕ
  deriving DecidableEq

def Window.length (window : Window) : ℕ := window.stop - window.start

/-- `SignedRangeSelection::from_range` without its flags, which the page computes again. -/
def Window.orEmpty (window : Window) : Window :=
  if window.stop ≤ window.start then ⟨0, 0⟩ else window

/-- A window around an index: from it for a positive count, up to it for a negative one. -/
def selectSignedRange (total : ℕ) (reference : Option ℕ) (count : ℤ) : Window :=
  match reference.filter fun reference => reference < total with
  | none => ⟨0, 0⟩
  | some reference =>
    if count = 0 then ⟨0, 0⟩
    else if count > 0 then Window.orEmpty ⟨reference, min (reference + count.toNat) total⟩
    else Window.orEmpty ⟨reference + 1 - count.natAbs, reference + 1⟩

/-- The window a request selects, and whether its records are numbered. -/
def prepareReadRange (buffer : LogRecordBuffer R) (range : Option RangeSpec) :
    Except LookupError (Window × Bool) :=
  let total := buffer.recordCount
  match range with
  | none => .ok (Window.orEmpty ⟨0, total⟩, false)
  | some (.byPosition referenceIndex count) =>
    let reference := if referenceIndex = 0 then none else some (referenceIndex - 1)
    .ok (selectSignedRange total reference count, false)
  | some (.bySequenceNumber referenceSeq count) =>
    match (LogIdentities.buffer buffer).position referenceSeq with
    | .error refused => .error refused
    | .ok reference => .ok (selectSignedRange total reference count, true)
  | some (.byTime date time count) =>
    match TimestampKey.of date time with
    | none => .error .listItemNotTimestamped
    | some reference =>
      match (LogIdentities.buffer buffer).timeAnchor reference count with
      | .error refused => .error refused
      | .ok anchor => .ok (selectSignedRange total anchor count, true)

/-- FIRST_ITEM, LAST_ITEM and MORE_ITEMS. -/
structure ResultFlags where
  firstItem : Bool
  lastItem : Bool
  moreItems : Bool
  deriving DecidableEq

structure ReadRangeAck (R : Type) where
  resultFlags : ResultFlags
  itemCount : ℕ
  records : List R
  firstSequenceNumber : Option ℕ

structure ReadRangeBudget where
  maxServiceAckBytes : ℕ
  maxReturnedItems : ℕ

inductive ReadRangeFailure where
  | service (refused : LookupError)
  | bytes
  deriving DecidableEq

/-- The octets of a record's production; a resident record encodes. -/
def itemOctets (record : R) : ℕ :=
  match ResidentLogRecord.encode record with
  | .ok octets => octets.length
  | .error _ => 0

/-- What an answer says of the part `part` of the window `matching`, but for its records. -/
def envelope (buffer : LogRecordBuffer R) (matching part : Window) (numbered : Bool) :
    ReadRangeAck R where
  resultFlags :=
    if part.length = 0 then ⟨false, false, false⟩
    else ⟨part.start == 0, part.stop == buffer.recordCount, part != matching⟩
  itemCount := part.length
  records := []
  firstSequenceNumber :=
    if numbered && part.length != 0 then
      (buffer.recordIdentity part.start).map (·.sequenceNumber)
    else none

/-- The first `length` items of a window, from the end the count starts at. -/
def Window.part (matching : Window) (backwards : Bool) (length : ℕ) : Window :=
  if backwards then ⟨matching.stop - length, matching.stop⟩
  else ⟨matching.start, matching.start + length⟩

section Page

variable (frame : ReadRangeAck R → ℕ)

/-- The loop of `append_page_with`: how many items fit, `offset` of them taken so far. -/
def pageLength (buffer : LogRecordBuffer R) (matching : Window) (numbered backwards : Bool)
    (budget : ReadRangeBudget) : ℕ → ℕ → ℕ → ℕ
  | 0, offset, _ => offset
  | left + 1, offset, accepted =>
    if offset ≥ budget.maxReturnedItems ∨ offset ≥ 4294967295 then offset
    else
      let header := frame
        (envelope buffer matching (matching.part backwards (offset + 1)) numbered)
      if header > budget.maxServiceAckBytes then offset
      else
        let index := if backwards then matching.stop - 1 - offset else matching.start + offset
        let bytes := accepted + (buffer.records[index]?.map itemOctets).getD 0
        if bytes > budget.maxServiceAckBytes - header then offset
        else pageLength buffer matching numbered backwards budget left (offset + 1) bytes

/-- `append_page_with`. -/
def appendPage (buffer : LogRecordBuffer R) (matching : Window) (numbered backwards : Bool)
    (budget : ReadRangeBudget) : Except ReadRangeFailure (ReadRangeAck R) :=
  if frame (envelope buffer matching (matching.part backwards 0) numbered)
      > budget.maxServiceAckBytes then .error .bytes
  else
    let length := pageLength frame buffer matching numbered backwards budget matching.length 0 0
    if matching.length ≠ 0 ∧ length = 0 then .error .bytes
    else
      let part := matching.part backwards length
      .ok { envelope buffer matching part numbered with
        records := (buffer.records.drop part.start).take part.length }

def serveReadRange (buffer : LogRecordBuffer R) (range : Option RangeSpec)
    (budget : ReadRangeBudget) : Except ReadRangeFailure (ReadRangeAck R) :=
  match prepareReadRange buffer range with
  | .error refused => .error (.service refused)
  | .ok (matching, numbered) =>
    appendPage frame buffer matching numbered (range.any fun range => range.count < 0) budget

end Page

end RustyBacnet.Log
