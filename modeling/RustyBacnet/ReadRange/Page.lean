import RustyBacnet.ReadRange.Ack

/-!
# ReadRange pages

What a ReadRange request selects from a list (`prepare_read_range`), the answer that carries all of
it (`append_read_range_ack_with`), and the page of it that a budget lets through
(`append_page_with`). The items and the identities of their records are taken as the object lends
them; what encodes a property value is a parameter, as it is in the source.
-/

namespace RustyBacnet.ReadRange

open Encoding
open Log (Window ResultFlags RangeSpec LogIdentities LogRecordBuffer ResidentLogRecord LookupError
  TimestampKey ReadRangeBudget)

/-- `PropertyIdentifier::LOG_BUFFER`. -/
def logBufferProperty : UInt32 := 131

structure ReadRangeRequest where
  objectIdentifier : ObjectIdentifier
  propertyIdentifier : UInt32
  propertyArrayIndex : Option UInt32
  range : Option RangeSpec

/-- A record of an Audit Log, as `encode_audit_log_record` encodes it. -/
class AuditLogRecord (A : Type) where
  encode : A → Except Error (List UInt8)

/-- The items one page draws from. -/
inductive RangeItems (A R : Type) where
  | values (items : List PropertyValue)
  | auditRecords (records : List A)
  | logRecords (records : LogRecordBuffer R)

variable {A R : Type} [AuditLogRecord A] [ResidentLogRecord R]

namespace RangeItems

def len : RangeItems A R → ℕ
  | .values items => items.length
  | .auditRecords records => records.length
  | .logRecords records => records.recordCount

/-- The octets of item `index`; past the items, where the source panics, there are none. -/
def encodeWith (items : RangeItems A R) (encodeValue : PropertyValue → Except Error (List UInt8))
    (index : ℕ) : Except Error (List UInt8) :=
  match items with
  | .values items => (items[index]?.map encodeValue).getD (.ok [])
  | .auditRecords records => (records[index]?.map AuditLogRecord.encode).getD (.ok [])
  | .logRecords records => (records.records[index]?.map ResidentLogRecord.encode).getD (.ok [])

end RangeItems

/-- `encode_property_value` into an empty buffer. -/
def encodeValueOctets (value : PropertyValue) : Except Error (List UInt8) :=
  match encodePropertyValue [] value with
  | (.error refused, _) => .error refused
  | (.ok (), octets) => .ok octets

/-- The sequence number of the record at `index`. -/
def sequenceNumber (identities : LogIdentities R) (index : ℕ) : UInt64 :=
  match identities with
  | .buffer records =>
    UInt64.ofNat (((records.recordIdentity index).map (·.sequenceNumber)).getD 0)
  | .audit records => UInt64.ofNat ((records[index]?.map (·.sequenceNumber)).getD 0)
  | .listed identities => UInt64.ofNat ((identities[index]?.map (·.sequenceNumber)).getD 0)

/-! ## The selection -/

structure SignedRangeSelection where
  range : Window
  resultFlags : ResultFlags
  deriving DecidableEq

def SignedRangeSelection.fromRange (total : ℕ) (range : Window) : SignedRangeSelection :=
  if range.stop ≤ range.start then ⟨⟨0, 0⟩, ⟨false, false, false⟩⟩
  else ⟨range, ⟨range.start == 0, range.stop == total, false⟩⟩

def selectSignedRange (total : ℕ) (reference : Option ℕ) (count : ℤ) : SignedRangeSelection :=
  .fromRange total (Log.selectSignedRange total reference count)

/-- The number of a selection's first record, unless the selection is empty. -/
def firstSequence (identities : LogIdentities R) (selection : SignedRangeSelection) :
    Option UInt64 :=
  if selection.range.length = 0 then none
  else some (sequenceNumber identities selection.range.start)

def selectTimeRange (itemCount : ℕ) (identities : Option (LogIdentities R)) (date : Date)
    (time : Time) (count : ℤ) : Except LookupError (SignedRangeSelection × Option UInt64) :=
  match identities with
  | none => .error .listItemNotTimestamped
  | some identities =>
    if identities.len ≠ itemCount then .error .listItemNotTimestamped
    else
      match TimestampKey.of date time with
      | none => .error .listItemNotTimestamped
      | some reference =>
        match identities.timeAnchor reference count with
        | .error refused => .error refused
        | .ok anchor =>
          let selection := selectSignedRange itemCount anchor count
          .ok (selection, firstSequence identities selection)

structure PreparedReadRange (A R : Type) where
  request : ReadRangeRequest
  items : RangeItems A R
  selection : SignedRangeSelection
  firstSequenceNumber : Option UInt64
  identities : Option (LogIdentities R)

/-- What a request selects from the items of its target, with what identifies their records. -/
def prepareReadRange (request : ReadRangeRequest) (items : RangeItems A R)
    (logIdentities : Option (LogIdentities R)) : Except LookupError (PreparedReadRange A R) :=
  match request.range with
  | none =>
    .ok ⟨request, items, .fromRange items.len ⟨0, items.len⟩, none, none⟩
  | some (.byPosition referenceIndex count) =>
    let reference := if referenceIndex = 0 then none else some (referenceIndex - 1)
    .ok ⟨request, items, selectSignedRange items.len reference count, none, none⟩
  | some (.bySequenceNumber referenceSeq count) =>
    if request.propertyIdentifier ≠ logBufferProperty then .error .listItemNotNumbered
    else
      match logIdentities with
      | none => .error .listItemNotNumbered
      | some identities =>
        if identities.len ≠ items.len then .error .listItemNotNumbered
        else
          match identities.position referenceSeq with
          | .error refused => .error refused
          | .ok reference =>
            let selection := selectSignedRange items.len reference count
            .ok ⟨request, items, selection, firstSequence identities selection, some identities⟩
  | some (.byTime date time count) =>
    if request.propertyIdentifier ≠ logBufferProperty then .error .listItemNotTimestamped
    else
      match selectTimeRange items.len logIdentities date time count with
      | .error refused => .error refused
      | .ok (selection, first) => .ok ⟨request, items, selection, first, logIdentities⟩

section Encoders

variable (encodeValue : PropertyValue → Except Error (List UInt8))

/-- The octets of `length` items from `start` on, in the order of the list. -/
def encodeItems (items : RangeItems A R) : ℕ → ℕ → Except Error (List UInt8)
  | _, 0 => .ok []
  | start, length + 1 =>
    match items.encodeWith encodeValue start with
    | .error refused => .error refused
    | .ok item =>
      match encodeItems items (start + 1) length with
      | .error refused => .error refused
      | .ok rest => .ok (item ++ rest)

def appendReadRangeAckWith (request : ReadRangeRequest) (items : RangeItems A R)
    (selection : SignedRangeSelection) (firstSequenceNumber : Option UInt64)
    (response : List UInt8) : Except Error Unit × List UInt8 :=
  match encodeItems encodeValue items selection.range.start selection.range.length with
  | .error refused => (.error refused, response)
  | .ok itemData =>
    let ack : ReadRangeAck := {
      objectIdentifier := request.objectIdentifier
      propertyIdentifier := request.propertyIdentifier
      propertyArrayIndex := request.propertyArrayIndex
      resultFlags := selection.resultFlags
      itemCount := UInt32.ofNat selection.range.length
      itemData
      firstSequenceNumber }
    (.ok (), response ++ ack.encode)

/-! ## One page -/

inductive ReadRangeFailure where
  | service (refused : Error)
  | bytes
  deriving DecidableEq

def negative (range : Option RangeSpec) : Bool := range.any fun range => range.count < 0

/-- The answer for the items of a window, without them. -/
def envelope (selected : PreparedReadRange A R) (range : Window) :
    Except ReadRangeFailure ReadRangeAck :=
  if 4294967295 < range.length then .error .bytes
  else .ok {
    objectIdentifier := selected.request.objectIdentifier
    propertyIdentifier := selected.request.propertyIdentifier
    propertyArrayIndex := selected.request.propertyArrayIndex
    resultFlags :=
      if range.length = 0 then ⟨false, false, false⟩
      else ⟨range.start == 0, range.stop == selected.items.len, range != selected.selection.range⟩
    itemCount := UInt32.ofNat range.length
    itemData := []
    firstSequenceNumber :=
      if range.length = 0 then none
      else selected.identities.map fun identities => sequenceNumber identities range.start }

/-- The items a page has taken: their octets in the order they were taken, the window they fill and
its answer. -/
structure Taken where
  chunks : List (List UInt8)
  acceptedBytes : ℕ
  range : Window
  ack : ReadRangeAck

variable (selected : PreparedReadRange A R) (budget : ReadRangeBudget) (backwards : Bool)

def takeItems : ℕ → ℕ → Taken → Except ReadRangeFailure Taken
  | 0, _, taken => .ok taken
  | left + 1, offset, taken =>
    let matching := selected.selection.range
    if taken.chunks.length ≥ budget.maxReturnedItems ∨ taken.chunks.length ≥ 4294967295 then
      .ok taken
    else
      let index := if backwards then matching.stop - 1 - offset else matching.start + offset
      let candidate : Window :=
        if backwards then ⟨index, matching.stop⟩ else ⟨matching.start, index + 1⟩
      match envelope selected candidate with
      | .error refused => .error refused
      | .ok nextAck =>
        let header := nextAck.encode.length
        if header > budget.maxServiceAckBytes then .ok taken
        else
          match selected.items.encodeWith encodeValue index with
          | .error refused => .error (.service refused)
          | .ok item =>
            let bytes := taken.acceptedBytes + item.length
            if bytes > budget.maxServiceAckBytes - header then .ok taken
            else
              takeItems left (offset + 1) {
                chunks := taken.chunks ++ [item]
                acceptedBytes := bytes
                range := candidate
                ack := nextAck }

/-- Append one page; a refusal leaves the response as it was. -/
def appendPageWith (response : List UInt8) : Except ReadRangeFailure Unit × List UInt8 :=
  let backwards := negative selected.request.range
  let matching := selected.selection.range
  let range : Window :=
    if backwards then ⟨matching.stop, matching.stop⟩ else ⟨matching.start, matching.start⟩
  match envelope selected range with
  | .error refused => (.error refused, response)
  | .ok ack =>
    if ack.encode.length > budget.maxServiceAckBytes then (.error .bytes, response)
    else
      match takeItems encodeValue selected budget backwards matching.length 0 ⟨[], 0, range, ack⟩ with
      | .error refused => (.error refused, response)
      | .ok taken =>
        if matching.length ≠ 0 ∧ taken.range.length = 0 then (.error .bytes, response)
        else
          let chunks := if backwards then taken.chunks.reverse else taken.chunks
          (.ok (), response ++ { taken.ack with itemData := chunks.flatten }.encode)

end Encoders

end RustyBacnet.ReadRange
