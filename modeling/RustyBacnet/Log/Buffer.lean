import Mathlib.Data.Prod.Lex
import Mathlib.Data.UInt
import RustyBacnet.Encoding.Primitives

/-!
# The record buffer of a log

`LogRecordBuffer` keeps the newest records of a log and its Total_Record_Count, and derives every
record's identity from that count. Two tallies are kept as records come and go: the records without
an actual moment, and the neighbouring pairs that go back in time. A record is whatever its family
stores; the buffer asks it for its timestamp and whether it encodes.
-/

namespace RustyBacnet.Log

open Encoding

/-! ## Timestamps -/

/-- A timestamp as By-Time reads compare it, most significant field first. -/
structure TimestampKey where
  year : ℕ
  month : UInt8
  day : UInt8
  hour : UInt8
  minute : UInt8
  second : UInt8
  hundredths : UInt8
  deriving DecidableEq

namespace TimestampKey

/-- `TimestampKey::of`. -/
def of (date : Date) (time : Time) : Option TimestampKey :=
  match date.actualYear with
  | none => none
  | some year =>
    if (1 ≤ date.month ∧ date.month ≤ 12) ∧ (1 ≤ date.day ∧ date.day ≤ 31) ∧
        (1 ≤ date.dayOfWeek ∧ date.dayOfWeek ≤ 7) ∧ time.hour ≤ 23 ∧ time.minute ≤ 59 ∧
        time.second ≤ 59 ∧ time.hundredths ≤ 99 then
      some ⟨year, date.month, date.day, time.hour, time.minute, time.second, time.hundredths⟩
    else none

def order (key : TimestampKey) : ℕ ×ₗ ℕ ×ₗ ℕ ×ₗ ℕ ×ₗ ℕ ×ₗ ℕ ×ₗ ℕ :=
  toLex (key.year, toLex (key.month.toNat, toLex (key.day.toNat, toLex (key.hour.toNat,
    toLex (key.minute.toNat, toLex (key.second.toNat, key.hundredths.toNat))))))

theorem order_injective : Function.Injective order := by
  intro key other h
  unfold order at h
  simp only [EmbeddingLike.apply_eq_iff_eq, Prod.mk.injEq, UInt8.toNat_inj] at h
  obtain ⟨year, month, day, hour, minute, second, hundredths⟩ := key
  obtain ⟨rfl, rfl, rfl, rfl, rfl, rfl, rfl⟩ := h
  rfl

instance : LinearOrder TimestampKey where
  __ := PartialOrder.lift order order_injective
  le_total a b := le_total a.order b.order
  toDecidableLE a b := inferInstanceAs (Decidable (a.order ≤ b.order))
  toDecidableEq := inferInstance

end TimestampKey

/-- How a log's timestamps stand for a search by time. -/
inductive TimestampOrder where
  | unkeyed
  | ascending
  | unordered
  deriving DecidableEq

/-- What the buffer asks of a record: `ResidentLogRecord`. -/
class ResidentLogRecord (R : Type) where
  timestamp : R → Date × Time
  encode : R → Except Error (List UInt8)

open ResidentLogRecord (timestamp)

variable {R : Type} [ResidentLogRecord R]

def timestampKey (record : R) : Option TimestampKey :=
  TimestampKey.of (timestamp record).1 (timestamp record).2

/-- `later`, right after `earlier`, is stamped before it. -/
def descends (earlier later : R) : Bool :=
  match timestampKey earlier, timestampKey later with
  | some earlier, some later => decide (later < earlier)
  | _, _ => false

def sequenceCycle : ℕ := 4294967295

def nextSequence (number : ℕ) : ℕ := if number = sequenceCycle then 1 else number + 1

/-- The number `steps` places before `number`. -/
def sequenceBefore (number steps : ℕ) : ℕ :=
  ((number - 1) + sequenceCycle - steps % sequenceCycle) % sequenceCycle + 1

/-- How many places after `start` the number `number` comes. -/
def sequenceDistance (start number : ℕ) : ℕ := (number + sequenceCycle - start) % sequenceCycle

structure LogRecordIdentity where
  sequenceNumber : ℕ
  date : Date
  time : Time
  deriving DecidableEq

def LogRecordIdentity.timestampKey (identity : LogRecordIdentity) : Option TimestampKey :=
  TimestampKey.of identity.date identity.time

/-! ## The buffer -/

/-- A log's records, oldest first, its capacity and its count, both below `2^32`. -/
structure LogRecordBuffer (R : Type) where
  capacity : ℕ
  records : List R
  totalRecordCount : ℕ
  unkeyed : ℕ
  descents : ℕ

inductive OrdinaryAdmission where
  | ignoredDisabled
  | inserted
  | countOnly
  | stopBeforeFull
  deriving DecidableEq

inductive ForcedAdmission where
  | inserted
  | countOnly
  deriving DecidableEq

namespace LogRecordBuffer

def new (capacity : UInt32) : LogRecordBuffer R := ⟨capacity.toNat, [], 0, 0, 0⟩

def isFull (buffer : LogRecordBuffer R) : Bool := decide (buffer.records.length ≥ buffer.capacity)

def nextRecordWouldFill (buffer : LogRecordBuffer R) : Bool :=
  buffer.capacity == 0 || decide (buffer.records.length + 1 ≥ buffer.capacity)

def pushBack (buffer : LogRecordBuffer R) (record : R) : LogRecordBuffer R :=
  { buffer with
    descents := buffer.descents
      + if buffer.records.getLast?.any fun last => descends last record then 1 else 0
    unkeyed := buffer.unkeyed + if (timestampKey record).isNone then 1 else 0
    records := buffer.records ++ [record] }

/-- Drop the oldest record, taking it out of the tallies. -/
def popFront (buffer : LogRecordBuffer R) : LogRecordBuffer R :=
  match buffer.records with
  | [] => buffer
  | oldest :: rest =>
    { buffer with
      records := rest
      unkeyed := buffer.unkeyed - if (timestampKey oldest).isNone then 1 else 0
      descents := buffer.descents
        - if rest.head?.any fun next => descends oldest next then 1 else 0 }

def insertCounted (buffer : LogRecordBuffer R) (record : R) : ForcedAdmission × LogRecordBuffer R :=
  let buffer := { buffer with totalRecordCount := nextSequence buffer.totalRecordCount }
  if buffer.capacity = 0 then (.countOnly, buffer)
  else
    let buffer := if buffer.isFull then buffer.popFront else buffer
    (.inserted, buffer.pushBack record)

def admitOrdinary (buffer : LogRecordBuffer R) (record : R) (enabled stopWhenFull : Bool) :
    OrdinaryAdmission × LogRecordBuffer R :=
  if !enabled then (.ignoredDisabled, buffer)
  else if stopWhenFull && buffer.nextRecordWouldFill then (.stopBeforeFull, buffer)
  else
    match buffer.insertCounted record with
    | (.inserted, buffer) => (.inserted, buffer)
    | (.countOnly, buffer) => (.countOnly, buffer)

def insertForced (buffer : LogRecordBuffer R) (record : R) : ForcedAdmission × LogRecordBuffer R :=
  buffer.insertCounted record

def clear (buffer : LogRecordBuffer R) : LogRecordBuffer R :=
  { buffer with records := [], unkeyed := 0, descents := 0 }

/-- The refusals of `restore`; a label keeps its placeholders, and the numbers stand beside it. -/
inductive RestoreError where
  | outOfRange (label : String) (values : List ℕ)
  | encode (error : Error)
  deriving DecidableEq

def firstUnencodable : List R → Option Error
  | [] => none
  | record :: records =>
    match ResidentLogRecord.encode record with
    | .error error => some error
    | .ok _ => firstUnencodable records

def restore (buffer : LogRecordBuffer R) (totalRecordCount : UInt32) (records : List R)
    (stopsWhenFull : Bool) : Except RestoreError Unit × LogRecordBuffer R :=
  let held := records.length
  if held > buffer.capacity then
    (.error (.outOfRange "\x7b\x7d log records exceed Buffer_Size \x7b\x7d"
      [held, buffer.capacity]), buffer)
  else if totalRecordCount = 0 ∧ held > 0 then
    (.error (.outOfRange "\x7b\x7d log records restored with a Total_Record_Count of 0" [held]),
      buffer)
  else if stopsWhenFull ∧ held > 0 ∧ held ≥ buffer.capacity then
    (.error (.outOfRange
      "a log with Stop_When_Full and Enable TRUE can't hold a full buffer" []), buffer)
  else
    match firstUnencodable records with
    | some error => (.error (.encode error), buffer)
    | none =>
      (.ok (), { records.foldl pushBack buffer.clear with
        totalRecordCount := totalRecordCount.toNat })

def recordCount (buffer : LogRecordBuffer R) : ℕ := buffer.records.length

/-- The identity of `record` at `index`, 0 the oldest. -/
def identityAt (buffer : LogRecordBuffer R) (index : ℕ) (record : R) : LogRecordIdentity :=
  ⟨sequenceBefore buffer.totalRecordCount (buffer.records.length - 1 - index),
    (timestamp record).1, (timestamp record).2⟩

/-- `record_identity`; there is none past the last record. -/
def recordIdentity (buffer : LogRecordBuffer R) (index : ℕ) : Option LogRecordIdentity :=
  buffer.records[index]?.map (buffer.identityAt index)

def identities (buffer : LogRecordBuffer R) : List LogRecordIdentity :=
  buffer.records.mapIdx buffer.identityAt

def recordPosition (buffer : LogRecordBuffer R) (number : ℕ) : Option ℕ :=
  if number > sequenceCycle ∨ number = 0 then none
  else
    let newer := sequenceDistance number buffer.totalRecordCount
    if newer < buffer.records.length then some (buffer.records.length - 1 - newer) else none

def timestampOrder (buffer : LogRecordBuffer R) : TimestampOrder :=
  if buffer.unkeyed > 0 then .unkeyed
  else if buffer.descents > 0 then .unordered
  else .ascending

end LogRecordBuffer

/-- The trait's own `timestamp_order`: a walk over every record's timestamp. -/
def walkOrder : List (Option TimestampKey) → Option TimestampKey → TimestampOrder → TimestampOrder
  | [], _, order => order
  | none :: _, _, _ => .unkeyed
  | some key :: keys, previous, order =>
    walkOrder keys (some key) (if previous.any fun previous => key < previous then .unordered
      else order)

end RustyBacnet.Log
