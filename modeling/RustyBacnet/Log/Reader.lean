import RustyBacnet.Log.ReadRange

/-!
# Paged reads of a log

The client's side: `read_log_page` reads one page from a cursor and says where to read on. One request
is outstanding at a time, so the other side is a sequence of buffers: `Site.buffer n` is what the
request number `n` meets. A site only logs records between two requests; its answers carry the
records themselves, and the budget of each answer is its own.
-/

namespace RustyBacnet.Log

open Encoding

variable {R : Type} [ResidentLogRecord R]

/-- A log while it is read: its buffer, the records logged right before each request, and the budget
each ReadRange is answered under. -/
structure Site (R : Type) where
  start : LogRecordBuffer R
  logged : ℕ → List R
  budget : ℕ → ReadRangeBudget
  frame : ReadRangeAck R → ℕ

def LogRecordBuffer.logAll (buffer : LogRecordBuffer R) (records : List R) : LogRecordBuffer R :=
  records.foldl (fun buffer record => (buffer.insertForced record).2) buffer

namespace Site

/-- The buffer the request number `n` meets. -/
def buffer (site : Site R) : ℕ → LogRecordBuffer R
  | 0 => site.start.logAll (site.logged 0)
  | n + 1 => (site.buffer n).logAll (site.logged (n + 1))

end Site

/-! ## Rules of an answer -/

/-- The rules of `ReadRangeAck::violations` that an answer with the right echo can break. -/
inductive ReadRangeViolation where
  | missingFirstSequenceNumber
  | zeroFirstSequenceNumber
  | unexpectedFirstSequenceNumber
  | moreItemsPastEnd
  | itemCountExceedsRequest
  deriving DecidableEq

/-- `ReadRangeAck::violations`; the site echoes what it was asked. -/
def ReadRangeAck.violations (ack : ReadRangeAck R) (range : Option RangeSpec) :
    List ReadRangeViolation :=
  let sequenced := match range with
    | some (.bySequenceNumber _ _) => true
    | some (.byTime _ _ _) => true
    | _ => false
  let count := range.map RangeSpec.count
  let numbering := match ack.firstSequenceNumber with
    | none =>
      if sequenced && ack.itemCount != 0 then [.missingFirstSequenceNumber] else []
    | some first =>
      if sequenced && ack.itemCount != 0 then
        if first = 0 then [.zeroFirstSequenceNumber] else []
      else [.unexpectedFirstSequenceNumber]
  let pastEnd := match count with
    | some count => if count < 0 then ack.resultFlags.firstItem else ack.resultFlags.lastItem
    | none => ack.resultFlags.firstItem && ack.resultFlags.lastItem
  numbering
    ++ (if ack.resultFlags.moreItems && pastEnd then [.moreItemsPastEnd] else [])
    ++ (if count.any fun count => ack.itemCount > count.natAbs then [.itemCountExceedsRequest]
      else [])

structure ReadRangeReply (R : Type) where
  ack : ReadRangeAck R
  violations : List ReadRangeViolation

/-- The failures of a paged read; a label keeps its placeholders, and the numbers stand beside it. -/
inductive ReadError where
  | outOfRange (label : String) (values : List ℕ)
  | encoding (label : String) (values : List ℕ)
  | remote (failure : ReadRangeFailure)
  | readRangeViolation (rule : ReadRangeViolation)
  | logNotAdvancing (requested : ℕ) (returned : Option ℕ)
  deriving DecidableEq

namespace Site

def readTotalRecordCount (site : Site R) (n : ℕ) : ℕ := (site.buffer n).totalRecordCount

def readRecordCount (site : Site R) (n : ℕ) : ℕ := (site.buffer n).recordCount

def readRangeLenient (site : Site R) (range : RangeSpec) (n : ℕ) :
    Except ReadError (ReadRangeReply R) :=
  match serveReadRange site.frame (site.buffer n) (some range) (site.budget n) with
  | .error failure => .error (.remote failure)
  | .ok ack => .ok ⟨ack, ack.violations (some range)⟩

end Site

/-! ## Numbers -/

/-- The numbers a log of one type assigns: 1 up to `max`, then 1 again. -/
structure SequenceSpace where
  max : ℕ

/-- The records a log holds, from its two counts. -/
inductive LogWindow where
  | empty (next : ℕ)
  | records (oldest newest : ℕ)
  deriving DecidableEq

namespace ObjectType

def trendLog : ℕ := 20

def eventLog : ℕ := 25

def trendLogMultiple : ℕ := 27

def auditLog : ℕ := 61

end ObjectType

namespace SequenceSpace

def of (objectType : ℕ) : Except ReadError SequenceSpace :=
  if objectType = ObjectType.auditLog then .ok ⟨18446744073709551615⟩
  else if objectType = ObjectType.trendLog ∨ objectType = ObjectType.eventLog ∨
      objectType = ObjectType.trendLogMultiple then .ok ⟨4294967295⟩
  else .error (.encoding ("a paged log read needs a Trend Log, Event Log, Trend Log Multiple or "
    ++ "Audit Log, not \x7bother\x7d") [objectType])

def advance (space : SequenceSpace) (sequence n : ℕ) : ℕ :=
  if sequence = 0 then n else (sequence - 1 + n) % space.max + 1

def retreat (space : SequenceSpace) (sequence back : ℕ) : ℕ :=
  if sequence = 0 then (space.max + 1 - back % (space.max + 1)) % (space.max + 1)
  else (sequence - 1 + space.max - back % space.max) % space.max + 1

/-- How far `target` lies past `start`: positive ahead, negative behind, across the wrap. -/
def distance (space : SequenceSpace) (start target : ℕ) : ℤ :=
  let size : ℤ := space.max
  let ahead := ((Nat.max target 1 : ℕ) - (Nat.max start 1 : ℕ) : ℤ) % size
  if ahead > size / 2 then ahead - size else ahead

def window (space : SequenceSpace) (recordCount total : ℕ) : Except ReadError LogWindow :=
  if recordCount > space.max ∨ total > space.max then
    .error (.outOfRange
      "log counts \x7brecord_count\x7d and \x7btotal\x7d exceed the log's sequence range"
      [recordCount, total])
  else if recordCount = 0 then .ok (.empty (space.advance total 1))
  else .ok (.records (space.retreat total (recordCount - 1)) total)

end SequenceSpace

/-! ## Pages -/

/-- Where a paged read starts or goes on. -/
inductive LogCursor where
  | oldest
  | sequence (number : ℕ)
  | position (index : ℕ)
  | time (date : Date) (time : Time)
  deriving DecidableEq

/-- The records between the one asked for and a page's first are no longer there. -/
structure LogGap where
  expected : ℕ
  first : ℕ
  skipped : Option ℕ
  deriving DecidableEq

structure LogPage (R : Type) where
  records : List R
  firstSequenceNumber : Option ℕ
  resultFlags : ResultFlags
  gap : Option LogGap
  violations : List ReadRangeViolation
  next : LogCursor
  done : Bool
  wrapped : Bool
  deriving DecidableEq

def pageCount (pageSize : ℕ) : Except ReadError ℤ :=
  if 1 ≤ pageSize ∧ pageSize ≤ 32767 then .ok pageSize
  else .error (.encoding "log page size must be 1..=32767, got \x7bpage_size\x7d" [pageSize])

/-- The range asked for at a cursor; `oldest` becomes a number before. -/
def request (cursor : LogCursor) (count : ℤ) : RangeSpec :=
  match cursor with
  | .oldest => .bySequenceNumber 0 count
  | .sequence number => .bySequenceNumber number count
  | .position index => .byPosition index count
  | .time date time => .byTime date time count

def emptyPage (next : LogCursor) : LogPage R where
  records := []
  firstSequenceNumber := none
  resultFlags := ⟨false, false, false⟩
  gap := none
  violations := []
  next := next
  done := true
  wrapped := false

/-- The first rule broken that a read from `cursor` cannot tolerate. -/
def fatal (violations : List ReadRangeViolation) (cursor : LogCursor) : Option ReadRangeViolation :=
  let sequenced := match cursor with
    | .position _ => false
    | _ => true
  violations.find? fun violation =>
    match violation with
    | .missingFirstSequenceNumber => sequenced
    | _ => false

/-- The page an answer makes; `restarted` is the number asked for before the read started over. -/
def page (space : SequenceSpace) (cursor : LogCursor) (reply : ReadRangeReply R)
    (restarted : Option ℕ) : Except ReadError (LogPage R) :=
  match fatal reply.violations cursor with
  | some rule => .error (.readRangeViolation rule)
  | none =>
    let returned := reply.ack.itemCount
    let made (first : Option ℕ) (gap : Option LogGap) (next : LogCursor) (wrapped : Bool) :
        LogPage R :=
      { records := reply.ack.records
        firstSequenceNumber := first
        resultFlags := reply.ack.resultFlags
        gap := gap
        violations := reply.violations
        next := next
        done := returned == 0 || reply.ack.resultFlags.lastItem
        wrapped := wrapped }
    match cursor, reply.ack.firstSequenceNumber with
    | .position index, _ =>
      .ok (made none none (.position (min (index + returned) 18446744073709551615)) false)
    | cursor, none => .ok (made none none cursor false)
    | cursor, some first =>
      let wrapped := first != 0 && decide (first + returned > space.max)
      let next := LogCursor.sequence (space.advance first returned)
      match cursor with
      | .sequence asked =>
        if space.distance asked first < 0 then .error (.logNotAdvancing asked (some first))
        else
          let expected := restarted.getD asked
          let skipped := space.distance expected first
          let gap := if skipped = 0 then none
            else some ⟨expected, first, if 0 ≤ skipped then some skipped.toNat else none⟩
          .ok (made (some first) gap next wrapped)
      | _ => .ok (made (some first) none next wrapped)

/-! ## The read -/

def RETRIES : ℕ := 3

namespace Site

/-- The loop of `window` with `retries` more turns allowed, from the total read before. -/
def windowFrom (site : Site R) (space : SequenceSpace) :
    ℕ → ℕ → ℕ → Except ReadError (LogWindow × ℕ)
  | retries, before, n =>
    let recordCount := site.readRecordCount n
    let after := site.readTotalRecordCount (n + 1)
    match retries with
    | 0 => (space.window recordCount before).map fun window => (window, n + 2)
    | retries + 1 =>
      if after = before then (space.window recordCount before).map fun window => (window, n + 2)
      else windowFrom site space retries after (n + 2)

/-- The records the log holds now, and the requests made by then. -/
def window (site : Site R) (space : SequenceSpace) (n : ℕ) : Except ReadError (LogWindow × ℕ) :=
  site.windowFrom space RETRIES (site.readTotalRecordCount n) (n + 1)

/-- The loop of `read_log_page` with `left` restarts allowed. -/
def pageFrom (site : Site R) (space : SequenceSpace) (count : ℤ) (expected : ℕ) :
    ℕ → ℕ → Bool → ReadRangeReply R → ℕ → Except ReadError (LogPage R × ℕ)
  | left, asked, askedWhileHeld, reply, n =>
    if reply.ack.itemCount ≠ 0 then
      (page space (.sequence asked) reply (if asked ≠ expected then some expected else none)).map
        fun page => (page, n)
    else
      match fatal reply.violations (.sequence asked) with
      | some rule => .error (.readRangeViolation rule)
      | none =>
        match left with
        | 0 => .error (.logNotAdvancing asked none)
        | left + 1 =>
          match site.window space n with
          | .error failed => .error failed
          | .ok (.empty _, n) => (page space (.sequence asked) reply none).map fun page => (page, n)
          | .ok (.records oldest newest, n) =>
            if space.distance asked (space.advance newest 1) ≠ 0 then
              let held := decide (space.distance oldest asked ≥ 0)
                && decide (space.distance asked newest ≥ 0)
              if held && askedWhileHeld then .error (.logNotAdvancing asked none)
              else
                let asked := if held then asked else oldest
                match site.readRangeLenient (request (.sequence asked) count) n with
                | .error failed => .error failed
                | .ok reply => pageFrom site space count expected left asked true reply (n + 1)
            else (page space (.sequence asked) reply none).map fun page => (page, n)

/-- The page read at a cursor that is not `oldest`. -/
def readFrom (site : Site R) (space : SequenceSpace) (count : ℤ) (cursor : LogCursor) (n : ℕ) :
    Except ReadError (LogPage R × ℕ) :=
  match site.readRangeLenient (request cursor count) n with
  | .error failed => .error failed
  | .ok reply =>
    match cursor with
    | .sequence expected =>
      site.pageFrom space count expected RETRIES expected false reply (n + 1)
    | cursor => (page space cursor reply none).map fun page => (page, n + 1)

/-- One page, after `n` requests; also the requests made by then. -/
def readLogPage (site : Site R) (objectType : ℕ) (cursor : LogCursor) (pageSize n : ℕ) :
    Except ReadError (LogPage R × ℕ) :=
  match SequenceSpace.of objectType with
  | .error failed => .error failed
  | .ok space =>
    match pageCount pageSize with
    | .error failed => .error failed
    | .ok count =>
      match cursor with
      | .oldest =>
        match site.window space n with
        | .error failed => .error failed
        | .ok (.empty next, n) => .ok (emptyPage (.sequence next), n)
        | .ok (.records oldest _, n) => site.readFrom space count (.sequence oldest) n
      | cursor => site.readFrom space count cursor n

/-- A page and the requests made when it was there. -/
structure Visit (R : Type) where
  page : LogPage R
  requests : ℕ

/-- A caller reads from a cursor on, each page at the last one's `next`, until a page is done. -/
inductive Reads (site : Site R) (objectType pageSize : ℕ) : LogCursor → ℕ → List (Visit R) → Prop
  | last {cursor : LogCursor} {n m : ℕ} {page : LogPage R}
      (hpage : site.readLogPage objectType cursor pageSize n = .ok (page, m))
      (hdone : page.done = true) : Reads site objectType pageSize cursor n [⟨page, m⟩]
  | more {cursor : LogCursor} {n m : ℕ} {page : LogPage R} {visits : List (Visit R)}
      (hpage : site.readLogPage objectType cursor pageSize n = .ok (page, m))
      (hdone : page.done = false) (hrest : Reads site objectType pageSize page.next m visits) :
      Reads site objectType pageSize cursor n (⟨page, m⟩ :: visits)

end Site

end RustyBacnet.Log
