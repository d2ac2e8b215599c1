import Mathlib.Data.List.MinMax
import RustyBacnet.Cov.Subscription

/-!
# The outbox

`report/outbox.rs`: notifications decided but not yet handed out. Their service parameters share one
buffer, compacted in place when its end is too short; an entry that is replaced in place, killed or
taken leaves a hole in it. `none` is a counter that went below zero or an access outside the buffer.
-/

namespace RustyBacnet.Report

open Cov Slices

structure OutboxLimits where
  entries : ℕ
  octets : ℕ
  deriving DecidableEq

/-- What a notification is about and who gets it. -/
structure Notice where
  token : Token
  key : CovSubscriptionKey
  recipient : SubscriberEndpoint
  confirmed : Bool
  begun : Instant
  deriving DecidableEq

/-- A queued notification, and where its parameters sit. -/
structure Entry extends Notice where
  start : ℕ
  len : ℕ
  live : Bool
  deriving DecidableEq

def checkedSub (a b : ℕ) : Option ℕ := if b ≤ a then some (a - b) else none

/-- Room for more entries. -/
structure Room where
  entries : ℕ
  octets : ℕ
  deriving DecidableEq

/-- Reserve one entry of the octets, or only what they add to a queued entry's. -/
def Room.take (room : Room) (octets : ℕ) : Option ℕ → Bool × Room
  | some old =>
    let more := octets - old
    if more > room.octets then (false, room)
    else (true, { room with octets := room.octets - more + (old - octets) })
  | none =>
    if room.entries = 0 ∨ octets > room.octets then (false, room)
    else (true, ⟨room.entries - 1, room.octets - octets⟩)

/-- What `push` did. -/
structure Pushed where
  queued : Bool
  replaced : Option Token
  deriving DecidableEq

/-- `live` and `liveOctets` count the entries still to send, and the octets of their parameters. -/
structure Outbox where
  limits : OutboxLimits
  buf : List UInt8
  entries : List Entry
  live : ℕ
  liveOctets : ℕ
  deriving DecidableEq

/-- An unconfirmed push for the key replaces the entry. -/
def Entry.answers (entry : Entry) (key : CovSubscriptionKey) : Bool :=
  entry.live && !entry.confirmed && entry.key == key

def Entry.read (entry : Entry) (buf : List UInt8) : Option (List UInt8) :=
  if entry.start + entry.len ≤ buf.length then some (slice buf entry.start entry.len) else none

namespace Outbox

def new (limits : OutboxLimits) : Outbox := ⟨limits, [], [], 0, 0⟩

def room (outbox : Outbox) : Option Room := do
  let entries ← checkedSub outbox.limits.entries outbox.live
  let octets ← checkedSub outbox.limits.octets outbox.liveOctets
  some ⟨entries, octets⟩

/-- The first of the entries lowest in the buffer, of those not moved yet. -/
def lowest (entries : List Entry) (next : ℕ) : Option (Entry × ℕ) :=
  (entries.zipIdx.filter fun at_ => at_.1.live && 0 < at_.1.len && next ≤ at_.1.start).argmin
    (·.1.start)

/-- `copy_within`. -/
def copyWithin (buf : List UInt8) (start len dest : ℕ) : Option (List UInt8) :=
  if start + len ≤ buf.length ∧ dest + len ≤ buf.length then
    some (splice buf dest (slice buf start len))
  else none

/-- The loop of `compact`, with fuel for a turn each entry and the last. -/
def compactLoop : ℕ → List Entry → List UInt8 → ℕ → Option (List Entry × List UInt8 × ℕ)
  | 0, _, _, _ => none
  | fuel + 1, entries, buf, next =>
    match lowest entries next with
    | none => some (entries, buf, next)
    | some (entry, at_) => do
      let buf ← copyWithin buf entry.start entry.len next
      compactLoop fuel (entries.set at_ { entry with start := next }) buf (next + entry.len)

/-- Move the live entries' parameters to the start of the buffer. -/
def compact (outbox : Outbox) : Option Outbox := do
  let entries := outbox.entries.map fun entry =>
    if entry.len = 0 then { entry with start := 0 } else entry
  let (entries, buf, next) ← compactLoop (entries.length + 1) entries outbox.buf 0
  some { outbox with entries := entries, buf := buf.take next }

/-- Compact when the free space at the buffer's end is too short. -/
def makeRoom (outbox : Outbox) (octets : ℕ) : Option Outbox :=
  if outbox.buf.length + octets > outbox.limits.octets then outbox.compact else some outbox

def drop (outbox : Outbox) (at_ : ℕ) : Option (Token × Outbox) := do
  let old ← outbox.entries[at_]?
  let live ← checkedSub outbox.live 1
  let liveOctets ← checkedSub outbox.liveOctets old.len
  some (old.token, { outbox with
    entries := outbox.entries.set at_ { old with live := false }
    live := live
    liveOctets := liveOctets })

/-- Queue a notification, if it fits; an unconfirmed one replaces, in its place, the one queued for
its subscription. -/
def push (outbox : Outbox) (notice : Notice) (params : List UInt8) : Option (Pushed × Outbox) := do
  let at_ := if notice.confirmed then none
    else outbox.entries.findIdx? (·.answers notice.key)
  let (replaced, outbox) ← match at_ with
    | none => some (none, outbox)
    | some at_ => (outbox.drop at_).map fun dropped => (some dropped.1, dropped.2)
  if ¬(outbox.live < outbox.limits.entries ∧
      outbox.liveOctets + params.length ≤ outbox.limits.octets) then
    some (⟨false, replaced⟩, outbox)
  else do
    let outbox := if at_.isNone && outbox.entries.length == outbox.limits.entries then
        { outbox with entries := outbox.entries.filter (·.live) }
      else outbox
    let outbox ← outbox.makeRoom params.length
    let entry : Entry := ⟨notice, outbox.buf.length, params.length, true⟩
    some (⟨true, replaced⟩, { outbox with
      buf := outbox.buf ++ params
      entries := match at_ with
        | some at_ => outbox.entries.set at_ entry
        | none => outbox.entries ++ [entry]
      live := outbox.live + 1
      liveOctets := outbox.liveOctets + params.length })

/-! ## Taking and killing -/

/-- The loop of `pop`: the first live entry with its parameters, and the rest. -/
def popLoop (outbox : Outbox) :
    List Entry → Option (Option (Notice × List UInt8) × Outbox)
  | [] => some (none, { outbox with entries := [] })
  | entry :: entries =>
    if entry.live then do
      let live ← checkedSub outbox.live 1
      let liveOctets ← checkedSub outbox.liveOctets entry.len
      let params ← entry.read outbox.buf
      some (some (entry.toNotice, params),
        { outbox with entries := entries, live := live, liveOctets := liveOctets })
    else popLoop outbox entries

def pop (outbox : Outbox) : Option (Option (Notice × List UInt8) × Outbox) := do
  let (taken, outbox) ← outbox.popLoop outbox.entries
  match taken with
  | none => some (none, outbox)
  | some taken =>
    if outbox.live = 0 then some (some taken, { outbox with entries := [], buf := [] })
    else some (some taken, outbox)

/-- The loop of `kill`. -/
def killLoop (dead : Notice → Bool) :
    List Entry → ℕ → ℕ → Option (List Entry × ℕ × ℕ)
  | [], live, liveOctets => some ([], live, liveOctets)
  | entry :: entries, live, liveOctets =>
    if entry.live && dead entry.toNotice then do
      let live ← checkedSub live 1
      let liveOctets ← checkedSub liveOctets entry.len
      let (rest, live, liveOctets) ← killLoop dead entries live liveOctets
      some ({ entry with live := false } :: rest, live, liveOctets)
    else do
      let (rest, live, liveOctets) ← killLoop dead entries live liveOctets
      some (entry :: rest, live, liveOctets)

/-- Mark dead every queued entry that `dead` names. -/
def kill (outbox : Outbox) (dead : Notice → Bool) : Option Outbox := do
  let (entries, live, liveOctets) ← killLoop dead outbox.entries outbox.live outbox.liveOctets
  some { outbox with entries := entries, live := live, liveOctets := liveOctets }

end Outbox

end RustyBacnet.Report
