import RustyBacnet.Router.Config

/-!
# What a router remembers beside its table

`discovery.rs`, the searches for networks with no route; `duplicates.rs`, the ring of recent
broadcasts and relays; and the per-port congestion state of `congestion.rs`.
-/

namespace RustyBacnet.Router

open Swaps

/-! ## Searches -/

/-- A network looked for, and when it last was. -/
structure Search where
  network : UInt16
  solicited : Instant
  deriving DecidableEq

def Search.key (search : Search) : ℕ := search.network.toNat

/-- At most `D` searches, sorted by network. -/
structure Discovery (D : ℕ) where
  entries : List Search
  cancelled : Bool
  deriving DecidableEq

namespace Discovery

variable {D : ℕ}

def new : Discovery D := ⟨[], false⟩

def find (discovery : Discovery D) (network : UInt16) : Except ℕ ℕ :=
  SortedArray.search Search.key discovery.entries network.toNat

/-- Whether to look for a network now; the search is recorded when it is. -/
def shouldSolicit (discovery : Discovery D) (network : UInt16) (now : Instant)
    (cooldown : Duration) : Discovery D × Bool :=
  if discovery.cancelled || isReserved network then (discovery, false)
  else
    let search : Search := ⟨network, now⟩
    match discovery.find network with
    | .ok index =>
      let last := (discovery.entries[index]?).elim 0 Search.solicited
      if now - last < cooldown then (discovery, false)
      else ({ discovery with entries := discovery.entries.set index search }, true)
    | .error index =>
      if discovery.entries.length = D then (discovery, false)
      else ({ discovery with entries := sink (discovery.entries ++ [search]) index }, true)

/-- Forget the searches older than `maxAge`; their networks, in order. -/
def expire (discovery : Discovery D) (now : Instant) (maxAge : Duration) :
    Discovery D × List UInt16 :=
  let old := fun search : Search => decide (maxAge < now - search.solicited)
  ({ discovery with entries := compact (fun search => !old search) discovery.entries },
    (discovery.entries.filter old).map Search.network)

def cancel (_ : Discovery D) : Discovery D := ⟨[], true⟩

end Discovery

/-! ## Recent broadcasts and relays -/

/-- The tag of an APDU in the ring, which no relayed message type is. -/
def apduTag : UInt8 := 0xFF

/-- A broadcast or relay seen, by its origin and a hash of its data. -/
structure Seen where
  at_ : Instant
  payload : UInt32
  source : UInt32
  network : UInt16
  tag : UInt8
  resets : ℕ
  deriving DecidableEq

def Seen.empty : Seen := ⟨0, 0, 0, 0, apduTag, 0⟩

def fnv1a (octets : List UInt8) : UInt32 :=
  octets.foldl (fun hash octet => (hash ^^^ octet.toUInt32) * 0x01000193) 0x811c9dc5

/-- The last `B` broadcasts and relays, in a ring. -/
structure Recent (B : ℕ) where
  seen : List Seen
  next : ℕ
  deriving DecidableEq

namespace Recent

variable {B : ℕ}

def new : Recent B := ⟨List.replicate B Seen.empty, 0⟩

def record (recent : Recent B) (entry : Seen) : Recent B :=
  if recent.next < recent.seen.length then
    { seen := recent.seen.set recent.next entry
      next := if recent.next + 1 = B then 0 else recent.next + 1 }
  else recent

/-- Whether the same message of this type was seen within `ttl`; recorded when it was not. -/
def repeatTagged (recent : Recent B) (network : UInt16) (source : List UInt8) (tag : UInt8)
    (payload : List UInt8) (now : Instant) (ttl : Duration) : Recent B × Bool :=
  let entry : Seen := ⟨now, fnv1a payload, fnv1a source, network, tag, 0⟩
  let same := fun seen : Seen =>
    seen.network == network && seen.tag == tag && seen.source == entry.source &&
      seen.payload == entry.payload && decide (now < satAdd seen.at_ ttl)
  if recent.seen.any same then (recent, true) else (recent.record entry, false)

/-- `repeat`: for a global broadcast's APDU. -/
def repeatApdu (recent : Recent B) (network : UInt16) (source payload : List UInt8)
    (now : Instant) (ttl : Duration) : Recent B × Bool :=
  recent.repeatTagged network source apduTag payload now ttl

/-- For a Router-Busy or Router-Available, which forgets its `opposite` from the same sender a
limited number of times. -/
def repeatFlow (recent : Recent B) (network : UInt16) (source : List UInt8) (tag opposite : UInt8)
    (payload : List UInt8) (now : Instant) (ttl : Duration) : Recent B × Bool :=
  let source := fnv1a source
  let payload := fnv1a payload
  let live := fun seen : Seen =>
    seen.network == network && seen.source == source && decide (now < satAdd seen.at_ ttl)
  if recent.seen.any fun seen => live seen && seen.tag == tag && seen.payload == payload then
    (recent, true)
  else
    let undone := fun seen : Seen => live seen && seen.tag == opposite
    let before := ((recent.seen.filter undone).map Seen.resets).max?
    match before with
    | some count =>
      if count < Duplicates.resetLimit then
        let recent : Recent B :=
          { recent with seen := recent.seen.map fun seen => if undone seen then .empty else seen }
        (recent.record ⟨now, payload, source, network, tag, count + 1⟩, false)
      else (recent.record ⟨now, payload, source, network, tag, count⟩, false)
    | none => (recent.record ⟨now, payload, source, network, tag, 0⟩, false)

end Recent

/-! ## Congestion -/

def u32Max : ℕ := 4294967295

/-- What a port's egress queue holds and can hold. -/
structure Backlog where
  queued : UInt32
  capacity : UInt32
  deriving DecidableEq

namespace Backlog

def full (backlog : Backlog) : Bool := backlog.capacity ≤ backlog.queued

/-- Under a percentage of the capacity; both products saturate. -/
def under (backlog : Backlog) (percent : ℕ) : Bool :=
  min (backlog.queued.toNat * 100) u32Max < min (backlog.capacity.toNat * percent) u32Max

end Backlog

inductive FlowState where
  | clear
  | filling
  | clogged
  deriving DecidableEq

/-- The announcement a port's congestion waits to make. -/
inductive Announcement where
  | none
  | busy
  | available
  deriving DecidableEq

/-- One port's congestion. -/
structure Flow where
  state : FlowState
  since : Instant
  pending : Announcement
  cursor : ℕ
  deriving DecidableEq

namespace Flow

def clear : Flow := ⟨.clear, 0, .none, 0⟩

def congested (flow : Flow) : Bool := flow.state != .clear

def clogged (flow : Flow) : Bool := flow.state == .clogged

def waits (flow : Flow) : Bool := flow.pending != .none

/-- `take_pending`, whose result is `waits`. -/
def takePending (flow : Flow) : Flow := { flow with pending := .none }

def announce (flow : Flow) (pending : Announcement) : Flow × Announcement :=
  ({ flow with pending := pending, cursor := 0 }, pending)

/-- Take a backlog report; the announcement it starts. -/
def report (flow : Flow) (backlog : Backlog) (now : Instant) (policy : Congestion) :
    Flow × Announcement :=
  if backlog.under policy.drainBelowPercent then
    let drained := { flow with state := .clear }
    if flow.state = .clogged then drained.announce .available else (drained, .none)
  else if !backlog.full then (flow, .none)
  else
    match flow.state with
    | .clear => ({ flow with state := .filling, since := now }, .none)
    | .filling =>
      if satAdd flow.since policy.clogAfter ≤ now then
        { flow with state := .clogged, since := now }.announce .busy
      else (flow, .none)
    | .clogged =>
      if satAdd flow.since policy.repeatAfter ≤ now then
        { flow with since := now }.announce .busy
      else (flow, .none)

end Flow

end RustyBacnet.Router
