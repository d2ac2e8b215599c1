import RustyBacnet.Mstp.Basic
import RustyBacnet.Mstp.Counters
import RustyBacnet.Npdu.Priority

/-!
# The transmit queues

`queue.rs`, `queue/slots.rs`, `queue/fixed.rs` and `queue/alloc.rs`: NPDUs wait in slots, one lane
of slots for each destination class. An item stays in the slot it was written to until it leaves,
and the order items leave in comes from their priority, wait and sequence number, never from the
slot. The two backends differ in where their slots come from and in which refusals use up a
sequence number.
-/

namespace RustyBacnet.Mstp

inductive QueueKind where
  | unicast
  | broadcast
  deriving DecidableEq

def QueueKind.fromDestination (destination : UInt8) : QueueKind :=
  if destination = broadcastMac then .broadcast else .unicast

/-- Why a queue refused an NPDU, or dropped one. -/
inductive QueueRefusal where
  | full
  | oversize
  | expired
  deriving DecidableEq

structure DequeuedNpdu where
  destination : UInt8
  kind : QueueKind
  priority : NetworkPriority
  sequence : ℕ
  npdu : List UInt8
  deriving DecidableEq

structure QueueItemInfo where
  destination : UInt8
  kind : QueueKind
  priority : NetworkPriority
  len : ℕ
  enqueuedAt : Instant
  expiresAt : Option Instant
  sequence : ℕ
  serviceWait : UInt8
  deriving DecidableEq

/-- A bounded storage backend for queued NPDUs. -/
class QueueStorage (Q : Type) where
  setStarvationLimit : Q → UInt8 → Q
  /-- The longest NPDU one slot holds. -/
  maxNpdu : Q → ℕ
  enqueueNpdu : Q → UInt8 → List UInt8 → NetworkPriority → Instant → Option Instant →
    Except QueueRefusal Unit × Q
  /-- Remove expired items, with how many there were. -/
  expire : Q → Instant → ℕ × Q
  peek : Q → Instant → Option QueueItemInfo
  peekKind : Q → QueueKind → Instant → Option QueueItemInfo
  /-- Remove the next item of a class; one longer than the caller takes is dropped instead. -/
  dequeueKind : Q → QueueKind → Instant → ℕ → Except QueueRefusal (Option DequeuedNpdu) × Q
  depth : Q → QueueKind → ℕ
  counters : Q → QueueKind → QueueCounters
  takeCounters : Q → QueueKind → QueueCounters × Q

namespace QueueStorage

variable {Q : Type} [QueueStorage Q]

def dequeue (q : Q) (now : Instant) (maxLen : ℕ) : Except QueueRefusal (Option DequeuedNpdu) × Q :=
  match peek q now with
  | none => (.ok none, q)
  | some info => dequeueKind q info.kind now maxLen

def totalDepth (q : Q) : ℕ := depth q .unicast + depth q .broadcast

end QueueStorage

/-! ## Slots -/

/-- An item, or room for one. A freed slot keeps the octets of the item that left it. -/
structure Slot where
  occupied : Bool
  destination : UInt8
  priority : NetworkPriority
  serviceWait : UInt8
  len : ℕ
  enqueuedAt : Instant
  expiresAt : Option Instant
  sequence : ℕ
  octets : List UInt8
  deriving DecidableEq

namespace Slot

/-- A free slot of `n` octets. -/
def empty (n : ℕ) : Slot := ⟨false, 0, .normal, 0, 0, 0, none, 0, List.replicate n 0⟩

def isFree (s : Slot) : Bool := !s.occupied

/-- Write an item into this slot. Its length is kept in a `u16`. -/
def fill (s : Slot) (destination : UInt8) (payload : List UInt8) (priority : NetworkPriority)
    (now : Instant) (expiresAt : Option Instant) (sequence : ℕ) : Slot where
  occupied := true
  destination := destination
  priority := priority
  serviceWait := 0
  len := payload.length % 65536
  enqueuedAt := now
  expiresAt := expiresAt
  sequence := sequence
  octets := payload ++ s.octets.drop payload.length

def info (s : Slot) (kind : QueueKind) : QueueItemInfo :=
  ⟨s.destination, kind, s.priority, s.len, s.enqueuedAt, s.expiresAt, s.sequence, s.serviceWait⟩

def payload (s : Slot) : List UInt8 := s.octets.take s.len

end Slot

def expired (expiresAt : Option Instant) (now : Instant) : Bool :=
  match expiresAt with
  | none => false
  | some deadline => deadline ≤ now

/-- The half-range comparison of two `u64` sequence numbers. -/
def isOlder (left right : ℕ) : Bool :=
  left ≠ right ∧ 9223372036854775807 < (left + 18446744073709551616 - right) % 18446744073709551616

/-- Whether policy serves `candidate` before `current`. -/
def better (candidate : QueueItemInfo) (current : Option QueueItemInfo)
    (starvationLimit : UInt8) : Bool :=
  match current with
  | none => true
  | some current =>
    match decide (starvationLimit ≤ candidate.serviceWait),
        decide (starvationLimit ≤ current.serviceWait) with
    | true, false => true
    | false, true => false
    | true, true => isOlder candidate.sequence current.sequence
    | false, false =>
      match compare candidate.priority.rank current.priority.rank with
      | .gt => true
      | .lt => false
      | .eq => isOlder candidate.sequence current.sequence

/-- The item a selection picked: its class, its slot and its metadata. -/
structure Selected where
  kind : QueueKind
  index : ℕ
  info : QueueItemInfo
  deriving DecidableEq

/-- One destination class's queue. -/
structure Lane where
  slots : List Slot
  depth : ℕ
  counters : QueueCounters
  deriving DecidableEq

namespace Lane

def new (slots : List Slot) : Lane := ⟨slots, 0, {}⟩

/-- `select`'s loop from slot `index`. -/
def selectFrom (kind : QueueKind) (now : Instant) (starvationLimit : UInt8) :
    ℕ → List Slot → Option Selected → Option Selected
  | _, [], best => best
  | index, slot :: slots, best =>
    if slot.isFree || expired slot.expiresAt now then
      selectFrom kind now starvationLimit (index + 1) slots best
    else
      let info := slot.info kind
      let best :=
        if better info (best.map (·.info)) starvationLimit then some ⟨kind, index, info⟩ else best
      selectFrom kind now starvationLimit (index + 1) slots best

/-- The live item of this lane that policy prefers to `best`, or else `best`. -/
def select (lane : Lane) (kind : QueueKind) (now : Instant) (starvationLimit : UInt8)
    (best : Option Selected) : Option Selected :=
  selectFrom kind now starvationLimit 0 lane.slots best

/-- `expire`'s loop: each expired item's slot is freed, and counted as dequeued and expired. -/
def expireFrom (now : Instant) : List Slot → ℕ → QueueCounters → List Slot × ℕ × QueueCounters × ℕ
  | [], depth, counters => ([], depth, counters, 0)
  | slot :: slots, depth, counters =>
    if !slot.isFree && expired slot.expiresAt now then
      let depth := depth - 1
      let counters := (counters.recordDequeue depth).recordDropExpired
      let (slots, depth, counters, removed) := expireFrom now slots depth counters
      ({ slot with occupied := false } :: slots, depth, counters, removed + 1)
    else
      let (slots, depth, counters, removed) := expireFrom now slots depth counters
      (slot :: slots, depth, counters, removed)

/-- Remove the expired items, with how many there were. -/
def expire (lane : Lane) (now : Instant) : ℕ × Lane :=
  let (slots, depth, counters, removed) := expireFrom now lane.slots lane.depth lane.counters
  (removed, ⟨slots, depth, counters⟩)

/-- Remove the item in slot `index`, counting it as dequeued. -/
def remove (lane : Lane) (index : ℕ) : Lane where
  slots := lane.slots.modify index fun slot => { slot with occupied := false }
  depth := lane.depth - 1
  counters := lane.counters.recordDequeue (lane.depth - 1)

/-- `saturating_add(1)` on a `u8`. -/
def bump (wait : UInt8) : UInt8 := if wait = 255 then 255 else wait + 1

/-- One more service opportunity for every item waiting here. -/
def bumpWaits (lane : Lane) : Lane :=
  { lane with
    slots := lane.slots.map fun slot =>
      if slot.isFree then slot else { slot with serviceWait := bump slot.serviceWait } }

def freeSlot (lane : Lane) : Option ℕ := lane.slots.findIdx? (·.isFree)

def recordEnqueue (lane : Lane) : Lane :=
  { lane with
    depth := lane.depth + 1
    counters := lane.counters.recordEnqueue (lane.depth + 1) }

end Lane

/-- `wrapping_add(1)` on a `u64`. -/
def nextSequence (sequence : ℕ) : ℕ := (sequence + 1) % 18446744073709551616

/-- Service opportunities an item may wait before it counts as starved. -/
def defaultStarvationLimit : UInt8 := 8

/-! ## What the two backends share -/

/-- A backend that keeps its items in two lanes: where they are, and what it does by itself. -/
class LaneStorage (Q : Type) where
  lane : Q → QueueKind → Lane
  setLane : Q → QueueKind → Lane → Q
  limit : Q → UInt8
  /-- The number of the next item. -/
  sequence : Q → ℕ
  setStarvationLimit : Q → UInt8 → Q
  maxNpdu : Q → ℕ
  /-- How many items each class may hold. -/
  capacity : Q → QueueKind → ℕ
  enqueueNpdu : Q → UInt8 → List UInt8 → NetworkPriority → Instant → Option Instant →
    Except QueueRefusal Unit × Q
  lane_setLane : ∀ q kind lane' k,
    lane (setLane q kind lane') k = if k = kind then lane' else lane q k
  limit_setLane : ∀ q kind lane', limit (setLane q kind lane') = limit q
  sequence_setLane : ∀ q kind lane', sequence (setLane q kind lane') = sequence q
  maxNpdu_setLane : ∀ q kind lane', maxNpdu (setLane q kind lane') = maxNpdu q
  capacity_setLane : ∀ q kind lane', lane'.slots.length = (lane q kind).slots.length →
    ∀ k, capacity (setLane q kind lane') k = capacity q k
  lane_setStarvationLimit : ∀ q l k, lane (setStarvationLimit q l) k = lane q k
  limit_setStarvationLimit : ∀ q l, limit (setStarvationLimit q l) = l
  sequence_setStarvationLimit : ∀ q l, sequence (setStarvationLimit q l) = sequence q
  maxNpdu_setStarvationLimit : ∀ q l, maxNpdu (setStarvationLimit q l) = maxNpdu q
  capacity_setStarvationLimit : ∀ q l k, capacity (setStarvationLimit q l) k = capacity q k

attribute [simp] LaneStorage.limit_setLane LaneStorage.sequence_setLane LaneStorage.maxNpdu_setLane

namespace LaneStorage

variable {Q : Type} [LaneStorage Q]

def select (q : Q) (now : Instant) : Option Selected :=
  let unicast := (lane q .unicast).select .unicast now (limit q) none
  (lane q .broadcast).select .broadcast now (limit q) unicast

def selectKind (q : Q) (kind : QueueKind) (now : Instant) : Option Selected :=
  (lane q kind).select kind now (limit q) none

def mapCounters (q : Q) (kind : QueueKind) (f : QueueCounters → QueueCounters) : Q :=
  setLane q kind { lane q kind with counters := f (lane q kind).counters }

def expire (q : Q) (now : Instant) : ℕ × Q :=
  let (unicastRemoved, unicast) := (lane q .unicast).expire now
  let (broadcastRemoved, broadcast) := (lane q .broadcast).expire now
  (unicastRemoved + broadcastRemoved, setLane (setLane q .unicast unicast) .broadcast broadcast)

def bumpWaits (q : Q) : Q :=
  let q := setLane q .unicast (lane q .unicast).bumpWaits
  setLane q .broadcast (lane q .broadcast).bumpWaits

def dequeueKind (q : Q) (kind : QueueKind) (now : Instant) (maxLen : ℕ) :
    Except QueueRefusal (Option DequeuedNpdu) × Q :=
  let q := (expire q now).2
  match selectKind q kind now with
  | none => (.ok none, q)
  | some selected =>
    let info := selected.info
    let q := setLane q kind ((lane q kind).remove selected.index)
    if maxLen < info.len then (.error .oversize, mapCounters q kind .recordDropOversize)
    else
      let q := bumpWaits q
      let npdu := ((lane q kind).slots.getD selected.index (Slot.empty 0)).payload
      (.ok (some ⟨info.destination, kind, info.priority, info.sequence, npdu⟩), q)

def takeCounters (q : Q) (kind : QueueKind) : QueueCounters × Q :=
  let (taken, left) := (lane q kind).counters.take
  (taken, mapCounters q kind fun _ => left)

instance : QueueStorage Q where
  setStarvationLimit := setStarvationLimit
  maxNpdu := maxNpdu
  enqueueNpdu := enqueueNpdu
  expire := expire
  peek q now := (select q now).map (·.info)
  peekKind q kind now := (selectKind q kind now).map (·.info)
  dequeueKind := dequeueKind
  depth q kind := (lane q kind).depth
  counters q kind := (lane q kind).counters
  takeCounters := takeCounters

end LaneStorage

/-! ## Fixed-capacity queues -/

/-- `FixedQueues<U, B, N>`. -/
structure FixedQueues (U B N : ℕ) where
  unicast : Lane
  broadcast : Lane
  sequence : ℕ
  /-- `none` for the default. -/
  starvationLimit : Option UInt8
  deriving DecidableEq

namespace FixedQueues

variable {U B N : ℕ}

def new : FixedQueues U B N :=
  ⟨Lane.new (List.replicate U (Slot.empty N)), Lane.new (List.replicate B (Slot.empty N)), 0, none⟩

def lane (q : FixedQueues U B N) : QueueKind → Lane
  | .unicast => q.unicast
  | .broadcast => q.broadcast

def setLane (q : FixedQueues U B N) : QueueKind → Lane → FixedQueues U B N
  | .unicast, lane => { q with unicast := lane }
  | .broadcast, lane => { q with broadcast := lane }

def mapCounters (q : FixedQueues U B N) (kind : QueueKind) (f : QueueCounters → QueueCounters) :
    FixedQueues U B N :=
  q.setLane kind { q.lane kind with counters := f (q.lane kind).counters }

def enqueueNpdu (q : FixedQueues U B N) (destination : UInt8) (payload : List UInt8)
    (priority : NetworkPriority) (now : Instant) (expiresAt : Option Instant) :
    Except QueueRefusal Unit × FixedQueues U B N :=
  let kind := QueueKind.fromDestination destination
  if N < payload.length then (.error .oversize, q.mapCounters kind .recordDropOversize)
  else if expired expiresAt now then (.error .expired, q.mapCounters kind .recordDropExpired)
  else
    -- The number is taken before the room is checked, so a full queue uses one up too.
    let sequence := q.sequence
    let q := { q with sequence := nextSequence q.sequence }
    let lane := q.lane kind
    match lane.freeSlot with
    | none => (.error .full, q.mapCounters kind .recordDropFull)
    | some index =>
      let slots := lane.slots.modify index fun slot =>
        slot.fill destination payload priority now expiresAt sequence
      (.ok (), q.setLane kind { lane with slots := slots }.recordEnqueue)

instance : LaneStorage (FixedQueues U B N) where
  lane := lane
  setLane := setLane
  limit q := q.starvationLimit.getD defaultStarvationLimit
  sequence q := q.sequence
  setStarvationLimit q limit := { q with starvationLimit := some limit }
  maxNpdu _ := N
  capacity q kind := (q.lane kind).slots.length
  enqueueNpdu := enqueueNpdu
  lane_setLane _ kind _ k := by cases kind <;> cases k <;> rfl
  limit_setLane _ kind _ := by cases kind <;> rfl
  sequence_setLane _ kind _ := by cases kind <;> rfl
  maxNpdu_setLane _ kind _ := by cases kind <;> rfl
  capacity_setLane _ kind _ h k := by cases kind <;> cases k <;> first | exact h | rfl
  lane_setStarvationLimit _ _ k := by cases k <;> rfl
  limit_setStarvationLimit _ _ := rfl
  sequence_setStarvationLimit _ _ := rfl
  maxNpdu_setStarvationLimit _ _ := rfl
  capacity_setStarvationLimit _ _ k := by cases k <;> rfl

end FixedQueues

/-! ## Allocated queues -/

/-- `AllocQueues<N>`, whose lanes grow to their capacities. -/
structure AllocQueues (N : ℕ) where
  unicast : Lane
  broadcast : Lane
  unicastCapacity : ℕ
  broadcastCapacity : ℕ
  sequence : ℕ
  starvationLimit : UInt8
  deriving DecidableEq

namespace AllocQueues

variable {N : ℕ}

def new (unicastCapacity broadcastCapacity : ℕ) : AllocQueues N :=
  ⟨Lane.new [], Lane.new [], unicastCapacity, broadcastCapacity, 0, defaultStarvationLimit⟩

def lane (q : AllocQueues N) : QueueKind → Lane
  | .unicast => q.unicast
  | .broadcast => q.broadcast

def setLane (q : AllocQueues N) : QueueKind → Lane → AllocQueues N
  | .unicast, lane => { q with unicast := lane }
  | .broadcast, lane => { q with broadcast := lane }

def mapCounters (q : AllocQueues N) (kind : QueueKind) (f : QueueCounters → QueueCounters) :
    AllocQueues N :=
  q.setLane kind { q.lane kind with counters := f (q.lane kind).counters }

def capacity (q : AllocQueues N) : QueueKind → ℕ
  | .unicast => q.unicastCapacity
  | .broadcast => q.broadcastCapacity

/-- The slot for a new item: a free one, or when every slot so far holds an item a new one, which
fits the reservation. -/
def slotFor (n : ℕ) (lane : Lane) : List Slot × ℕ :=
  match lane.freeSlot with
  | some index => (lane.slots, index)
  | none => (lane.slots ++ [Slot.empty n], lane.slots.length)

def enqueueNpdu (q : AllocQueues N) (destination : UInt8) (payload : List UInt8)
    (priority : NetworkPriority) (now : Instant) (expiresAt : Option Instant) :
    Except QueueRefusal Unit × AllocQueues N :=
  let kind := QueueKind.fromDestination destination
  let lane := q.lane kind
  if N < payload.length then (.error .oversize, q.mapCounters kind .recordDropOversize)
  else if expired expiresAt now then (.error .expired, q.mapCounters kind .recordDropExpired)
  else if q.capacity kind ≤ lane.depth then
    (.error .full, q.mapCounters kind .recordDropFull)
  else
    let (slots, index) := slotFor N lane
    let slots := slots.modify index fun slot =>
      slot.fill destination payload priority now expiresAt q.sequence
    let q := q.setLane kind { lane with slots := slots }.recordEnqueue
    (.ok (), { q with sequence := nextSequence q.sequence })

instance : LaneStorage (AllocQueues N) where
  lane := lane
  setLane := setLane
  limit q := q.starvationLimit
  sequence q := q.sequence
  setStarvationLimit q limit := { q with starvationLimit := limit }
  maxNpdu _ := N
  capacity := capacity
  enqueueNpdu := enqueueNpdu
  lane_setLane _ kind _ k := by cases kind <;> cases k <;> rfl
  limit_setLane _ kind _ := by cases kind <;> rfl
  sequence_setLane _ kind _ := by cases kind <;> rfl
  maxNpdu_setLane _ kind _ := by cases kind <;> rfl
  capacity_setLane _ kind _ _ k := by cases kind <;> cases k <;> rfl
  lane_setStarvationLimit _ _ k := by cases k <;> rfl
  limit_setStarvationLimit _ _ := rfl
  sequence_setStarvationLimit _ _ := rfl
  maxNpdu_setStarvationLimit _ _ := rfl
  capacity_setStarvationLimit _ _ k := by cases k <;> rfl

end AllocQueues

end RustyBacnet.Mstp
