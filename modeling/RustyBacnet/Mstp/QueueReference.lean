import Mathlib.Data.List.MinMax
import Mathlib.Data.Prod.Lex
import RustyBacnet.Mstp.Queue

/-!
# What the transmit queues are for

The queues without their slots: two lists in arrival order, from which policy takes the unexpired
item it prefers, a starved one first (the oldest of them), otherwise one of the highest priority
(the oldest of those). `Reference` has the operations of a queue backend over such lists; arrivals
are numbered without end, and only to say which item is older.

`standing` puts the policy into one linear order, so that the preferred item is a largest one
(`preferred_spec`), whatever order the items are looked at in.
-/

namespace RustyBacnet.Mstp

/-- A waiting NPDU. -/
structure Waiting where
  destination : UInt8
  priority : NetworkPriority
  enqueuedAt : Instant
  expiresAt : Option Instant
  serviceWait : UInt8
  npdu : List UInt8
  /-- The place in the order of arrival. -/
  number : ℕ
  deriving DecidableEq

/-- Where policy puts an item: starved items above the others, and the older above the newer. -/
def standing (limit : UInt8) (wait : UInt8) (priority : NetworkPriority) (number : ℕ) :
    ℕ ×ₗ ℕ ×ₗ ℕᵒᵈ :=
  if limit ≤ wait then toLex (1, toLex (0, OrderDual.toDual number))
  else toLex (0, toLex (priority.rank, OrderDual.toDual number))

variable {limit : UInt8}
  {priority' priority : NetworkPriority} {wait' wait : UInt8} {number' number : ℕ}

theorem standing_lt :
    standing limit wait priority number < standing limit wait' priority' number' ↔
      if limit ≤ wait then limit ≤ wait' ∧ number' < number
      else limit ≤ wait' ∨ priority.rank < priority'.rank ∨
        (priority.rank = priority'.rank ∧ number' < number) := by
  unfold standing
  split_ifs <;> simp [Prod.Lex.toLex_lt_toLex, *]

theorem standing_injective
    (h : standing limit wait priority number = standing limit wait' priority' number') :
    number = number' := by
  unfold standing at h
  split_ifs at h <;> simp_all

namespace Waiting

def starved (limit : UInt8) (i : Waiting) : Bool := limit ≤ i.serviceWait

def standing (limit : UInt8) (i : Waiting) : ℕ ×ₗ ℕ ×ₗ ℕᵒᵈ :=
  Mstp.standing limit i.serviceWait i.priority i.number

def info (i : Waiting) (kind : QueueKind) : QueueItemInfo :=
  ⟨i.destination, kind, i.priority, i.npdu.length, i.enqueuedAt, i.expiresAt, i.number,
    i.serviceWait⟩

end Waiting

def oldest (items : List Waiting) : Option Waiting := items.argmin (·.number)

/-- The oldest starved item, or else the oldest of the highest priority. -/
def preferred (limit : UInt8) (items : List Waiting) : Option Waiting :=
  match oldest (items.filter (·.starved limit)) with
  | some i => some i
  | none =>
    oldest (items.filter fun i => items.all fun j => j.priority.rank ≤ i.priority.rank)

variable {items : List Waiting}

theorem preferred_eq_none : preferred limit items = none ↔ items = [] := by
  refine ⟨fun h => ?_, fun h => by subst h; rfl⟩
  unfold preferred at h
  split at h
  · exact absurd h (by simp)
  · by_contra hne
    -- Some item has the highest priority.
    obtain ⟨m, hm⟩ := Option.ne_none_iff_exists'.mp
      (fun hn => hne ((List.argmax_eq_none (f := fun i : Waiting => i.priority.rank)).mp hn))
    have hmem : m ∈ items.filter fun i => items.all fun j => j.priority.rank ≤ i.priority.rank := by
      rw [List.mem_filter]
      refine ⟨List.argmax_mem hm, ?_⟩
      simp only [List.all_eq_true, decide_eq_true_eq]
      exact fun j hj => List.le_of_mem_argmax (f := fun i : Waiting => i.priority.rank) hj hm
    rw [List.argmin_eq_none.mp h] at hmem
    exact List.not_mem_nil hmem

/-- No item stands above the preferred one. -/
theorem preferred_spec {m : Waiting} (h : preferred limit items = some m) :
    m ∈ items ∧ ∀ i ∈ items, i.standing limit ≤ m.standing limit := by
  unfold preferred at h
  split at h
  · rename_i m' hstarved
    obtain rfl := Option.some.inj h
    have hmem := List.mem_filter.mp (List.argmin_mem hstarved)
    refine ⟨hmem.1, fun i hi => le_of_not_gt fun hlt => ?_⟩
    have hm : limit ≤ m'.serviceWait := of_decide_eq_true hmem.2
    unfold Waiting.standing at hlt
    rw [standing_lt, if_pos hm] at hlt
    have hle := List.le_of_mem_argmin (f := fun i : Waiting => i.number)
      (List.mem_filter.mpr ⟨hi, decide_eq_true hlt.1⟩) hstarved
    omega
  · rename_i hnone
    have hquiet : ∀ i ∈ items, ¬limit ≤ i.serviceWait := by
      intro i hi hs
      have : i ∈ items.filter (·.starved limit) := List.mem_filter.mpr ⟨hi, decide_eq_true hs⟩
      rw [List.argmin_eq_none.mp hnone] at this
      exact List.not_mem_nil this
    have hmem := List.mem_filter.mp (List.argmin_mem h)
    have htop := hmem.2
    simp only [List.all_eq_true, decide_eq_true_eq] at htop
    refine ⟨hmem.1, fun i hi => le_of_not_gt fun hlt => ?_⟩
    unfold Waiting.standing at hlt
    rw [standing_lt, if_neg (hquiet m hmem.1)] at hlt
    rcases hlt with hs | hp | ⟨hp, hn⟩
    · exact hquiet i hi hs
    · have := htop i hi
      omega
    · have hle := List.le_of_mem_argmin (f := fun i : Waiting => i.number)
        (List.mem_filter.mpr ⟨hi, by
          simp only [List.all_eq_true, decide_eq_true_eq]
          exact fun j hj => hp ▸ htop j hj⟩) h
      omega

/-! ## The operations -/

/-- Two lists in arrival order. -/
structure Reference where
  items : QueueKind → List Waiting
  counters : QueueKind → QueueCounters
  capacity : QueueKind → ℕ
  /-- The longest NPDU taken. -/
  maxNpdu : ℕ
  limit : UInt8
  /-- Items taken so far. -/
  arrivals : ℕ

namespace Reference

def new (unicastCapacity broadcastCapacity maxNpdu : ℕ) : Reference where
  items _ := []
  counters _ := {}
  capacity
    | .unicast => unicastCapacity
    | .broadcast => broadcastCapacity
  maxNpdu := maxNpdu
  limit := defaultStarvationLimit
  arrivals := 0

def mapCounters (r : Reference) (kind : QueueKind) (f : QueueCounters → QueueCounters) :
    Reference :=
  { r with counters := Function.update r.counters kind (f (r.counters kind)) }

def accept (r : Reference) (kind : QueueKind) (item : Waiting) : Reference :=
  let items := r.items kind ++ [item]
  { r with
    items := Function.update r.items kind items
    counters := Function.update r.counters kind ((r.counters kind).recordEnqueue items.length)
    arrivals := r.arrivals + 1 }

def enqueueNpdu (r : Reference) (destination : UInt8) (npdu : List UInt8)
    (priority : NetworkPriority) (now : Instant) (expiresAt : Option Instant) :
    Except QueueRefusal Unit × Reference :=
  let kind := QueueKind.fromDestination destination
  if r.maxNpdu < npdu.length then (.error .oversize, r.mapCounters kind .recordDropOversize)
  else if expired expiresAt now then (.error .expired, r.mapCounters kind .recordDropExpired)
  else if r.capacity kind ≤ (r.items kind).length then
    (.error .full, r.mapCounters kind .recordDropFull)
  else (.ok (), r.accept kind ⟨destination, priority, now, expiresAt, 0, npdu, r.arrivals⟩)

def live (now : Instant) (items : List Waiting) : List Waiting :=
  items.filter fun i => !expired i.expiresAt now

/-- Count `removed` expired items out of a queue `depth` deep. -/
def countExpired : ℕ → ℕ → QueueCounters → QueueCounters
  | 0, _, counters => counters
  | removed + 1, depth, counters =>
    countExpired removed (depth - 1) ((counters.recordDequeue (depth - 1)).recordDropExpired)

def expiredCount (r : Reference) (kind : QueueKind) (now : Instant) : ℕ :=
  ((r.items kind).filter fun i => expired i.expiresAt now).length

def expire (r : Reference) (now : Instant) : ℕ × Reference :=
  (r.expiredCount .unicast now + r.expiredCount .broadcast now,
    { r with
      items := fun kind => live now (r.items kind)
      counters := fun kind =>
        countExpired (r.expiredCount kind now) (r.items kind).length (r.counters kind) })

def peekKind (r : Reference) (kind : QueueKind) (now : Instant) : Option QueueItemInfo :=
  (preferred r.limit (live now (r.items kind))).map (·.info kind)

def peek (r : Reference) (now : Instant) : Option QueueItemInfo :=
  let unicast := live now (r.items .unicast)
  (preferred r.limit (unicast ++ live now (r.items .broadcast))).map fun i =>
    i.info (if i ∈ unicast then .unicast else .broadcast)

def dequeueKind (r : Reference) (kind : QueueKind) (now : Instant) (maxLen : ℕ) :
    Except QueueRefusal (Option DequeuedNpdu) × Reference :=
  let r := (r.expire now).2
  match preferred r.limit (r.items kind) with
  | none => (.ok none, r)
  | some item =>
    let items := (r.items kind).erase item
    let r := { r with
      items := Function.update r.items kind items
      counters := Function.update r.counters kind ((r.counters kind).recordDequeue items.length) }
    if maxLen < item.npdu.length then (.error .oversize, r.mapCounters kind .recordDropOversize)
    else
      (.ok (some ⟨item.destination, kind, item.priority, item.number, item.npdu⟩),
        { r with
          items := fun kind => (r.items kind).map fun i =>
            { i with serviceWait := Lane.bump i.serviceWait } })

instance : QueueStorage Reference where
  setStarvationLimit r limit := { r with limit := limit }
  maxNpdu r := r.maxNpdu
  enqueueNpdu := enqueueNpdu
  expire := expire
  peek := peek
  peekKind := peekKind
  dequeueKind := dequeueKind
  depth r kind := (r.items kind).length
  counters r kind := r.counters kind
  takeCounters r kind :=
    let (taken, left) := (r.counters kind).take
    (taken, r.mapCounters kind fun _ => left)

end Reference

end RustyBacnet.Mstp
