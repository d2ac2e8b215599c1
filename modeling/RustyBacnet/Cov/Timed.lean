import RustyBacnet.Cov.Identity
import RustyBacnet.Lib.Pairs

/-!
# Retained timestamped changes

`TimedHistories` keeps the pending changes of each timestamped COV-multiple reference, and counts
them for each context against a room of octets and a ceiling of bytes. The counts are kept as changes
come and go; `intact` says that every debug assertion of `release` so far held.

What these operations never read is left out: baselines, fields and delays of a history, the
untimestamped references, the deadlines and the sending turns. Sequences and sizes are far below
their machine types' bounds.
-/

namespace RustyBacnet.Cov

open Encoding

/-- `size_of::<TimedChange>()` on the 64-bit targets. -/
def CHANGE_MEMORY : ℕ := 144

/-- `size_of::<COVNotificationValue>() + size_of::<usize>()`. -/
def VALUE_MEMORY : ℕ := 56

def HISTORY_NOTIFICATIONS : ℕ := 4

def ITEM_FRAMING : ℕ := 7

def CEILING_BYTES_PER_OCTET : ℕ := 4

structure COVNotificationValue where
  propertyIdentifier : UInt32
  propertyArrayIndex : Option UInt32
  value : List UInt8
  timeOfChange : Option Time
  deriving DecidableEq

def unsignedLen (value : ℕ) : ℕ :=
  1 + (((List.range' 1 7).find? fun octets => value >>> (8 * octets) == 0).getD 8)

def valueLen (value : COVNotificationValue) : ℕ :=
  unsignedLen value.propertyIdentifier.toNat
    + (value.propertyArrayIndex.map fun index => unsignedLen index.toNat).getD 0
    + 2
    + value.value.length
    + if value.timeOfChange.isSome then 5 else 0

def itemOctets (values : List COVNotificationValue) : ℕ :=
  ITEM_FRAMING + (values.map valueLen).sum

/-- Octets a notification to `context` spends outside its items. -/
def envelopeLen (context : MultipleContextKey) (timeRemaining : UInt32) : ℕ :=
  (if context.confirmed then 4 else 2) + unsignedLen context.processId.toNat + 5
    + unsignedLen timeRemaining.toNat + 12 + 2

/-! ## Changes -/

/-- The Device clock at a change. -/
structure ClockFrame where
  localDate : Date
  localTime : Time
  deriving DecidableEq

/-- A captured change, or a part of one; its size is that of its values, each with its position. -/
structure TimedChange where
  seq : ℕ
  frame : ClockFrame
  values : List COVNotificationValue
  octets : ℕ
  positions : List ℕ
  continues : Bool
  octets_eq : octets = itemOctets values
  positions_length : positions.length = values.length

namespace TimedChange

def new (frame : ClockFrame) (values : List COVNotificationValue) : TimedChange :=
  let values := values.map fun value => { value with timeOfChange := some frame.localTime }
  { seq := 0
    frame := frame
    values := values
    octets := itemOctets values
    positions := List.range values.length
    continues := false
    octets_eq := rfl
    positions_length := List.length_range }

def part (change : TimedChange) (value : COVNotificationValue) (position : ℕ) : TimedChange where
  seq := change.seq
  frame := change.frame
  values := [value]
  octets := itemOctets [value]
  positions := [position]
  continues := true
  octets_eq := by rw [itemOctets]
  positions_length := by rw [List.length_singleton, List.length_singleton]

def intoValues (change : TimedChange) : List TimedChange :=
  (change.values.zip change.positions).map fun pair => change.part pair.1 pair.2

/-- The values of two parts in the order they were captured. -/
def merged (change other : TimedChange) : List (ℕ × COVNotificationValue) :=
  (change.positions.zip change.values ++ other.positions.zip other.values).mergeSort
    fun a b => a.1 ≤ b.1

/-- Take back another part; also the octets this adds. -/
def rejoin (change other : TimedChange) : ℕ × TimedChange :=
  let values := (change.merged other).unzip.2
  (itemOctets values - change.octets,
    { change with
      positions := (change.merged other).unzip.1
      values := values
      octets := itemOctets values
      octets_eq := rfl
      positions_length := by
        rw [List.unzip_eq_map]
        dsimp only [values]
        rw [List.unzip_eq_map, List.length_map, List.length_map] })

def memory (change : TimedChange) : ℕ :=
  CHANGE_MEMORY + (change.values.map fun value => VALUE_MEMORY + value.value.length).sum

end TimedChange

/-! ## The state -/

structure TimedHistory where
  incarnation : ℕ
  generation : ℕ
  latest : ℕ
  committed : ℕ
  inDelivery : ℕ
  entries : List TimedChange

inductive DropReason where
  | historyFull
  | tooLarge
  | superseded
  deriving DecidableEq

/-- Pending changes of a context, as its bound counts them. -/
structure Held where
  octets : ℕ
  memory : ℕ
  deriving DecidableEq

namespace Held

def zero : Held := ⟨0, 0⟩

def of (changes : List TimedChange) : Held :=
  changes.foldl (fun held change => ⟨held.octets + change.octets, held.memory + change.memory⟩) zero

def grow (held more : Held) : Held := ⟨held.octets + more.octets, held.memory + more.memory⟩

end Held

/-- The sizing of a context and the drops it warned about. -/
structure ContextTerms where
  apdu : ℕ
  envelope : ℕ
  reserve : ℕ
  warned : List DropReason

namespace ContextTerms

def notification (terms : ContextTerms) : ℕ := terms.apdu - terms.envelope

def room (terms : ContextTerms) : ℕ := HISTORY_NOTIFICATIONS * terms.notification - terms.reserve

def ceiling (terms : ContextTerms) (local_ : ℕ) : ℕ :=
  CEILING_BYTES_PER_OCTET * HISTORY_NOTIFICATIONS * (local_ - terms.envelope)

def holds (terms : ContextTerms) (held : Held) (local_ : ℕ) : Bool :=
  decide (held.octets ≤ terms.room) && decide (held.memory ≤ terms.ceiling local_)

end ContextTerms

structure TimedHistories where
  histories : List (CovSubscriptionKey × TimedHistory)
  terms : List (MultipleContextKey × ContextTerms)
  contextHeld : List (MultipleContextKey × Held)
  nextSeq : ℕ
  nextIncarnation : ℕ
  localApdu : ℕ
  timedChangesDropped : ℕ
  intact : Bool

namespace TimedHistories

def new (localApdu : ℕ) : TimedHistories := ⟨[], [], [], 1, 1, localApdu, 0, true⟩

def history (store : TimedHistories) (key : CovSubscriptionKey) (generation : ℕ) :
    Option TimedHistory :=
  (Pairs.get store.histories key).filter fun history => history.generation == generation

def byIncarnation (store : TimedHistories) (key : CovSubscriptionKey) (incarnation : ℕ) :
    Option TimedHistory :=
  (Pairs.get store.histories key).filter fun history => history.incarnation == incarnation

/-- What a caller of `history_mut` or `incarnation_mut` writes back. -/
def setHistory (store : TimedHistories) (key : CovSubscriptionKey) (history : TimedHistory) :
    TimedHistories :=
  { store with histories := Pairs.modify store.histories key fun _ => history }

/-! ## The bound -/

def dropped (store : TimedHistories) (key : CovSubscriptionKey) (count : ℕ) (reason : DropReason) :
    TimedHistories :=
  { store with
    timedChangesDropped := store.timedChangesDropped + count
    terms := match key.multipleContext with
      | none => store.terms
      | some context => Pairs.modify store.terms context fun terms =>
        { terms with warned := if reason ∈ terms.warned then terms.warned
          else reason :: terms.warned } }

/-- Return `released` changes of `key` to its context's bound. -/
def release (store : TimedHistories) (key : CovSubscriptionKey) (released : Held) :
    TimedHistories :=
  match key.multipleContext with
  | none => store
  | some context =>
    match Pairs.get store.contextHeld context with
    | none => { store with intact := store.intact && decide (released = Held.zero) }
    | some held =>
      let left : Held := ⟨held.octets - released.octets, held.memory - released.memory⟩
      { store with
        intact := store.intact
          && decide (held.octets ≥ released.octets ∧ held.memory ≥ released.memory)
        contextHeld := if left = Held.zero then Pairs.remove store.contextHeld context
          else Pairs.insert store.contextHeld context left }

/-- The oldest change eviction may take: neither the newest nor the one in delivery. -/
def evictable (history : TimedHistory) : Option ℕ :=
  (List.range (history.entries.length - 1)).find? fun at_ =>
    (history.entries[at_]?).any fun change => change.seq != history.inDelivery

def oldestOf : List (CovSubscriptionKey × ℕ × ℕ) → Option (CovSubscriptionKey × ℕ × ℕ)
  | [] => none
  | candidate :: candidates =>
    match oldestOf candidates with
    | none => some candidate
    | some other => if other.2.2 < candidate.2.2 then some other else some candidate

/-- Every reference of the context with a change eviction may take, and that change. -/
def candidates (store : TimedHistories) (context : MultipleContextKey) :
    List (CovSubscriptionKey × ℕ × ℕ) :=
  (store.histories.filter fun pair => pair.1.multipleContext = some context).filterMap fun pair =>
    match evictable pair.2 with
    | none => none
    | some at_ => (pair.2.entries[at_]?).map fun change => (pair.1, at_, change.seq)

/-- The reference's own oldest evictable change, else the oldest in the context. -/
def victim (store : TimedHistories) (key : CovSubscriptionKey) (context : MultipleContextKey) :
    Option (CovSubscriptionKey × ℕ) :=
  match (Pairs.get store.histories key).bind evictable with
  | some at_ => some (key, at_)
  | none => (oldestOf (store.candidates context)).map fun found => (found.1, found.2.1)

/-- Take the change at `at_` of `victim`. -/
def evict (store : TimedHistories) (victim : CovSubscriptionKey) (at_ : ℕ) : TimedHistories :=
  match Pairs.get store.histories victim with
  | none => store
  | some history =>
    match history.entries[at_]? with
    | none => store
    | some evicted =>
      ((store.setHistory victim { history with entries := history.entries.eraseIdx at_ }).release
        victim (Held.of [evicted])).dropped victim 1 .historyFull

def heldOf (store : TimedHistories) (context : MultipleContextKey) : Held :=
  (Pairs.get store.contextHeld context).getD Held.zero

/-- The loop of `enforce_bound`, at most `left` more evictions. -/
def evictFrom (key : CovSubscriptionKey) (context : MultipleContextKey) (terms : ContextTerms) :
    ℕ → TimedHistories → TimedHistories
  | 0, store => store
  | left + 1, store =>
    if terms.holds (store.heldOf context) store.localApdu then store
    else
      match store.victim key context with
      | none => store
      | some (victim, at_) => evictFrom key context terms left (store.evict victim at_)

def pending (store : TimedHistories) : ℕ :=
  Pairs.weight (fun _ history => history.entries.length) store.histories

def enforceBound (store : TimedHistories) (key : CovSubscriptionKey) : TimedHistories :=
  match key.multipleContext with
  | none => store
  | some context =>
    match Pairs.get store.terms context with
    | none => store
    | some terms => evictFrom key context terms store.pending store

/-! ## Operations -/

def setSizing (store : TimedHistories) (context : MultipleContextKey) (subscriber : Option UInt16)
    (timeRemaining : UInt32) : TimedHistories :=
  let apdu := match subscriber with
    | none => store.localApdu
    | some subscriber => min store.localApdu subscriber.toNat
  { store with
    terms := Pairs.modify store.terms context fun terms =>
      { apdu := apdu
        envelope := envelopeLen context timeRemaining
        reserve := 0
        warned := if terms.apdu ≠ apdu then [] else terms.warned } }

def noteReserve (store : TimedHistories) (context : MultipleContextKey) (octets : ℕ) :
    TimedHistories :=
  { store with
    terms := Pairs.modify store.terms context fun terms =>
      { terms with reserve := max terms.reserve (min octets terms.notification) } }

/-- The terms a reference's context has once the reference is published. -/
def admitTerms (store : TimedHistories) (key : CovSubscriptionKey) :
    List (MultipleContextKey × ContextTerms) :=
  match key.multipleContext with
  | none => store.terms
  | some context =>
    match Pairs.get store.terms context with
    | some terms => Pairs.insert store.terms context { terms with warned := [] }
    | none =>
      Pairs.insert store.terms context
        ⟨store.localApdu, envelopeLen context 4294967295, 0, []⟩

def reset (store : TimedHistories) (key : CovSubscriptionKey) (generation : ℕ) : TimedHistories :=
  let store := { store with terms := store.admitTerms key }
  match Pairs.get store.histories key with
  | some history => store.setHistory key { history with generation := generation }
  | none =>
    { store with
      histories := Pairs.insert store.histories key
        ⟨store.nextIncarnation, generation, 0, 0, 0, []⟩
      nextIncarnation := store.nextIncarnation + 1 }

/-- The history of a removed reference goes with its changes. -/
def removeHistory (store : TimedHistories) (key : CovSubscriptionKey) : TimedHistories :=
  match Pairs.get store.histories key with
  | none => store
  | some history =>
    ({ store with histories := Pairs.remove store.histories key }).release key
      (Held.of history.entries)

def remove (store : TimedHistories) (key : CovSubscriptionKey) : TimedHistories :=
  let store := store.removeHistory key
  match key.multipleContext with
  | none => store
  | some context =>
    if store.histories.any fun pair => pair.1.multipleContext = some context then
      { store with
        terms := Pairs.modify store.terms context fun terms => { terms with reserve := 0 } }
    else { store with terms := Pairs.remove store.terms context }

/-- One turn of `insert_ordered`: the entries with the change, and what it adds. -/
def insertOne (entries : List TimedChange) (change : TimedChange) : Held × List TimedChange :=
  let change := { change with continues := false }
  let at_ := (entries.takeWhile fun entry => entry.seq < change.seq).length
  match entries[at_]?.filter fun entry => entry.seq == change.seq with
  | some entry =>
    let (octets, rejoined) := entry.rejoin change
    (⟨octets, rejoined.memory - entry.memory⟩, entries.set at_ rejoined)
  | none => (⟨change.octets, change.memory⟩, entries.insertIdx at_ change)

/-- The loop of `insert_ordered`. -/
def insertAll (added : Held) (entries : List TimedChange) :
    List TimedChange → Held × List TimedChange
  | [] => (added, entries)
  | change :: changes =>
    let (more, entries) := insertOne entries change
    insertAll (added.grow more) entries changes

/-- Count `added` changes of `key` into its context's bound. -/
def charge (store : TimedHistories) (key : CovSubscriptionKey) (added : Held) : TimedHistories :=
  match key.multipleContext with
  | none => store
  | some context =>
    if added = Held.zero then store
    else { store with
      contextHeld := Pairs.insert store.contextHeld context ((store.heldOf context).grow added) }

def insertOrdered (store : TimedHistories) (key : CovSubscriptionKey) (generation : ℕ)
    (changes : List TimedChange) (evict : Bool) : TimedHistories :=
  match store.history key generation with
  | none => store
  | some history =>
    let (added, entries) := insertAll Held.zero history.entries changes
    let store := (store.setHistory key { history with entries := entries }).charge key added
    if evict then store.enforceBound key else store

/-- Sequence a change and make it the reference's latest. -/
def adopt (store : TimedHistories) (key : CovSubscriptionKey) (generation : ℕ)
    (change : TimedChange) : TimedChange × TimedHistories :=
  let change := { change with seq := store.nextSeq }
  let store := { store with nextSeq := store.nextSeq + 1 }
  match store.history key generation with
  | none => (change, store)
  | some history => (change, store.setHistory key { history with latest := change.seq })

def push (store : TimedHistories) (key : CovSubscriptionKey) (generation : ℕ)
    (change : TimedChange) : Bool × TimedHistories :=
  match store.history key generation with
  | none => (false, store)
  | some _ =>
    let (change, store) := store.adopt key generation change
    (true, store.insertOrdered key generation [change] true)

def drain (store : TimedHistories) (key : CovSubscriptionKey) (generation : ℕ) :
    (ℕ × List TimedChange) × TimedHistories :=
  match store.history key generation with
  | none => ((0, []), store)
  | some history =>
    if (history.entries.getLast?).any fun newest => newest.seq < history.latest then
      ((history.incarnation, []), store)
    else
      ((history.incarnation, history.entries),
        (store.setHistory key { history with entries := [] }).release key
          (Held.of history.entries))

/-- Changes up to `seq` were delivered. -/
def commit (store : TimedHistories) (key : CovSubscriptionKey) (incarnation seq : ℕ) :
    TimedHistories :=
  match store.byIncarnation key incarnation with
  | none => store
  | some history =>
    let committed := max history.committed seq
    let removed := history.entries.takeWhile fun change => change.seq < committed
    let store := store.setHistory key { history with
      committed := committed
      entries := history.entries.dropWhile fun change => change.seq < committed }
    if removed.isEmpty then store
    else (store.release key (Held.of removed)).dropped key removed.length .superseded

def requeue (store : TimedHistories) (key : CovSubscriptionKey) (incarnation : ℕ)
    (changes : List TimedChange) (evict : Bool) : TimedHistories :=
  match store.byIncarnation key incarnation with
  | none => store
  | some history =>
    let keep := changes.filter fun change => change.seq > history.committed
    let stale := changes.filter fun change => ¬change.seq > history.committed
    let store := if stale.isEmpty then store else store.dropped key stale.length .superseded
    store.insertOrdered key history.generation keep evict

def deliverByValue (store : TimedHistories) (key : CovSubscriptionKey) (incarnation seq : ℕ) :
    TimedHistories :=
  match store.byIncarnation key incarnation with
  | none => store
  | some history => store.setHistory key { history with inDelivery := seq }

end TimedHistories

end RustyBacnet.Cov
