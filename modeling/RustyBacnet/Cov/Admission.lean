import RustyBacnet.Cov.Table

/-!
# Admission

Ordinary and Single subscriptions, Multiple references with their shared context, and the caps every
new subscription meets. A Multiple request's proposals are checked against the caps in turn; the
first that does not fit ends it, and those before it are kept as if they had been the whole request.
-/

namespace RustyBacnet.Cov

open Encoding

variable {O : Type}

/-- The cap a new subscription would go past. -/
inductive Cap where
  | peer
  | table
  deriving DecidableEq

/-- A Multiple admission that did not take every reference. -/
structure MultipleRefusal (O : Type) where
  error : Error
  refused : Option ℕ
  committed : List (CovSubscriptionSnapshot O)
  deriving DecidableEq

def MultipleRefusal.whole (error : Error) : MultipleRefusal O := ⟨error, none, []⟩

namespace CovTable

/-! ## Caps -/

/-- How many more subscriptions `peer` may add under its own quota and under the capacity. -/
def room (table : CovTable O) (peer : CovRecipient) : ℕ × ℕ :=
  (table.policy.maxSubscriptionsPerPeer - table.peerSubscriptionCount peer,
    table.policy.capacityFor peer - table.subs.length)

def capPassed (table : CovTable O) (peer : CovRecipient) (newCount : ℕ) : Option Cap :=
  let (peerRoom, tableRoom) := table.room peer
  if newCount > peerRoom then some .peer
  else if newCount > tableRoom then some .table
  else none

/-- Count a refusal at `cap`. -/
def refuseNew (table : CovTable O) (cap : Cap) : Error × CovTable O :=
  let counts := table.counts
  (.noSpaceToAddListElement, { table with
    counts :=
      match cap with
      | .peer =>
        { counts with subscriptionsRejectedQuota := counts.subscriptionsRejectedQuota + 1 }
      | .table =>
        { counts with subscriptionsRejectedCapacity := counts.subscriptionsRejectedCapacity + 1 } })

def refuseIndefinite (table : CovTable O) (error : Error) : Error × CovTable O :=
  let counts := table.counts
  (error, { table with
    counts :=
      { counts with
        subscriptionsRejectedIndefinite := counts.subscriptionsRejectedIndefinite + 1 } })

/-- Whether one admission fits the indefinite cap and the subscription caps. -/
def checkCaps (table : CovTable O) (peer : CovRecipient) (newCount newIndefinite : ℕ)
    (now : Instant) : Option Error × CovTable O :=
  let table := (table.expire now).2
  if newIndefinite > 0 ∧
      table.peerIndefiniteCount peer + newIndefinite > table.policy.maxIndefinitePerPeer then
    let (refused, table) := table.refuseIndefinite .noSpaceToAddListElement
    (some refused, table)
  else
    match table.capPassed peer newCount with
    | some cap =>
      let (refused, table) := table.refuseNew cap
      (some refused, table)
    | none => (none, table)

/-- The subscriptions and the indefinite subscriptions an admission adds. -/
def added (isIndefinite : Bool) (existing : Option (CovSubscriptionSnapshot O)) : ℕ × ℕ :=
  match existing with
  | some entry => (0, if isIndefinite && !entry.expiresAt.isNone then 1 else 0)
  | none => (1, if isIndefinite then 1 else 0)

def checkAdmission (table : CovTable O) (peer : CovRecipient) (isIndefinite : Bool)
    (existing : Option (CovSubscriptionSnapshot O)) (now : Instant) : Option Error × CovTable O :=
  let table := (table.expire now).2
  if isIndefinite && !table.policy.allowIndefiniteSubscriptions then
    let (refused, table) := table.refuseIndefinite .valueOutOfRange
    (some refused, table)
  else
    let (newCount, newIndefinite) := added isIndefinite existing
    table.checkCaps peer newCount newIndefinite now

/-! ## Publishing -/

/-- The first of `count` fresh generations, or the refusal once they are spent. -/
def reserveGenerations (table : CovTable O) (count : ℕ) : Except Error ℕ × CovTable O :=
  let counts := table.counts
  if count = 0 then (.ok table.generation, table)
  else if table.generation + count > maxSerial then
    (.error .noSpaceToAddListElement, { table with
      counts :=
        { counts with
          subscriptionsRejectedCapacity := counts.subscriptionsRejectedCapacity + 1 } })
  else (.ok (table.generation + 1), { table with generation := table.generation + count })

def newFlight (table : CovTable O) : ℕ × CovTable O :=
  (table.nextFlight + 1, { table with nextFlight := table.nextFlight + 1 })

/-- A replacement's effect on its recipient's indefinite count. -/
def recountIndefinite (counts : VecMap CovRecipient ℕ) (peer : CovRecipient)
    (oldIndefinite newIndefinite : Bool) : VecMap CovRecipient ℕ :=
  if oldIndefinite != newIndefinite then
    if newIndefinite then counts.raise peer else counts.lower peer 1
  else counts

/-- The entry that stood under a new one's key, if any, gives way to it. -/
def countPublished (table : CovTable O) (snapshot : CovSubscriptionSnapshot O) :
    Option (CovSubscriptionSnapshot O) → CovTable O
  | some old =>
    let table := if old.flight != snapshot.flight then table.fenceFlight old.flight else table
    { table with
      peerIndefiniteCounts :=
        recountIndefinite table.peerIndefiniteCounts snapshot.recipient old.expiresAt.isNone
          snapshot.expiresAt.isNone }
  | none =>
    let counts := table.counts
    { table with
      peerCounts := table.peerCounts.raise snapshot.recipient
      peerIndefiniteCounts :=
        if snapshot.expiresAt.isNone then table.peerIndefiniteCounts.raise snapshot.recipient
        else table.peerIndefiniteCounts
      counts := { counts with subscriptionsCreated := counts.subscriptionsCreated + 1 } }

/-- Write `snapshot` into the table. -/
def insert (table : CovTable O) (snapshot : CovSubscriptionSnapshot O) : CovTable O :=
  let table := table.dueBy snapshot.expiresAt
  let (old, subs) := SortedArray.put (·.key) table.subs snapshot
  { table with subs }.countPublished snapshot old

def publish (table : CovTable O) (key : CovSubscriptionKey) (sub : CovSubscription O)
    (generation : ℕ) (maxNotificationDelay : Option UInt32) (subscriberMaxApdu : Option UInt16)
    (contextFlight : Option ℕ) : CovSubscriptionSnapshot O × CovTable O :=
  let (flight, table) :=
    match contextFlight with
    | some flight => (flight, table)
    | none => table.newFlight
  let snapshot :=
    ⟨key, generation, table.id, 0, flight, sub, maxNotificationDelay, subscriberMaxApdu⟩
  (snapshot, table.insert snapshot)

/-- Accept an ordinary or Single subscription, new or renewed. -/
def subscribe (table : CovTable O) (sub : CovSubscription O) (now : Instant) :
    Except Error (CovSubscriptionSnapshot O) × CovTable O :=
  match sub.key with
  | .error refused => (.error refused, table)
  | .ok key =>
    if key.multipleContext.isSome then
      (.error (.encoding "Multiple references must be admitted through subscribe_multiple"), table)
    else
      let table := (table.expire now).2
      match table.checkAdmission sub.recipient sub.expiresAt.isNone (table.get key) now with
      | (some refused, table) => (.error refused, table)
      | (none, table) =>
        match table.reserveGenerations 1 with
        | (.error refused, table) => (.error refused, table)
        | (.ok generation, table) =>
          let (snapshot, table) := table.publish key sub generation none none none
          (.ok snapshot, table)

/-! ## Multiple references -/

/-- The keys of a request's references, each checked against the request's own context. -/
def validateMultiple (context : MultipleContextKey) (route : SubscriberEndpoint)
    (expiresAt : Instant) :
    List (CovSubscription O) → Except Error (List (CovSubscriptionKey × CovSubscription O))
  | [] => .ok []
  | sub :: subs =>
    match sub.key with
    | .error refused => .error refused
    | .ok key =>
      if key.multipleContext ≠ some context ∨ sub.expiresAt ≠ some expiresAt
          ∨ sub.endpoint ≠ route then
        .error (.encoding "Multiple subscription does not match its context/route/expiry")
      else
        match validateMultiple context route expiresAt subs with
        | .error refused => .error refused
        | .ok keyed => .ok ((key, sub) :: keyed)

/-- A validated reference has its key, and is of its request's context, route and lifetime. -/
theorem mem_validateMultiple {context : MultipleContextKey} {route : SubscriberEndpoint}
    {expiresAt : Instant} (subs : List (CovSubscription O)) :
    ∀ {proposals}, validateMultiple context route expiresAt subs = .ok proposals →
      ∀ proposal ∈ proposals, proposal.2.key = .ok proposal.1 ∧
        proposal.1.multipleContext = some context ∧ proposal.2.endpoint = route ∧
        proposal.2.expiresAt = some expiresAt := by
  induction subs with
  | nil =>
    intro proposals h
    cases h
    exact fun _ hmem => absurd hmem List.not_mem_nil
  | cons sub subs ih =>
    intro proposals h
    unfold validateMultiple at h
    split at h
    · cases h
    rename_i key hkey
    split_ifs at h with hmatch
    split at h
    · cases h
    rename_i keyed hkeyed
    cases h
    rw [not_or, not_or, not_not, not_not, not_not] at hmatch
    intro proposal hproposal
    rcases List.mem_cons.mp hproposal with rfl | hproposal
    · exact ⟨hkey, hmatch.1, hmatch.2.2, hmatch.2.1⟩
    · exact ih hkeyed proposal hproposal

/-- The first proposal past `room`, given the keys `added` so far. -/
def overflowFrom (table : CovTable O) (recipient : CovRecipient) (room : ℕ) :
    List (CovSubscriptionKey × CovSubscription O) → List CovSubscriptionKey → ℕ → Option (ℕ × Cap)
  | [], _, _ => none
  | (key, _) :: proposals, added, position =>
    if table.contains key || added.contains key then
      table.overflowFrom recipient room proposals added (position + 1)
    else if added.length = room then
      -- one past the room passes a cap
      (table.capPassed recipient (room + 1)).map fun cap => (position, cap)
    else table.overflowFrom recipient room proposals (added ++ [key]) (position + 1)

def firstOverflow (table : CovTable O) (recipient : CovRecipient)
    (proposals : List (CovSubscriptionKey × CovSubscription O)) : Option (ℕ × Cap) :=
  let (peerRoom, tableRoom) := table.room recipient
  table.overflowFrom recipient (min peerRoom tableRoom) proposals [] 0

def retainFirst : List (CovSubscriptionKey × CovSubscription O) → List CovSubscriptionKey →
    List (CovSubscriptionKey × CovSubscription O)
  | [], _ => []
  | (key, sub) :: proposals, keys =>
    if keys.contains key then retainFirst proposals keys
    else (key, sub) :: retainFirst proposals (keys ++ [key])

def retainFinal (proposals : List (CovSubscriptionKey × CovSubscription O)) :
    List (CovSubscriptionKey × CovSubscription O) :=
  (retainFirst proposals.reverse []).reverse

/-- The flight a context keeps after an admission, and the one it replaces. -/
def contextFlight (table : CovTable O) (context : MultipleContextKey) (route : SubscriberEndpoint)
    (listsReferences : Bool) (now : Instant) : (ℕ × Option ℕ) × CovTable O :=
  match (table.multipleContextReferences context).head? with
  | some entry =>
    if entry.endpoint = route ∧ (!listsReferences || table.flightIdle entry.flight now) then
      ((entry.flight, none), table)
    else
      let (flight, table) := table.newFlight
      ((flight, some entry.flight), table)
  | none =>
    let (flight, table) := table.newFlight
    ((flight, none), table)

/-- What a request makes of its whole context. -/
structure Refresh where
  context : MultipleContextKey
  route : SubscriberEndpoint
  expiresAt : Instant
  maxNotificationDelay : UInt32
  subscriberMaxApdu : Option UInt16
  flight : ℕ

def Refresh.entry (refresh : Refresh) (entry : CovSubscriptionSnapshot O) :
    CovSubscriptionSnapshot O :=
  if entry.key.multipleContext = some refresh.context then
    { entry with
      maxNotificationDelay := some refresh.maxNotificationDelay
      subscriberMaxApdu := refresh.subscriberMaxApdu
      flight := refresh.flight
      subscription :=
        { entry.subscription with
          expiresAt := some refresh.expiresAt
          subscriberMac := refresh.route.mac
          subscriberNetwork := refresh.route.network } }
  else entry

def refreshContext (table : CovTable O) (refresh : Refresh) : CovTable O :=
  let previouslyIndefinite :=
    (table.multipleContextReferences refresh.context).countP fun entry => entry.expiresAt.isNone
  { table with
    subs := table.subs.map refresh.entry
    peerIndefiniteCounts :=
      table.peerIndefiniteCounts.lower refresh.context.recipient previouslyIndefinite }

/-- Publish a request's kept proposals on the context's flight. -/
def publishEach (table : CovTable O) (refresh : Refresh) :
    List (CovSubscriptionKey × CovSubscription O) → ℕ →
      List (CovSubscriptionSnapshot O) × CovTable O
  | [], _ => ([], table)
  | (key, sub) :: proposals, generation =>
    let (snapshot, next) := table.publish key sub generation (some refresh.maxNotificationDelay)
      refresh.subscriberMaxApdu (some refresh.flight)
    let (others, last) := next.publishEach refresh proposals (generation + 1)
    (snapshot :: others, last)

/-- Forget the baseline of a kept untimestamped reference a fenced report carried. -/
def forget (context : MultipleContextKey) (carried listed : List CovSubscriptionKey)
    (entry : CovSubscriptionSnapshot O) : CovSubscriptionSnapshot O :=
  if entry.key.multipleContext = some context ∧ !entry.subscription.timestamped
      ∧ carried.contains entry.key ∧ !listed.contains entry.key then
    { entry with subscription := { entry.subscription with lastNotifiedObservation := none } }
  else entry

/-- Fence a flight a fresh one replaced, once the references `listed` are published. -/
def fenceContextFlight (table : CovTable O) (context : MultipleContextKey) (replaced : ℕ)
    (listed : List CovSubscriptionKey) (now : Instant) : CovTable O :=
  let table :=
    match (table.flights.get replaced).bind fun state => state.owedCarried now with
    | none => table
    | some carried =>
      let table := { table with subs := table.subs.map (forget context carried listed) }
      { table with
        fenced :=
          { table.fenced with
            revisit := table.fenced.revisit
              ++ (table.multipleContextReferences context).map CovSubscriptionSnapshot.key } }
  table.fenceFlight replaced

/-- The maximum APDU a request's references keep: its own, or the one the context had. -/
def keptMaxApdu (table : CovTable O) (context : MultipleContextKey) (advertised : Option UInt16) :
    Option UInt16 :=
  advertised.or <| (table.multipleContextReferences context).head?.bind (·.subscriberMaxApdu)

/-- Admit the kept `proposals` of a request and refresh its context. -/
def commitMultiple (table : CovTable O) (context : MultipleContextKey) (route : SubscriberEndpoint)
    (expiresAt : Instant) (maxNotificationDelay : UInt32) (subscriberMaxApdu : Option UInt16)
    (proposals : List (CovSubscriptionKey × CovSubscription O)) (generation : ℕ) (now : Instant) :
    List (CovSubscriptionSnapshot O) × CovTable O :=
  let ((flight, replaced), table) :=
    table.contextFlight context route (!proposals.isEmpty) now
  let refresh : Refresh :=
    ⟨context, route, expiresAt, maxNotificationDelay, table.keptMaxApdu context subscriberMaxApdu,
      flight⟩
  let table := (table.dueBy (some expiresAt)).refreshContext refresh
  let (accepted, table) := table.publishEach refresh proposals generation
  let table := { table with
    fenced := { table.fenced with contexts := table.fenced.contexts ++ [context] } }
  let table :=
    match replaced with
    | some replaced => table.fenceContextFlight context replaced (proposals.map (·.1)) now
    | none => table
  (accepted, table)

/-- The admission of a request's proposals, up to the first that does not fit. -/
def admitMultiple (table : CovTable O) (context : MultipleContextKey) (route : SubscriberEndpoint)
    (expiresAt : Instant) (maxNotificationDelay : UInt32) (subscriberMaxApdu : Option UInt16)
    (proposals : List (CovSubscriptionKey × CovSubscription O)) (now : Instant) :
    Except (MultipleRefusal O) (List (CovSubscriptionSnapshot O)) × CovTable O :=
  let kept := retainFinal proposals
  match table.reserveGenerations kept.length with
  | (.error refused, table) => (.error (.whole refused), table)
  | (.ok generation, table) =>
    let (accepted, table) := table.commitMultiple context route expiresAt maxNotificationDelay
      subscriberMaxApdu kept generation now
    (.ok accepted, table)

/-- `subscribe_multiple`. -/
def subscribeMultiple (table : CovTable O) (context : MultipleContextKey)
    (route : SubscriberEndpoint) (expiresAt : Instant) (maxNotificationDelay : UInt32)
    (subscriberMaxApdu : Option UInt16) (subscriptions : List (CovSubscription O)) (now : Instant) :
    Except (MultipleRefusal O) (List (CovSubscriptionSnapshot O)) × CovTable O :=
  let recipient := CovRecipient.fromEndpoint route.mac route.network
  match context.recipient.validate, recipient.validate with
  | .error refused, _ => (.error (.whole refused), table)
  | .ok _, .error refused => (.error (.whole refused), table)
  | .ok _, .ok _ =>
    if recipient ≠ context.recipient then
      (.error (.whole (.encoding "Multiple route does not match its recipient")), table)
    else
      match validateMultiple context route expiresAt subscriptions with
      | .error refused => (.error (.whole refused), table)
      | .ok proposals =>
        let table := (table.expire now).2
        match table.firstOverflow recipient proposals with
        | none =>
          table.admitMultiple context route expiresAt maxNotificationDelay subscriberMaxApdu
            proposals now
        | some (position, cap) =>
          let (error, table) := table.refuseNew cap
          if position = 0 then (.error ⟨error, some 0, []⟩, table)
          else
            match table.admitMultiple context route expiresAt maxNotificationDelay
              subscriberMaxApdu (proposals.take position) now with
            | (.error refused, table) => (.error refused, table)
            | (.ok accepted, table) => (.error ⟨error, some position, accepted⟩, table)

/-- A Multiple request leaves the table, or the expired one, whose counters may note a refusal, with
none of its references or some of them admitted. -/
theorem subscribeMultiple_cases {table after : CovTable O} {context : MultipleContextKey}
    {route : SubscriberEndpoint} {expiresAt : Instant} {maxNotificationDelay : UInt32}
    {subscriberMaxApdu : Option UInt16} {subscriptions : List (CovSubscription O)} {now : Instant}
    (h : (table.subscribeMultiple context route expiresAt maxNotificationDelay subscriberMaxApdu
      subscriptions now).2 = after) :
    after = table ∨ ∃ base,
      (base = (table.expire now).2 ∨ ∃ cap, base = ((table.expire now).2.refuseNew cap).2) ∧
      (after = base ∨ CovRecipient.fromEndpoint route.mac route.network = context.recipient ∧
        ∃ proposals all, validateMultiple context route expiresAt subscriptions = .ok all ∧
          (∀ proposal ∈ proposals, proposal ∈ all) ∧
          after = (base.admitMultiple context route expiresAt maxNotificationDelay
            subscriberMaxApdu proposals now).2) := by
  subst h
  unfold subscribeMultiple
  dsimp only
  split
  · exact .inl rfl
  · exact .inl rfl
  split_ifs with hroute
  · exact .inl rfl
  rw [not_not] at hroute
  split
  · exact .inl rfl
  rename_i all hall
  refine .inr ?_
  split
  · exact ⟨_, .inl rfl, .inr ⟨hroute, all, all, hall, fun _ h => h, rfl⟩⟩
  · rename_i position cap _
    refine ⟨_, .inr ⟨cap, rfl⟩, ?_⟩
    split_ifs
    · exact .inl rfl
    · refine .inr ⟨hroute, all.take position, all, hall, fun _ => List.mem_of_mem_take, ?_⟩
      generalize ((table.expire now).2.refuseNew cap).2.admitMultiple context route expiresAt
        maxNotificationDelay subscriberMaxApdu (all.take position) now = answer
      obtain ⟨answer, final⟩ := answer
      cases answer with
      | error refusal => rfl
      | ok accepted => rfl

end CovTable

end RustyBacnet.Cov
