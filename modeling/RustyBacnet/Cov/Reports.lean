import RustyBacnet.Cov.Admission

/-!
# Reports and their ends

A report takes a ticket (`prepareCompletion`), is begun on its coordinate's flight
(`beginConfirmed`) or left pending (`beginUnconfirmed`), and ends through `delivered`. The only
writer of a baseline is `complete`. `evaluate` runs all of this for one change of an object; what the
object's values say for each subscription, how a notification is encoded and what the host's
admission answers are its inputs.
-/

namespace RustyBacnet.Cov

variable {O : Type}

namespace CovTable

/-! ## Completion -/

/-- The next ticket, for `snapshot`'s observation. -/
def prepareCompletion (table : CovTable O) (snapshot : CovSubscriptionSnapshot O) :
    Option PreparedCovCompletion × CovTable O :=
  if table.issued + 1 > maxSerial then (none, table)
  else
    let ticket := table.issued + 1
    (some (if snapshot.subscription.issueConfirmedNotifications then .confirmed ticket
        else .unconfirmed ticket),
      { table with issued := ticket })

/-- Whether `completion`'s entry is live and has completed no ticket from `token` on. -/
def mayComplete (table : CovTable O) (token : Token) (completion : Completion O)
    (now : Instant) : Bool :=
  (table.get completion.key).any fun entry =>
    entry.generation == completion.generation && entry.flight == token.flight
      && decide (token.ticket > entry.lastSuccessfulTicket)
      && (CovTimeRemaining.at_ entry.expiresAt now).wireSeconds.isSome

def commitEntry (ticket : ℕ) (observation : O) (entry : CovSubscriptionSnapshot O) :
    CovSubscriptionSnapshot O :=
  { entry with
    lastSuccessfulTicket := ticket
    subscription := { entry.subscription with lastNotifiedObservation := some observation } }

def complete (table : CovTable O) (token : Token) (confirmed : Bool) (completion : Completion O)
    (now : Instant) : Bool × CovTable O :=
  if !table.mayComplete token completion now then (false, table)
  else if confirmed && !table.flightHolds token.flight token.ticket now then (false, table)
  else
    (true, { table with
      subs := SortedArray.modify (·.key) table.subs completion.key
        (commitEntry token.ticket completion.observation) })

/-- The host's own commit of an observation it delivered. -/
def completeObservation (table : CovTable O) (snapshot : CovSubscriptionSnapshot O)
    (completion : PreparedCovCompletion) (value : O) (now : Instant) : Bool × CovTable O :=
  if table.id != snapshot.table then (false, table)
  else
    let (confirmed, ticket) :=
      match completion with
      | .confirmed ticket => (true, ticket)
      | .unconfirmed ticket => (false, ticket)
    if confirmed != snapshot.subscription.issueConfirmedNotifications then (false, table)
    else table.complete ⟨snapshot.flight, ticket⟩ confirmed (.new snapshot value) now

/-- Let go of the pending reports that can no longer complete. -/
def prunePending (table : CovTable O) (now : Instant) : CovTable O :=
  { table with
    pending := table.pending.filter fun report =>
      table.mayComplete report.token report.completion now }

def beginUnconfirmed (table : CovTable O) (ticket : ℕ) (snapshot : CovSubscriptionSnapshot O)
    (observation : O) : Token × CovTable O :=
  let token := ⟨snapshot.flight, ticket⟩
  (token, { table with pending := table.pending ++ [⟨token, .new snapshot observation⟩] })

/-- `Vec::swap_remove`: the last element takes the place of the one removed. -/
def swapRemove {α : Type} (xs : List α) (index : ℕ) : List α :=
  match xs.getLast? with
  | none => xs
  | some last => (xs.set index last).dropLast

/-- End the unconfirmed report `token` names; none when there is no such report. -/
def deliverUnconfirmed (table : CovTable O) (token : Token) (outcome : Delivery) (now : Instant) :
    Option (CovTable O) :=
  match table.pending.findIdx? fun report => report.token == token with
  | none => none
  | some index =>
    let ended := { table with pending := swapRemove table.pending index }
    if outcome = .sent then
      table.pending[index]?.map fun report => (ended.complete token false report.completion now).2
    else some ended

/-! ## Confirmed reports -/

def confirmedIdle (table : CovTable O) (snapshot : CovSubscriptionSnapshot O) (now : Instant) :
    Bool :=
  if !snapshot.subscription.issueConfirmedNotifications then true
  else
    (table.liveEntry snapshot).all fun entry =>
      table.flightIdle entry.flight now
        && entry.lastSuccessfulTicket == snapshot.lastSuccessfulTicket

/-- What the references of one report carry: its flight, their keys and their observations. -/
structure Carried (O : Type) where
  flight : Option ℕ := none
  keys : List CovSubscriptionKey := []
  completes : List (Completion O) := []

/-- The references of a report, each checked to be current and idle. -/
def gather (table : CovTable O) (now : Instant) :
    List (CovSubscriptionSnapshot O × O) → Carried O → Except BeginRefusal (Carried O)
  | [], carried => .ok carried
  | (snapshot, observation) :: references, carried =>
    if !table.isCurrent snapshot now then .error .notCurrent
    else if !table.confirmedIdle snapshot now then .error .busy
    else
      match table.get snapshot.key with
      | none => .error .notCurrent
      | some current =>
        table.gather now references
          { flight := carried.flight.or (some current.flight)
            keys :=
              if carried.keys.contains snapshot.key then carried.keys
              else carried.keys ++ [snapshot.key]
            completes := carried.completes ++ [.new snapshot observation] }

/-- Mark a report outstanding on `flight`. -/
def markOutstanding (table : CovTable O) (flight ticket : ℕ) (carried : Carried O)
    (now : Instant) : CovTable O :=
  let deadline := satAdd now table.timing.deadline
  let marked := ((table.flights.get flight).map (·.ticket)).getD 0
  let table := { table with
    fenced :=
      if marked != 0 then
        { table.fenced with tokens := table.fenced.tokens ++ [Token.mk flight marked] }
      else table.fenced
    flights := table.flights.orDefault flight fun state =>
      { state with
        ticket
        deadline := some deadline
        carried := carried.keys
        completes := carried.completes } }
  table.dueBy (some deadline)

def beginConfirmed (table : CovTable O) (completion : PreparedCovCompletion)
    (references : List (CovSubscriptionSnapshot O × O)) (now : Instant) :
    Except BeginRefusal Token × CovTable O :=
  match completion with
  | .unconfirmed _ => (.error .busy, table)
  | .confirmed ticket =>
    match table.gather now references {} with
    | .error refused => (.error refused, table)
    | .ok carried =>
      match carried.flight with
      | none => (.error .notCurrent, table)
      | some flight => (.ok ⟨flight, ticket⟩, table.markOutstanding flight ticket carried now)

/-- Commit each completion in turn, and the keys of those that were. -/
def completeEach (table : CovTable O) (token : Token) (now : Instant) :
    List (Completion O) → List CovSubscriptionKey × CovTable O
  | [] => ([], table)
  | completion :: completions =>
    let (committed, next) := table.complete token true completion now
    let (others, last) := next.completeEach token now completions
    (if committed then completion.key :: others else others, last)

def settle (table : CovTable O) (token : Token) (outcome : Delivery) (now : Instant) : CovTable O :=
  let table := { table with
    flights := table.flights.modify token.flight fun state =>
      match outcome with
      | .failed =>
        { state with
          ticket := 0, deadline := none, holdUntil := some (satAdd now table.timing.holdOff) }
      | _ => { state with ticket := 0, deadline := none, holdUntil := none, carried := [] } }
  table.tidyFlight token.flight

/-- The references an acknowledged report owes a fresh look. -/
def owedKeys (table : CovTable O) (completes : List (Completion O))
    (completed : List CovSubscriptionKey) : List CovSubscriptionKey :=
  match completes.head?.bind fun completion => completion.key.multipleContext with
  | some context => (table.multipleContextReferences context).map (·.key)
  | none => completed

/-- End the confirmed report `token` names, which holds its flight. -/
def endConfirmed (table : CovTable O) (state : FlightState O) (token : Token) (outcome : Delivery)
    (now : Instant) : List CovSubscriptionKey × CovTable O :=
  let taken := { table with
    flights := table.flights.modify token.flight fun state => { state with completes := [] } }
  if outcome = .acknowledged then
    let (completed, committed) := taken.completeEach token now state.completes
    (committed.owedKeys state.completes completed, committed.settle token outcome now)
  else ([], taken.settle token outcome now)

def delivered (table : CovTable O) (token : Token) (outcome : Delivery) (now : Instant) :
    List CovSubscriptionKey × CovTable O :=
  match table.deliverUnconfirmed token outcome now with
  | some ended => ([], ended)
  | none =>
    match table.flights.get token.flight with
    | none => ([], table)
    | some state =>
      if state.ticket ≠ token.ticket ∨ !state.outstanding now ∨ outcome = .sent then ([], table)
      else table.endConfirmed state token outcome now

/-- Take the follow-up a failed report of an idle context owes. -/
def takeOwedContext (table : CovTable O) (context : MultipleContextKey) (now : Instant) :
    Bool × CovTable O :=
  if !context.confirmed then (false, table)
  else
    match (table.multipleContextReferences context).head? with
    | none => (false, table)
    | some entry =>
      match table.flights.get entry.flight with
      | none => (false, table)
      | some state =>
        if !state.outstanding now && state.holdUntil.any fun until_ => now ≥ until_ then
          let table := { table with
            flights := table.flights.modify entry.flight fun state =>
              { state with holdUntil := none, carried := [] } }
          (true, table.tidyFlight entry.flight)
        else (false, table)

end CovTable

/-! ## Evaluation -/

def headerOctets (confirmed : Bool) : ℕ := if confirmed then 4 else 2

/-- What an evaluation is given besides the table and the subscriptions: the values and the
observation the object decides on for the subscription at an index, the notification's encoder, and
the host's answer to a report of so many octets. -/
structure Sources (O V L : Type) where
  decided : ℕ → Option (V × O)
  encode : CovSubscription O → ℕ → V → Option (List UInt8)
  admit_ : ℕ → ℕ → Option L

/-- One notification to send. -/
structure CovReport (L : Type) where
  index : ℕ
  params : List UInt8
  token : Token
  lease : L

variable {V L : Type}

namespace CovTable

def throttle (table : CovTable O) : CovTable O :=
  let counts := table.counts
  { table with
    counts :=
      { counts with notificationsThrottledFanout := counts.notificationsThrottledFanout + 1 } }

def beginReport (table : CovTable O) (completion : PreparedCovCompletion)
    (sub : CovSubscriptionSnapshot O) (observation : O) (now : Instant) :
    Option Token × CovTable O :=
  match completion with
  | .confirmed _ =>
    match table.beginConfirmed completion [(sub, observation)] now with
    | (.ok token, table) => (some token, table)
    | (.error _, table) => (none, table)
  | .unconfirmed ticket =>
    let (token, table) := table.beginUnconfirmed ticket sub observation
    (some token, table)

/-- One subscription's turn, up to its ticket: the notification, its observation and its lease. -/
def admitted (table : CovTable O) (sources : Sources O V L) (now : Instant) (index : ℕ)
    (sub : CovSubscriptionSnapshot O) : Option (List UInt8 × O × L) :=
  match sources.decided index with
  | none => none
  | some (values, observation) =>
    match (table.remainingLifetime sub now).bind CovTimeRemaining.wireSeconds with
    | none => none
    | some seconds =>
      match sources.encode sub.subscription seconds values with
      | none => none
      | some params =>
        let octets := params.length + headerOctets sub.subscription.issueConfirmedNotifications
        (sources.admit_ index octets).map fun lease => (params, observation, lease)

/-- Whether one subscription's turn reaches the budget: it has something to report, time left and no
report outstanding. -/
def reaches (table : CovTable O) (sources : Sources O V L) (now : Instant) (index : ℕ)
    (sub : CovSubscriptionSnapshot O) : Bool :=
  (sources.decided index).isSome && table.isCurrent sub now && table.confirmedIdle sub now

def evaluateOne (table : CovTable O) (sources : Sources O V L) (now : Instant)
    (budget : EventBudget) (index : ℕ) (sub : CovSubscriptionSnapshot O) :
    Option (CovReport L) × EventBudget × CovTable O :=
  if !table.reaches sources now index sub then (none, budget, table)
  else if budget.isExhausted then (none, budget, table.throttle)
  else
    match table.admitted sources now index sub with
    | none => (none, budget, table)
    | some (params, observation, lease) =>
      match table.prepareCompletion sub with
      | (none, table) => (none, budget, table)
      | (some completion, table) =>
        let octets := params.length + headerOctets sub.subscription.issueConfirmedNotifications
        match budget.tryConsume octets with
        | none => (none, budget, table.throttle)
        | some spent =>
          match table.beginReport completion sub observation now with
          | (none, table) => (none, spent.refund octets, table)
          | (some token, table) => (some ⟨index, params, token, lease⟩, spent, table)

def evaluateFrom (table : CovTable O) (sources : Sources O V L) (now : Instant) :
    EventBudget → ℕ → List (CovSubscriptionSnapshot O) →
      List (CovReport L) × EventBudget × CovTable O
  | budget, _, [] => ([], budget, table)
  | budget, index, sub :: subs =>
    let (report, budget, next) := table.evaluateOne sources now budget index sub
    let (reports, budget, last) := next.evaluateFrom sources now budget (index + 1) subs
    (report.toList ++ reports, budget, last)

def evaluate (table : CovTable O) (subscriptions : List (CovSubscriptionSnapshot O))
    (sources : Sources O V L) (budget : EventBudget) (now : Instant) :
    List (CovReport L) × EventBudget × CovTable O :=
  if budget.isExhausted then ([], budget, table)
  else (table.prunePending now).evaluateFrom sources now budget 0 subscriptions

end CovTable

end RustyBacnet.Cov
