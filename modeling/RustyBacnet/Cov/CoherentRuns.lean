import RustyBacnet.Cov.CoherentAdmission

/-!
# Coherence over runs

Reports mark entries' flights and note their deadlines; everything else they do leaves terms and
flights alone. With the admissions, every call keeps the table coherent, and a skipped expiry pass is
one that would have found nothing.
-/

namespace RustyBacnet.Cov

open SortedArray (Sorted)

variable {O V L : Type}

namespace CovTable

variable {table table' : CovTable O} {exempt : Option ℕ} {now : Instant}

/-! ## Reports -/

theorem coherent_complete (h : table.Coherent exempt) (token : Token) (confirmed : Bool)
    (completion : Completion O) : (table.complete token confirmed completion now).2.Coherent exempt := by
  unfold complete
  split_ifs
  · exact h
  · exact h
  · refine h.steady ?_ (.refl _) (.refl _)
    apply SortedArray.map_modify
    exact fun _ => rfl

theorem coherent_completeEach (token : Token) (completions : List (Completion O)) :
    ∀ {table : CovTable O}, table.Coherent exempt →
      (table.completeEach token now completions).2.Coherent exempt := by
  induction completions with
  | nil => exact fun h => h
  | cons completion completions ih =>
    exact fun h => ih (coherent_complete h token true completion)

theorem coherent_completeObservation (h : table.Coherent exempt)
    (snapshot : CovSubscriptionSnapshot O) (prepared : PreparedCovCompletion) (value : O) :
    (table.completeObservation snapshot prepared value now).2.Coherent exempt := by
  unfold completeObservation
  split_ifs
  · exact h
  · dsimp only
    split_ifs
    · exact h
    · exact coherent_complete h _ _ _

theorem coherent_deliverUnconfirmed (h : table.Coherent exempt) {token : Token} {outcome : Delivery}
    {ended : CovTable O} (hended : table.deliverUnconfirmed token outcome now = some ended) :
    ended.Coherent exempt := by
  unfold deliverUnconfirmed at hended
  split at hended
  · cases hended
  rename_i index _
  have hpending : Coherent exempt { table with pending := swapRemove table.pending index } :=
    h.of_eq rfl rfl (.refl _)
  split_ifs at hended
  · obtain ⟨report, _, rfl⟩ := Option.map_eq_some_iff.mp hended
    exact coherent_complete hpending token false _
  · cases hended
    exact hpending

theorem coherent_settle (hsorted : Sorted Prod.fst table.flights) (h : table.Coherent exempt)
    (token : Token) (outcome : Delivery) : (table.settle token outcome now).Coherent exempt := by
  refine h.steady ?_ ?_ (alike_settle table token outcome now).nextDue
  · unfold SameTerms
    rw [(settle_rest table token outcome now).1]
  · refine .tidied hsorted token.flight ?_
    intro state deadline hdeadline
    cases outcome with
    | sent => cases hdeadline
    | acknowledged => cases hdeadline
    | failed => cases hdeadline
    | notSent => cases hdeadline

theorem completeEach_flights (token : Token) (completions : List (Completion O)) :
    ∀ {table : CovTable O}, table.Orderly →
      (table.completeEach token now completions).2.flights = table.flights := by
  intro table horder
  rw [(completed_completeEach token completions horder).rest]

theorem coherent_delivered (hvalid : table.Valid) (h : table.Coherent exempt) (token : Token)
    (outcome : Delivery) : (table.delivered token outcome now).2.Coherent exempt := by
  unfold delivered
  split
  · rename_i ended hended
    exact coherent_deliverUnconfirmed h hended
  split
  · exact h
  split_ifs
  · exact h
  have hsorted := VecMap.sorted_modify hvalid.flightsSorted token.flight
    fun state : FlightState O => { state with completes := [] }
  have htaken : Coherent exempt { table with
      flights := table.flights.modify token.flight fun state => { state with completes := [] } } := by
    refine h.steady rfl ?_ (.refl _)
    dsimp only
    exact Dwindles.modify hvalid.flightsSorted token.flight fun _ _ h => h
  have horder : Orderly { table with
      flights := table.flights.modify token.flight fun state => { state with completes := [] } } :=
    ⟨hvalid.sorted, hvalid.due⟩
  unfold endConfirmed
  split_ifs
  · refine coherent_settle ?_ (coherent_completeEach token _ htaken) token outcome
    rw [completeEach_flights token _ horder]
    exact hsorted
  · refine coherent_settle ?_ htaken token outcome
    exact hsorted

theorem coherent_takeOwedContext (hvalid : table.Valid) (h : table.Coherent exempt)
    (context : MultipleContextKey) : (table.takeOwedContext context now).2.Coherent exempt := by
  unfold takeOwedContext
  split
  · exact h
  split
  · exact h
  rename_i entry _
  split
  · exact h
  split
  · have hdue := (alike_tidyFlight table (table.flights.modify entry.flight fun state =>
      { state with holdUntil := none, carried := [] }) entry.flight).nextDue
    refine h.steady ?_ ?_ hdue
    · unfold SameTerms tidyFlight
      dsimp only
      split_ifs
      · rfl
      · rfl
    · exact .tidied hvalid.flightsSorted entry.flight fun _ _ h => h
  · exact h

/-- A report is marked on an entry's flight, and its deadline is noted. -/
theorem coherent_markOutstanding (hvalid : table.Valid) (h : table.Coherent exempt)
    {flight ticket : ℕ} (hflown : table.Flown ⟨flight, ticket⟩) (carried : Carried O) :
    (table.markOutstanding flight ticket carried now).Coherent exempt := by
  have hflights : (table.markOutstanding flight ticket carried now).flights
      = table.flights.orDefault flight fun state =>
        { state with
          ticket
          deadline := some (satAdd now table.timing.deadline)
          carried := carried.keys
          completes := carried.completes } := rfl
  have hnext : (table.markOutstanding flight ticket carried now).nextDue
      = earliest [table.nextDue, some (satAdd now table.timing.deadline)] := rfl
  refine ⟨h.terms, h.apart, ?_, ?_⟩
  · intro other state hstate hexempt
    rw [hflights, VecMap.get_orDefault hvalid.flightsSorted] at hstate
    split_ifs at hstate with hother
    · rw [hother]
      exact hflown
    · exact h.owned other state hstate hexempt
  · intro other state deadline hstate hdeadline
    rw [hflights, VecMap.get_orDefault hvalid.flightsSorted] at hstate
    rw [hnext]
    split_ifs at hstate with hother
    · cases hstate
      apply earliest_le
      unfold FlightState.outstandingDeadline at hdeadline
      rw [Option.filter_eq_some_iff] at hdeadline
      rw [← hdeadline.1]
      simp
    · obtain ⟨due, hdue, hle⟩ := h.deadlines other state deadline hstate hdeadline
      obtain ⟨due', hdue', hle'⟩ := dueNoLater_earliest table.nextDue _ due hdue
      exact ⟨due', hdue', le_trans hle' hle⟩

theorem coherent_beginConfirmed (hvalid : table.Valid) (h : table.Coherent exempt)
    (prepared : PreparedCovCompletion) (references : List (CovSubscriptionSnapshot O × O)) :
    (table.beginConfirmed prepared references now).2.Coherent exempt := by
  rcases beginConfirmed_cases hvalid prepared references with
    hsame | ⟨flight, ticket, carried, _, hbegun, _, _, hflown⟩
  · rw [hsame]
    exact h
  · rw [hbegun]
    exact coherent_markOutstanding hvalid h hflown carried

theorem coherent_prepareCompletion (h : table.Coherent exempt)
    (snapshot : CovSubscriptionSnapshot O) :
    (table.prepareCompletion snapshot).2.Coherent exempt := by
  unfold prepareCompletion
  split
  · exact h
  · exact h.of_eq rfl rfl (.refl _)

theorem coherent_evaluateOne (hvalid : table.Valid) (h : table.Coherent exempt)
    (sources : Sources O V L) (budget : EventBudget) (index : ℕ) (sub : CovSubscriptionSnapshot O) :
    (table.evaluateOne sources now budget index sub).2.2.Coherent exempt := by
  have hthrottle : ∀ {table : CovTable O}, table.Coherent exempt → table.throttle.Coherent exempt :=
    fun h => h.of_eq rfl rfl (.refl _)
  unfold evaluateOne
  split_ifs
  · exact h
  · exact hthrottle h
  split
  · exact h
  rename_i params observation lease _
  have hprepared := coherent_prepareCompletion h sub
  have hvalid' := (quiet_prepareCompletion now hvalid sub).1.valid hvalid
  split
  · rename_i ready hready
    rw [hready] at hprepared
    exact hprepared
  rename_i prepared ready hready
  rw [hready] at hprepared hvalid'
  dsimp only at hprepared hvalid' ⊢
  split
  · exact hthrottle hprepared
  have hbegun : (ready.beginReport prepared sub observation now).2.Coherent exempt := by
    unfold beginReport
    cases prepared with
    | confirmed ticket =>
      have hconfirmed : (ready.beginConfirmed (.confirmed ticket) [(sub, observation)]
          now).2.Coherent exempt := coherent_beginConfirmed hvalid' hprepared _ _
      dsimp only
      split
      · rename_i token final hfinal
        rw [hfinal] at hconfirmed
        exact hconfirmed
      · rename_i refused final hfinal
        rw [hfinal] at hconfirmed
        exact hconfirmed
    | unconfirmed ticket => exact hprepared.of_eq rfl rfl (.refl _)
  split
  · rename_i final hfinal
    rw [hfinal] at hbegun
    exact hbegun
  · rename_i token final hfinal
    rw [hfinal] at hbegun
    exact hbegun

theorem coherent_evaluateFrom (sources : Sources O V L) (now : Instant)
    (subs : List (CovSubscriptionSnapshot O)) :
    ∀ {table : CovTable O} (budget : EventBudget) (index : ℕ), table.Valid →
      table.Coherent exempt →
      (table.evaluateFrom sources now budget index subs).2.2.Coherent exempt := by
  induction subs with
  | nil => exact fun _ _ _ h => h
  | cons sub subs ih =>
    intro table budget index hvalid h
    have hstep : Evolves now (evaluateEffects now table.timing.deadline fun _ _ _ => True) table
        (table.evaluateOne sources now budget index sub).2.2 ∧ _ :=
      evolves_evaluateOne hvalid sources budget index sub fun _ _ _ _ _ _ _ _ => trivial
    exact ih _ (index + 1) (hstep.1.valid hvalid) (coherent_evaluateOne hvalid h _ _ _ _)

theorem coherent_evaluate (hvalid : table.Valid) (h : table.Coherent exempt)
    (subs : List (CovSubscriptionSnapshot O)) (sources : Sources O V L) (budget : EventBudget) :
    (table.evaluate subs sources budget now).2.2.Coherent exempt := by
  unfold evaluate
  split_ifs
  · exact h
  · exact coherent_evaluateFrom sources now subs budget 0
      ((quiet_prunePending now hvalid).valid hvalid) (h.of_eq rfl rfl (.refl _))

/-! ## Every run -/

theorem coherent_perform (hvalid : table.Valid) (h : table.Coherent none) (op : Op O V L) :
    (table.perform op).Coherent none := by
  cases op with
  | subscribe sub now => exact coherent_subscribe hvalid h sub
  | subscribeMultiple context route expiresAt delay maxApdu subscriptions now =>
    exact coherent_subscribeMultiple hvalid h context route expiresAt delay maxApdu subscriptions
  | unsubscribe key => exact coherent_removeInternal hvalid h key true
  | unsubscribeCovMultipleContext context => exact coherent_removeEach 0 true _ hvalid h
  | removeForObject oid => exact coherent_removeEach 0 false _ hvalid h
  | removePeerSubscriptions mac network => exact coherent_removeEach 0 true _ hvalid h
  | expire now => exact coherent_expire now hvalid h
  | expireAll now => exact coherent_expireAll now h
  | subscriptionsFor oid now => exact coherent_expire now hvalid h
  | evaluate subs sources budget now => exact coherent_evaluate hvalid h subs sources budget
  | prepareCompletion snapshot => exact coherent_prepareCompletion h snapshot
  | beginConfirmed prepared references now =>
    exact coherent_beginConfirmed hvalid h prepared references
  | delivered token outcome now => exact coherent_delivered hvalid h token outcome
  | completeObservation snapshot prepared value now =>
    exact coherent_completeObservation h snapshot prepared value
  | takeOwedContext context now => exact coherent_takeOwedContext hvalid h context
  | takeCounts => exact h.of_eq rfl rfl (.refl _)
  | takeFenced => exact h.of_eq rfl rfl (.refl _)
  | withFlightTiming timing => exact h.of_eq rfl rfl (.refl _)

theorem coherent_performAll (ops : List (Op O V L)) :
    ∀ {table : CovTable O}, table.Valid → table.Coherent none →
      (table.performAll ops).Coherent none := by
  induction ops with
  | nil => exact fun _ h => h
  | cons op ops ih =>
    exact fun hvalid h => ih (valid_perform hvalid op) (coherent_perform hvalid h op)

/-- A pass that is skipped would have found nothing. -/
theorem expire_eq_purge (hvalid : table.Valid) (h : table.Coherent exempt) (now : Instant) :
    (table.expire now).1 = (table.purge now).1 ∧ (table.expire now).2
      = { (table.purge now).2 with nextDue := (table.expire now).2.nextDue } := by
  unfold expire
  split_ifs with hearly
  · have hlate : ∀ due time, table.nextDue = some due → due ≤ time → now < time := by
      intro due time hdue hle
      rw [hdue, Option.all_some, decide_eq_true_eq] at hearly
      exact lt_of_lt_of_le hearly hle
    have hended : table.endAbandoned now = table := by
      have hnone : table.abandoned now = [] := by
        unfold abandoned
        rw [List.map_eq_nil_iff, List.filter_eq_nil_iff]
        rintro ⟨flight, state⟩ hmem hover
        rw [Bool.and_eq_true, bne_iff_ne, Bool.not_eq_true'] at hover
        obtain ⟨hticket, hover⟩ := hover
        unfold FlightState.outstanding at hover
        cases hdeadline : state.deadline with
        | none => simp [hticket, hdeadline] at hover
        | some deadline =>
          obtain ⟨due, hdue, hle⟩ := h.deadlines flight state deadline
            (VecMap.get_of_mem hvalid.flightsSorted hmem)
            (by simp [FlightState.outstandingDeadline, hdeadline, hticket])
          have hbefore := hlate due deadline hdue hle
          simp [hticket, hdeadline, hbefore] at hover
      unfold endAbandoned
      rw [hnone]
      rfl
    have hlive : table.subs.filter (isExpired now) = [] := by
      rw [List.filter_eq_nil_iff]
      intro entry hentry hexpired
      obtain ⟨expires, hexpires, hreached⟩ := isExpired_iff.mp hexpired
      obtain ⟨due, hdue, hle⟩ := hvalid.due entry hentry expires hexpires
      exact absurd (hlate due expires hdue hle) (Nat.not_lt.mpr hreached)
    unfold purge
    rw [hended]
    dsimp only
    rw [hlive]
    exact ⟨rfl, rfl⟩
  · exact ⟨rfl, rfl⟩

/-- In every reached table contexts share their terms and nobody else's flight, every flight with a
state is an entry's, nothing is due before `nextDue`, and `expire` does what a full pass does. -/
theorem cov_flights_coherent (id : ℕ) (policy : CovPolicy) (ops : List (Op O V L)) :
    let table : CovTable O := (new id policy).performAll ops
    (∀ entry ∈ table.subs, ∀ other ∈ table.subs, ∀ context,
      entry.key.multipleContext = some context → other.key.multipleContext = some context →
      other.flight = entry.flight ∧ other.endpoint = entry.endpoint ∧
        other.expiresAt = entry.expiresAt ∧
        other.maxNotificationDelay = entry.maxNotificationDelay ∧
        other.subscriberMaxApdu = entry.subscriberMaxApdu) ∧
    (∀ entry ∈ table.subs, ∀ other ∈ table.subs, other.flight = entry.flight → other ≠ entry →
      ∃ context, entry.key.multipleContext = some context ∧
        other.key.multipleContext = some context) ∧
    (∀ pair ∈ table.flights, ∃ entry ∈ table.subs, entry.flight = pair.1) ∧
    (∀ entry ∈ table.subs, ∀ expires, entry.expiresAt = some expires →
      ∃ due, table.nextDue = some due ∧ due ≤ expires) ∧
    (∀ pair ∈ table.flights, ∀ deadline, pair.2.outstandingDeadline = some deadline →
      ∃ due, table.nextDue = some due ∧ due ≤ deadline) ∧
    ∀ now, (table.expire now).1 = (table.purge now).1 ∧ (table.expire now).2
      = { (table.purge now).2 with nextDue := (table.expire now).2.nextDue } := by
  intro table
  have hvalid : table.Valid := valid_performAll ops (valid_new id policy)
  have h : table.Coherent none :=
    coherent_performAll ops (valid_new id policy) (coherent_new id policy)
  refine ⟨?_, ?_, ?_, hvalid.due, ?_, expire_eq_purge hvalid h⟩
  · intro entry hentry other hother context hmine hmine'
    have hterms := h.terms entry hentry other hother ⟨context, hmine, hmine'⟩
    exact ⟨congrArg Terms.flight hterms, congrArg Terms.endpoint hterms,
      congrArg Terms.expiresAt hterms, congrArg Terms.maxNotificationDelay hterms,
      congrArg Terms.subscriberMaxApdu hterms⟩
  · intro entry hentry other hother hflight hne
    rcases h.apart entry hentry other hother hflight with hkey | hakin
    · have hunder := hvalid.under_of_mem hother
      rw [hkey, hvalid.under_of_mem hentry] at hunder
      exact absurd (Option.some.inj hunder).symm hne
    · exact hakin
  · rintro ⟨flight, state⟩ hpair
    exact h.owned flight state (VecMap.get_of_mem hvalid.flightsSorted hpair) (by simp)
  · rintro ⟨flight, state⟩ hpair deadline hdeadline
    exact h.deadlines flight state deadline (VecMap.get_of_mem hvalid.flightsSorted hpair) hdeadline

end CovTable

end RustyBacnet.Cov
