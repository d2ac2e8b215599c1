import RustyBacnet.Cov.Commits

/-!
# Flights and contexts stay coherent

The references of a context share their terms: flight, route, expiry, delay and maximum APDU. No two
other entries are on one flight, every flight with a state is an entry's, and `nextDue` is no later
than any deadline. A Multiple admission that moves its context to a fresh flight leaves the old one
without an entry until it fences it, so the invariant exempts one flight.
-/

namespace RustyBacnet.Cov

open SortedArray (Sorted)

variable {O V L : Type}

/-- What the references of one context share. -/
structure Terms where
  flight : ℕ
  endpoint : SubscriberEndpoint
  expiresAt : Option Instant
  maxNotificationDelay : Option UInt32
  subscriberMaxApdu : Option UInt16

def CovSubscriptionSnapshot.terms (entry : CovSubscriptionSnapshot O) : Terms :=
  ⟨entry.flight, entry.endpoint, entry.expiresAt, entry.maxNotificationDelay,
    entry.subscriberMaxApdu⟩

theorem CovSubscriptionSnapshot.flight_of_terms {entry other : CovSubscriptionSnapshot O}
    (h : other.terms = entry.terms) : other.flight = entry.flight :=
  congrArg Terms.flight h

namespace CovTable

variable {table table' : CovTable O} {exempt : Option ℕ} {now : Instant}

/-- The two keys are references of one context. -/
def Akin (key other : CovSubscriptionKey) : Prop :=
  ∃ context, key.multipleContext = some context ∧ other.multipleContext = some context

variable {key : CovSubscriptionKey}

theorem Akin.symm {other : CovSubscriptionKey} (h : Akin key other) : Akin other key :=
  let ⟨context, hkey, hother⟩ := h
  ⟨context, hother, hkey⟩

/-- Flights and contexts are in order, but for the flight `exempt`. -/
structure Coherent (exempt : Option ℕ) (table : CovTable O) : Prop where
  terms : ∀ entry ∈ table.subs, ∀ other ∈ table.subs, Akin entry.key other.key →
    other.terms = entry.terms
  apart : ∀ entry ∈ table.subs, ∀ other ∈ table.subs, other.flight = entry.flight →
    other.key = entry.key ∨ Akin entry.key other.key
  owned : ∀ flight state, table.flights.get flight = some state → some flight ≠ exempt →
    ∃ entry ∈ table.subs, entry.flight = flight
  deadlines : ∀ flight state deadline, table.flights.get flight = some state →
    state.outstandingDeadline = some deadline → ∃ due, table.nextDue = some due ∧ due ≤ deadline

theorem coherent_new (id : ℕ) (policy : CovPolicy) : (new id policy : CovTable O).Coherent none where
  terms := fun _ h => absurd h List.not_mem_nil
  apart := fun _ h => absurd h List.not_mem_nil
  owned := fun _ _ h => nomatch h
  deadlines := fun _ _ _ h => nomatch h

/-! ## Flights -/

/-- No flight is new, and no deadline. -/
def Dwindles (flights flights' : VecMap ℕ (FlightState O)) : Prop :=
  ∀ flight state', flights'.get flight = some state' → ∃ state, flights.get flight = some state ∧
    ∀ deadline, state'.outstandingDeadline = some deadline →
      state.outstandingDeadline = some deadline

namespace Dwindles

variable {flights flights' flights'' : VecMap ℕ (FlightState O)}

theorem refl (flights : VecMap ℕ (FlightState O)) : Dwindles flights flights :=
  fun _ state' h => ⟨state', h, fun _ h => h⟩

theorem trans (h : Dwindles flights flights') (h' : Dwindles flights' flights'') :
    Dwindles flights flights'' := by
  intro flight state'' hstate''
  obtain ⟨state', hstate', hdeadline'⟩ := h' flight state'' hstate''
  obtain ⟨state, hstate, hdeadline⟩ := h flight state' hstate'
  exact ⟨state, hstate, fun deadline h => hdeadline deadline (hdeadline' deadline h)⟩

theorem remove (hs : Sorted Prod.fst flights) (flight : ℕ) :
    Dwindles flights (flights.remove flight) := by
  intro other state' hget
  rw [VecMap.get_remove hs] at hget
  split_ifs at hget
  exact ⟨state', hget, fun _ h => h⟩

variable {f : FlightState O → FlightState O}

theorem modify (hs : Sorted Prod.fst flights) (flight : ℕ)
    (hf : ∀ state deadline, (f state).outstandingDeadline = some deadline →
      state.outstandingDeadline = some deadline) : Dwindles flights (flights.modify flight f) := by
  intro other state' hget
  rw [VecMap.get_modify hs] at hget
  split_ifs at hget with hother
  · obtain ⟨state, hstate, rfl⟩ := Option.map_eq_some_iff.mp hget
    rw [hother]
    exact ⟨state, hstate, hf state⟩
  · exact ⟨state', hget, fun _ h => h⟩

theorem tidyFlight (hs : Sorted Prod.fst table.flights) (flight : ℕ) :
    Dwindles table.flights (table.tidyFlight flight).flights := by
  unfold CovTable.tidyFlight
  split_ifs
  · exact .remove hs flight
  · exact .refl _

theorem fenceFlight (hs : Sorted Prod.fst table.flights) (flight : ℕ) :
    Dwindles table.flights (table.fenceFlight flight).flights := by
  unfold CovTable.fenceFlight
  split
  · exact .refl _
  · exact .remove hs flight

theorem tidied (hs : Sorted Prod.fst table.flights) (flight : ℕ)
    (hf : ∀ state deadline, (f state).outstandingDeadline = some deadline →
      state.outstandingDeadline = some deadline) :
    Dwindles table.flights
      ({ table with flights := table.flights.modify flight f }.tidyFlight flight).flights := by
  have hsorted : Sorted Prod.fst { table with flights := table.flights.modify flight f }.flights :=
    VecMap.sorted_modify hs flight f
  exact (modify hs flight hf).trans (tidyFlight hsorted flight)

end Dwindles

/-! ## Steps that keep the terms -/

/-- The entries of both tables have the same keys and terms. -/
def SameTerms (table table' : CovTable O) : Prop :=
  table'.subs.map (fun entry => (entry.key, entry.terms))
    = table.subs.map (fun entry => (entry.key, entry.terms))

theorem SameTerms.mem {table table' : CovTable O} (h : SameTerms table table')
    {entry' : CovSubscriptionSnapshot O} (hentry' : entry' ∈ table'.subs) :
    ∃ entry ∈ table.subs, entry.key = entry'.key ∧ entry.terms = entry'.terms := by
  have hpair : (entry'.key, entry'.terms) ∈ table'.subs.map fun entry =>
      (entry.key, entry.terms) := List.mem_map_of_mem hentry'
  rw [h] at hpair
  obtain ⟨entry, hentry, hsame⟩ := List.mem_map.mp hpair
  exact ⟨entry, hentry, congrArg Prod.fst hsame, congrArg Prod.snd hsame⟩

/-- A step that keeps keys and terms, begins no report and notes no later time. -/
theorem Coherent.steady (h : table.Coherent exempt) (hsubs : SameTerms table table')
    (hflights : Dwindles table.flights table'.flights)
    (hdue : DueNoLater table.nextDue table'.nextDue) : table'.Coherent exempt where
  terms := by
    intro entry' hentry' other' hother' hakin
    obtain ⟨entry, hentry, hkey, hterms⟩ := hsubs.mem hentry'
    obtain ⟨other, hother, hkey', hterms'⟩ := hsubs.mem hother'
    rw [← hterms, ← hterms']
    rw [← hkey, ← hkey'] at hakin
    exact h.terms entry hentry other hother hakin
  apart := by
    intro entry' hentry' other' hother' hflight
    obtain ⟨entry, hentry, hkey, hterms⟩ := hsubs.mem hentry'
    obtain ⟨other, hother, hkey', hterms'⟩ := hsubs.mem hother'
    rw [← hkey, ← hkey']
    refine h.apart entry hentry other hother ?_
    rw [CovSubscriptionSnapshot.flight_of_terms hterms,
      CovSubscriptionSnapshot.flight_of_terms hterms', hflight]
  owned := by
    intro flight state' hstate' hexempt
    obtain ⟨state, hstate, _⟩ := hflights flight state' hstate'
    obtain ⟨entry, hentry, rfl⟩ := h.owned flight state hstate hexempt
    have hback : SameTerms table' table := hsubs.symm
    obtain ⟨entry', hentry', _, hterms⟩ := hback.mem hentry
    exact ⟨entry', hentry', CovSubscriptionSnapshot.flight_of_terms hterms⟩
  deadlines := by
    intro flight state' deadline hstate' hdeadline'
    obtain ⟨state, hstate, hdeadline⟩ := hflights flight state' hstate'
    obtain ⟨due, hdue', hle⟩ :=
      h.deadlines flight state deadline hstate (hdeadline deadline hdeadline')
    obtain ⟨due', hdue'', hle'⟩ := hdue due hdue'
    exact ⟨due', hdue'', le_trans hle' hle⟩

theorem Coherent.of_eq (h : table.Coherent exempt) (hsubs : table'.subs = table.subs)
    (hflights : table'.flights = table.flights)
    (hdue : DueNoLater table.nextDue table'.nextDue) : table'.Coherent exempt := by
  refine h.steady ?_ ?_ hdue
  · unfold SameTerms
    rw [hsubs]
  · rw [hflights]
    exact .refl _

/-! ## Removal -/

theorem coherent_abandon (hvalid : table.Valid) (h : table.Coherent exempt) (token : Token) :
    (table.abandon token).Coherent exempt := by
  have hsubs : (table.abandon token).subs = table.subs := by
    unfold abandon tidyFlight
    dsimp only
    split_ifs
    · rfl
    · rfl
  refine h.steady ?_ ?_ ?_
  · unfold SameTerms
    rw [hsubs]
  · exact .tidied hvalid.flightsSorted token.flight fun _ _ h => nomatch h
  · have hdue : (table.abandon token).nextDue = table.nextDue := by
      unfold abandon tidyFlight
      dsimp only
      split_ifs
      · rfl
      · rfl
    rw [hdue]
    exact .refl _

theorem coherent_endAbandoned (now : Instant) (hvalid : table.Valid) (h : table.Coherent exempt) :
    (table.endAbandoned now).Coherent exempt := by
  unfold endAbandoned
  generalize table.abandoned now = tokens
  induction tokens generalizing table with
  | nil => exact h
  | cons token tokens ih =>
    exact ih ((quiet_abandon now hvalid token).valid hvalid) (coherent_abandon hvalid h token)

/-- What removal makes of the flights: the removed entry's goes unless its context stays. -/
theorem removeInternal_flights (horder : table.Orderly) (wasCancelled : Bool)
    {sub : CovSubscriptionSnapshot O} (hsub : table.under key = some sub) :
    (table.removeInternal key wasCancelled).2.flights
      = if keepsFlight { table with subs := (SortedArray.remove (·.key) table.subs key).2 } key then
          table.flights
        else table.flights.remove sub.flight := by
  have hfirst := SortedArray.remove_fst horder.sorted key
  change _ = table.under key at hfirst
  rw [hsub] at hfirst
  unfold removeInternal
  generalize SortedArray.remove (·.key) table.subs key = removed at hfirst ⊢
  obtain ⟨old, rest⟩ := removed
  cases hfirst
  rfl

/-- Removal takes a context's flight away with its last reference only. -/
theorem coherent_removeInternal (hvalid : table.Valid) (h : table.Coherent exempt)
    (key : CovSubscriptionKey) (wasCancelled : Bool) :
    (table.removeInternal key wasCancelled).2.Coherent exempt := by
  cases hsub : table.under key with
  | none =>
    rw [removeInternal_none hsub hvalid.toOrderly]
    exact h
  | some sub =>
    have hmem : ∀ entry, entry ∈ (table.removeInternal key wasCancelled).2.subs
        ↔ entry ∈ table.subs ∧ entry.key ≠ key := fun _ => mem_removeInternal hvalid.toOrderly
    have hdue := (removeInternal_some wasCancelled hsub hvalid.toOrderly).2.2.2.2
    have hflights := removeInternal_flights hvalid.toOrderly wasCancelled hsub
    have hdwindles : Dwindles table.flights (table.removeInternal key wasCancelled).2.flights := by
      rw [hflights]
      split_ifs
      · exact .refl _
      · exact .remove hvalid.flightsSorted _
    refine ⟨?_, ?_, ?_, ?_⟩
    · exact fun entry hentry other hother =>
        h.terms entry ((hmem entry).mp hentry).1 other ((hmem other).mp hother).1
    · exact fun entry hentry other hother =>
        h.apart entry ((hmem entry).mp hentry).1 other ((hmem other).mp hother).1
    · intro flight state' hstate' hexempt
      obtain ⟨state, hstate, _⟩ := hdwindles flight state' hstate'
      obtain ⟨entry, hentry, rfl⟩ := h.owned flight state hstate hexempt
      by_cases hkey : entry.key = key
      · have hsame : entry = sub := by
          have hunder := hvalid.under_of_mem hentry
          rw [hkey, hsub] at hunder
          exact (Option.some.inj hunder).symm
        rw [hflights] at hstate'
        split_ifs at hstate' with hkeeps
        · -- another reference of the removed one's context is left, on the same flight
          unfold keepsFlight at hkeeps
          rw [Option.any_eq_true] at hkeeps
          obtain ⟨context, hcontext, hothers⟩ := hkeeps
          rw [Bool.not_eq_true', List.isEmpty_eq_false_iff] at hothers
          obtain ⟨other, hother⟩ := List.exists_mem_of_ne_nil _ hothers
          obtain ⟨hother, hsame'⟩ := List.mem_filter.mp hother
          obtain ⟨hother, hne⟩ := (mem_remove hvalid.sorted).mp hother
          refine ⟨other, (hmem other).mpr ⟨hother, hne⟩, ?_⟩
          refine CovSubscriptionSnapshot.flight_of_terms (h.terms entry hentry other hother ?_)
          exact ⟨context, hkey ▸ hcontext, beq_iff_eq.mp hsame'⟩
        · rw [VecMap.get_remove hvalid.flightsSorted, hsame, if_pos rfl] at hstate'
          cases hstate'
      · exact ⟨entry, (hmem entry).mpr ⟨hentry, hkey⟩, rfl⟩
    · intro flight state' deadline hstate' hdeadline
      obtain ⟨state, hstate, hsame⟩ := hdwindles flight state' hstate'
      rw [hdue]
      exact h.deadlines flight state deadline hstate (hsame deadline hdeadline)

theorem coherent_removeEach (now : Instant) (wasCancelled : Bool) (keys : List CovSubscriptionKey) :
    ∀ {table : CovTable O}, table.Valid → table.Coherent exempt →
      (table.removeEach wasCancelled keys).2.Coherent exempt := by
  induction keys with
  | nil => exact fun _ h => h
  | cons key keys ih =>
    intro table hvalid h
    exact ih ((quiet_removeInternal now hvalid key wasCancelled).valid hvalid)
      (coherent_removeInternal hvalid h key wasCancelled)

/-! ## Expiry -/

theorem deadlinesDue_le {flight : ℕ} {state : FlightState O} {deadline : Instant}
    (hstate : (flight, state) ∈ table.flights)
    (hdeadline : state.outstandingDeadline = some deadline) (due : Option Instant) :
    ∃ due', table.deadlinesDue due = some due' ∧ due' ≤ deadline := by
  refine foldl_due_le (fun due _ => dueNoLater_earliest due _) hstate (fun due => ?_) due
  rw [hdeadline]
  exact earliest_pair_le due

theorem coherent_purge (now : Instant) (hvalid : table.Valid) (h : table.Coherent exempt) :
    (table.purge now).2.Coherent exempt := by
  obtain ⟨counts, hpurge⟩ := purge_eq table now
  have hended := quiet_endAbandoned now hvalid
  have hvalid' := hended.valid hvalid
  have hremoved := coherent_removeEach now false
    (((table.endAbandoned now).subs.filter (isExpired now)).map (·.key)) hvalid'
    (coherent_endAbandoned now hvalid h)
  have hsorted := (quiet_removeEach now false
    (((table.endAbandoned now).subs.filter (isExpired now)).map (·.key)) hvalid').flightsSorted
  rw [hpurge]
  generalize ((table.endAbandoned now).removeEach false
    (((table.endAbandoned now).subs.filter (isExpired now)).map (·.key))).2 = last
    at hremoved hsorted ⊢
  refine ⟨hremoved.terms, hremoved.apart, hremoved.owned, ?_⟩
  intro flight state deadline hstate hdeadline
  exact deadlinesDue_le (VecMap.mem_of_get hsorted hstate) hdeadline _

theorem coherent_expire (now : Instant) (hvalid : table.Valid) (h : table.Coherent exempt) :
    (table.expire now).2.Coherent exempt := by
  unfold expire
  split_ifs
  · exact h
  · exact coherent_purge now hvalid h

theorem coherent_expireAll (now : Instant) (h : table.Coherent exempt) :
    (table.expireAll now).Coherent exempt := by
  have hsubs := (expireAll_fields table now).1
  have hflights : (table.expireAll now).flights = table.flights := by
    unfold expireAll
    dsimp only
    split_ifs
    · rfl
    · rfl
  have hdue : DueNoLater table.nextDue (table.expireAll now).nextDue := by
    unfold expireAll
    dsimp only
    split_ifs
    · exact dueNoLater_dueBy _ (some now)
    · exact .refl _
  refine ⟨?_, ?_, ?_, ?_⟩
  · intro entry hentry other hother hakin
    rw [hsubs] at hentry hother
    obtain ⟨old, hold, rfl⟩ := List.mem_map.mp hentry
    obtain ⟨old', hold', rfl⟩ := List.mem_map.mp hother
    have hterms := h.terms old hold old' hold' hakin
    exact congrArg (fun terms : Terms => { terms with expiresAt := some now }) hterms
  · intro entry hentry other hother hflight
    rw [hsubs] at hentry hother
    obtain ⟨old, hold, rfl⟩ := List.mem_map.mp hentry
    obtain ⟨old', hold', rfl⟩ := List.mem_map.mp hother
    exact h.apart old hold old' hold' hflight
  · intro flight state hstate hexempt
    rw [hflights] at hstate
    obtain ⟨entry, hentry, hflight⟩ := h.owned flight state hstate hexempt
    rw [hsubs]
    exact ⟨_, List.mem_map_of_mem hentry, hflight⟩
  · intro flight state deadline hstate hdeadline
    rw [hflights] at hstate
    obtain ⟨due, hbefore, hle⟩ := h.deadlines flight state deadline hstate hdeadline
    obtain ⟨due', hafter, hle'⟩ := hdue due hbefore
    exact ⟨due', hafter, le_trans hle' hle⟩

end CovTable

end RustyBacnet.Cov
