import RustyBacnet.Cov.Accounting

/-!
# What one call can do

`Evolves` says once what a call may make of the entries, the flights and the pending reports. An
entry that is there afterwards is fresh, under a generation and with no ticket of its own, or it was
there before under the same generation; a marked flight was marked before or is one of the call's own
(`Effects.marks`), and so is a pending report; a baseline moves only by one of the call's commits.
The relation composes, so each function of the table is followed step by step.
-/

namespace RustyBacnet.Cov

open SortedArray (Sorted)

variable {O : Type}

def CovSubscriptionSnapshot.baseline (entry : CovSubscriptionSnapshot O) : Option O :=
  entry.subscription.lastNotifiedObservation

namespace CovTable

/-- What a call does besides ending things: the generations it publishes under, the flights it opens,
the reports it marks on flights and leaves pending, the observations it commits to an entry under a
ticket, and whether it forgets baselines. -/
structure Effects (O : Type) where
  fresh : ℕ → Prop
  opens : ℕ → Prop
  marks : Token → Option Instant → List (Completion O) → Prop
  sends : Pending O → Prop
  commits : CovSubscriptionSnapshot O → ℕ → O → Prop
  forgets : Prop

def Effects.none : Effects O :=
  ⟨fun _ => False, fun _ => False, fun _ _ _ => False, fun _ => False, fun _ _ _ => False, False⟩

/-- Entries published past the generations and flights of a table. -/
def Effects.publishing (table : CovTable O) (forgets : Prop) : Effects O :=
  { Effects.none with
    fresh := (table.generation < ·)
    opens := (table.nextFlight < ·)
    forgets }

/-- The effects of `E` are among those of `E'`. -/
structure Effects.Le (E E' : Effects O) : Prop where
  fresh : ∀ generation, E.fresh generation → E'.fresh generation
  opens : ∀ flight, E.opens flight → E'.opens flight
  marks : ∀ token deadline completes, E.marks token deadline completes →
    E'.marks token deadline completes
  sends : ∀ report, E.sends report → E'.sends report
  commits : ∀ entry ticket observation, E.commits entry ticket observation →
    E'.commits entry ticket observation
  forgets : E.forgets → E'.forgets

theorem Effects.none_le (E : Effects O) : Effects.none.Le E :=
  ⟨fun _ h => h.elim, fun _ h => h.elim, fun _ _ _ h => h.elim, fun _ h => h.elim,
    fun _ _ _ h => h.elim, fun h => h.elim⟩

/-- The two states mark the same report. -/
structure SameReport (state state' : FlightState O) : Prop where
  ticket : state'.ticket = state.ticket
  deadline : state'.deadline = state.deadline
  completes : state'.completes = state.completes

/-- Every report marked in `flights'` is one of `flights` or new. -/
def Ends (marks : Token → Option Instant → List (Completion O) → Prop)
    (flights flights' : VecMap ℕ (FlightState O)) : Prop :=
  ∀ flight state', flights'.get flight = some state' → state'.ticket ≠ 0 →
    (∃ state, flights.get flight = some state ∧ SameReport state state') ∨
      marks ⟨flight, state'.ticket⟩ state'.deadline state'.completes

namespace Ends

variable {marks : Token → Option Instant → List (Completion O) → Prop}
  {flights flights' : VecMap ℕ (FlightState O)}

theorem refl (flights : VecMap ℕ (FlightState O)) : Ends marks flights flights :=
  fun _ state' h _ => .inl ⟨state', h, rfl, rfl, rfl⟩

theorem remove (hs : Sorted Prod.fst flights) (flight : ℕ) :
    Ends marks flights (flights.remove flight) := by
  intro other state' hget _
  rw [VecMap.get_remove hs] at hget
  split_ifs at hget
  exact .inl ⟨state', hget, rfl, rfl, rfl⟩

theorem modify (hs : Sorted Prod.fst flights) (flight : ℕ) {f : FlightState O → FlightState O}
    (hf : ∀ state, (f state).ticket ≠ 0 → SameReport state (f state)) :
    Ends marks flights (flights.modify flight f) := by
  intro other state' hget hticket
  rw [VecMap.get_modify hs] at hget
  split_ifs at hget with hother
  · obtain ⟨state, hstate, rfl⟩ := Option.map_eq_some_iff.mp hget
    exact .inl ⟨state, by rw [hother]; exact hstate, hf state hticket⟩
  · exact .inl ⟨state', hget, rfl, rfl, rfl⟩

end Ends

/-! ## The relation -/

/-- The references of one context are on one flight. -/
def Shared (table : CovTable O) : Prop :=
  ∀ entry ∈ table.subs, ∀ other ∈ table.subs, entry.key.multipleContext.isSome = true →
    other.key.multipleContext = entry.key.multipleContext → other.flight = entry.flight

/-- The order of the table, the flights of its contexts and the numbers it has given out are as they
should be. -/
structure Valid (table : CovTable O) : Prop extends Orderly table where
  shared : table.Shared
  flightsSorted : Sorted Prod.fst table.flights
  generations : ∀ entry ∈ table.subs, entry.generation ≤ table.generation
  flightNumbers : ∀ entry ∈ table.subs, entry.flight ≤ table.nextFlight

theorem valid_new (id : ℕ) (policy : CovPolicy) : (new id policy : CovTable O).Valid where
  toOrderly := orderly_new id policy
  shared := fun _ h => absurd h List.not_mem_nil
  flightsSorted := SortedArray.sorted_nil
  generations := fun _ h => absurd h List.not_mem_nil
  flightNumbers := fun _ h => absurd h List.not_mem_nil

/-- An entry published by the call. -/
structure Fresh (E : Effects O) (table' : CovTable O) (entry : CovSubscriptionSnapshot O) :
    Prop where
  after : E.fresh entry.generation
  issued : entry.generation ≤ table'.generation
  flight : entry.flight ≤ table'.nextFlight
  ticket : entry.lastSuccessfulTicket = 0

/-- The baseline and its ticket stayed, or a commit moved both. -/
def Baseline (E : Effects O) (entry entry' : CovSubscriptionSnapshot O) : Prop :=
  (entry'.lastSuccessfulTicket = entry.lastSuccessfulTicket ∧
      (entry'.baseline = entry.baseline ∨ E.forgets ∧ entry'.baseline = Option.none)) ∨
    (entry.lastSuccessfulTicket < entry'.lastSuccessfulTicket ∧
      ∃ observation, entry'.baseline = some observation ∧
        E.commits entry entry'.lastSuccessfulTicket observation)

/-- An entry that was there before: its generation is the same, its flight is the same or a new one,
and it does not come back to life. -/
structure Stays (now : Instant) (E : Effects O) (table' : CovTable O)
    (entry entry' : CovSubscriptionSnapshot O) : Prop where
  generation : entry'.generation = entry.generation
  flight : entry'.flight = entry.flight ∨
    (E.opens entry'.flight ∧ entry'.flight ≤ table'.nextFlight)
  expiry : isExpired now entry = true → isExpired now entry' = true
  baseline : Baseline E entry entry'

structure Evolves (now : Instant) (E : Effects O) (table table' : CovTable O) : Prop where
  orderly : table'.Orderly
  shared : table'.Shared
  flightsSorted : Sorted Prod.fst table'.flights
  generation : table.generation ≤ table'.generation
  nextFlight : table.nextFlight ≤ table'.nextFlight
  entries : ∀ key entry', table'.under key = some entry' → Fresh E table' entry' ∨
    ∃ entry, table.under key = some entry ∧ Stays now E table' entry entry'
  flights : Ends E.marks table.flights table'.flights
  pending : ∀ report ∈ table'.pending, report ∈ table.pending ∨ E.sends report

theorem Orderly.under_of_mem {table : CovTable O} (horder : table.Orderly)
    {entry : CovSubscriptionSnapshot O} (h : entry ∈ table.subs) :
    table.under entry.key = some entry :=
  horder.sorted.entry_of_mem h

namespace Evolves

variable {now : Instant} {E E' : Effects O} {table table' table'' : CovTable O}

theorem valid (h : Evolves now E table table') (hvalid : table.Valid) : table'.Valid where
  toOrderly := h.orderly
  shared := h.shared
  flightsSorted := h.flightsSorted
  generations := by
    intro entry' hentry'
    rcases h.entries _ _ (h.orderly.under_of_mem hentry') with hfresh | ⟨entry, hentry, hstays⟩
    · exact hfresh.issued
    · rw [hstays.generation]
      exact le_trans (hvalid.generations entry (mem_of_under hentry).1) h.generation
  flightNumbers := by
    intro entry' hentry'
    rcases h.entries _ _ (h.orderly.under_of_mem hentry') with hfresh | ⟨entry, hentry, hstays⟩
    · exact hfresh.flight
    · rcases hstays.flight with hsame | ⟨_, hle⟩
      · rw [hsame]
        exact le_trans (hvalid.flightNumbers entry (mem_of_under hentry).1) h.nextFlight
      · exact hle

theorem of_subs (hvalid : table.Valid) (horder : table'.Orderly)
    (hsorted : Sorted Prod.fst table'.flights) (hsubs : table'.subs = table.subs) (hgeneration : table.generation ≤ table'.generation)
    (hnext : table.nextFlight ≤ table'.nextFlight)
    (hflights : Ends E.marks table.flights table'.flights)
    (hpending : ∀ report ∈ table'.pending, report ∈ table.pending ∨ E.sends report) :
    Evolves now E table table' := by
  refine ⟨horder, ?_, hsorted, hgeneration, hnext, ?_, hflights, hpending⟩
  · unfold Shared
    rw [hsubs]
    exact hvalid.shared
  intro key entry' hentry'
  rw [under_congr hsubs] at hentry'
  exact .inr ⟨entry', hentry', rfl, .inl rfl, fun h => h, .inl ⟨rfl, .inl rfl⟩⟩

theorem refl (hvalid : table.Valid) : Evolves now E table table :=
  of_subs hvalid hvalid.toOrderly hvalid.flightsSorted rfl (le_refl _) (le_refl _) (.refl _)
    fun _ h => .inl h

theorem mono (h : Evolves now E table table') (hle : E.Le E') : Evolves now E' table table' where
  orderly := h.orderly
  shared := h.shared
  flightsSorted := h.flightsSorted
  generation := h.generation
  nextFlight := h.nextFlight
  entries := by
    intro key entry' hentry'
    rcases h.entries key entry' hentry' with hfresh | ⟨entry, hentry, hstays⟩
    · exact .inl ⟨hle.fresh _ hfresh.after, hfresh.issued, hfresh.flight, hfresh.ticket⟩
    refine .inr ⟨entry, hentry, hstays.generation,
      hstays.flight.imp_right fun hopened => ⟨hle.opens _ hopened.1, hopened.2⟩, hstays.expiry, ?_⟩
    rcases hstays.baseline with ⟨hticket, hbaseline⟩ | ⟨hticket, observation, hbaseline, hcommits⟩
    · exact .inl ⟨hticket, hbaseline.imp_right fun hforgets => ⟨hle.forgets hforgets.1, hforgets.2⟩⟩
    · exact .inr ⟨hticket, observation, hbaseline, hle.commits _ _ _ hcommits⟩
  flights := by
    intro flight state' hget hticket
    exact (h.flights flight state' hget hticket).imp_right (hle.marks _ _ _)
  pending := fun report hreport => (h.pending report hreport).imp_right (hle.sends report)

/-- Calls without commits compose. -/
theorem trans (hquiet : ∀ entry ticket observation, ¬ E.commits entry ticket observation)
    (h : Evolves now E table table') (h' : Evolves now E table' table'') :
    Evolves now E table table'' where
  orderly := h'.orderly
  shared := h'.shared
  flightsSorted := h'.flightsSorted
  generation := le_trans h.generation h'.generation
  nextFlight := le_trans h.nextFlight h'.nextFlight
  entries := by
    intro key entry'' hentry''
    rcases h'.entries key entry'' hentry'' with hfresh | ⟨entry', hentry', hstays'⟩
    · exact .inl hfresh
    have hnone : ∀ {a b : CovSubscriptionSnapshot O}, Baseline E a b →
        b.lastSuccessfulTicket = a.lastSuccessfulTicket ∧
          (b.baseline = a.baseline ∨ E.forgets ∧ b.baseline = none) := by
      intro a b hbaseline
      rcases hbaseline with hstay | ⟨_, observation, _, hcommits⟩
      · exact hstay
      · exact absurd hcommits (hquiet _ _ _)
    have hlater := hnone hstays'.baseline
    rcases h.entries key entry' hentry' with hfresh | ⟨entry, hentry, hstays⟩
    · refine .inl ⟨?_, ?_, ?_, hlater.1.trans hfresh.ticket⟩
      · rw [hstays'.generation]
        exact hfresh.after
      · rw [hstays'.generation]
        exact le_trans hfresh.issued h'.generation
      · rcases hstays'.flight with hsame | ⟨_, hle⟩
        · rw [hsame]
          exact le_trans hfresh.flight h'.nextFlight
        · exact hle
    · have hearlier := hnone hstays.baseline
      refine .inr ⟨entry, hentry, hstays'.generation.trans hstays.generation, ?_,
        fun hexpired => hstays'.expiry (hstays.expiry hexpired), .inl ⟨?_, ?_⟩⟩
      · rcases hstays'.flight with hsame | hopened
        · rcases hstays.flight with hsame' | ⟨hopened, hle⟩
          · exact .inl (hsame.trans hsame')
          · rw [hsame]
            exact .inr ⟨hopened, le_trans hle h'.nextFlight⟩
        · exact .inr hopened
      · exact hlater.1.trans hearlier.1
      · rcases hlater.2 with hsame | hforgets
        · rcases hearlier.2 with hsame' | hforgets
          · exact .inl (hsame.trans hsame')
          · exact .inr ⟨hforgets.1, hsame.trans hforgets.2⟩
        · exact .inr hforgets
  flights := by
    intro flight state'' hget hticket
    rcases h'.flights flight state'' hget hticket with ⟨state', hstate', hsame⟩ | hmarks
    · have hticket' : state'.ticket ≠ 0 := by
        rw [← hsame.ticket]
        exact hticket
      rcases h.flights flight state' hstate' hticket' with ⟨state, hstate, hsame'⟩ | hmarks
      · exact .inl ⟨state, hstate, hsame.ticket.trans hsame'.ticket,
          hsame.deadline.trans hsame'.deadline, hsame.completes.trans hsame'.completes⟩
      · rw [hsame.ticket, hsame.deadline, hsame.completes]
        exact .inr hmarks
    · exact .inr hmarks
  pending := by
    intro report hreport
    rcases h'.pending report hreport with hreport | hsends
    · exact h.pending report hreport
    · exact .inr hsends

end Evolves

/-- A call that ends reports and entries, publishes entries, and does nothing else. -/
abbrev Quiet (now : Instant) (table table' : CovTable O) : Prop :=
  Evolves now Effects.none table table'

theorem Quiet.trans {now : Instant} {table table' table'' : CovTable O}
    (h : Quiet now table table') (h' : Quiet now table' table'') : Quiet now table table'' :=
  Evolves.trans (fun _ _ _ h => h) h h'

variable (now : Instant) {table : CovTable O}

/-! ## Flights that end -/

theorem quiet_flights (hvalid : table.Valid) {flights : VecMap ℕ (FlightState O)}
    (hsorted : Sorted Prod.fst flights) (hends : Ends Effects.none.marks table.flights flights) :
    Quiet now table { table with flights } :=
  .of_subs hvalid ⟨hvalid.sorted, hvalid.due⟩ hsorted rfl (le_refl _) (le_refl _) hends
    fun _ h => .inl h

theorem quiet_notes (hvalid : table.Valid) (counts : CovCounters) (fenced : Fenced)
    (timing : FlightTiming) : Quiet now table { table with counts, fenced, timing } :=
  .of_subs hvalid ⟨hvalid.sorted, hvalid.due⟩ hvalid.flightsSorted rfl (le_refl _) (le_refl _) (.refl _)
    fun _ h => .inl h

theorem quiet_tidyFlight (hvalid : table.Valid) (flight : ℕ) :
    Quiet now table (table.tidyFlight flight) := by
  unfold tidyFlight
  split
  · exact quiet_flights now hvalid (VecMap.sorted_remove hvalid.flightsSorted flight)
      (.remove hvalid.flightsSorted flight)
  · exact .refl hvalid

theorem quiet_fenceFlight (hvalid : table.Valid) (flight : ℕ) :
    Quiet now table (table.fenceFlight flight) := by
  unfold fenceFlight
  split
  · exact .refl hvalid
  · have hflights := quiet_flights now hvalid
      (VecMap.sorted_remove hvalid.flightsSorted flight) (.remove hvalid.flightsSorted flight)
    exact hflights.trans (quiet_notes now (hflights.valid hvalid) _ _ _)

theorem quiet_abandon (hvalid : table.Valid) (token : Token) :
    Quiet now table (table.abandon token) := by
  have hflights := quiet_flights now hvalid
    (VecMap.sorted_modify hvalid.flightsSorted token.flight fun state =>
      { state with ticket := 0, deadline := none, carried := [], completes := [] })
    (.modify hvalid.flightsSorted token.flight fun _ h => absurd rfl h)
  have htidy := quiet_tidyFlight now (hflights.valid hvalid) token.flight
  exact hflights.trans (htidy.trans (quiet_notes now (htidy.valid (hflights.valid hvalid)) _ _ _))

theorem quiet_endAbandoned (hvalid : table.Valid) : Quiet now table (table.endAbandoned now) := by
  unfold endAbandoned
  generalize table.abandoned now = tokens
  induction tokens generalizing table with
  | nil => exact .refl hvalid
  | cons token tokens ih =>
    have hfirst := quiet_abandon now hvalid token
    exact hfirst.trans (ih (hfirst.valid hvalid))

/-! ## Entries that end -/

theorem removeInternal_rest (table : CovTable O) (key : CovSubscriptionKey) (wasCancelled : Bool) :
    (table.removeInternal key wasCancelled).2.generation = table.generation ∧
      (table.removeInternal key wasCancelled).2.nextFlight = table.nextFlight ∧
      (table.removeInternal key wasCancelled).2.pending = table.pending ∧
      ((table.removeInternal key wasCancelled).2.flights = table.flights ∨
        ∃ flight, (table.removeInternal key wasCancelled).2.flights
          = table.flights.remove flight) := by
  unfold removeInternal
  split
  · exact ⟨rfl, rfl, rfl, .inl rfl⟩
  · refine ⟨rfl, rfl, rfl, ?_⟩
    dsimp only
    split_ifs
    · exact .inl rfl
    · exact .inr ⟨_, rfl⟩

theorem quiet_of_mem {table' : CovTable O} (hvalid : table.Valid) (horder' : table'.Orderly)
    (hsorted : Sorted Prod.fst table'.flights) (hmem : ∀ entry ∈ table'.subs, entry ∈ table.subs)
    (hgeneration : table'.generation = table.generation)
    (hnext : table'.nextFlight = table.nextFlight)
    (hflights : Ends Effects.none.marks table.flights table'.flights)
    (hpending : table'.pending = table.pending) : Quiet now table table' := by
  refine ⟨horder', ?_, hsorted, le_of_eq hgeneration.symm, le_of_eq hnext.symm, ?_, hflights, ?_⟩
  · exact fun entry hentry other hother =>
      hvalid.shared entry (hmem entry hentry) other (hmem other hother)
  · intro key entry hentry
    obtain ⟨hin, rfl⟩ := mem_of_under hentry
    exact .inr ⟨entry, hvalid.under_of_mem (hmem entry hin), rfl, .inl rfl, fun h => h,
      .inl ⟨rfl, .inl rfl⟩⟩
  · intro report hreport
    rw [hpending] at hreport
    exact .inl hreport

theorem quiet_removeInternal (hvalid : table.Valid) (key : CovSubscriptionKey)
    (wasCancelled : Bool) : Quiet now table (table.removeInternal key wasCancelled).2 := by
  obtain ⟨hgeneration, hnext, hpending, hflights⟩ := removeInternal_rest table key wasCancelled
  refine quiet_of_mem now hvalid (orderly_removeInternal key wasCancelled hvalid.toOrderly)
    ?_ (fun entry h => ((mem_removeInternal hvalid.toOrderly).mp h).1) hgeneration hnext ?_ hpending
  · rcases hflights with h | ⟨flight, h⟩
    · rw [h]
      exact hvalid.flightsSorted
    · rw [h]
      exact VecMap.sorted_remove hvalid.flightsSorted flight
  · rcases hflights with h | ⟨flight, h⟩
    · rw [h]
      exact .refl _
    · rw [h]
      exact .remove hvalid.flightsSorted flight

theorem quiet_removeEach (wasCancelled : Bool) (keys : List CovSubscriptionKey) :
    ∀ {table : CovTable O}, table.Valid →
      Quiet now table (table.removeEach wasCancelled keys).2 := by
  induction keys with
  | nil => exact fun hvalid => .refl hvalid
  | cons key keys ih =>
    intro table hvalid
    have hfirst := quiet_removeInternal now hvalid key wasCancelled
    exact hfirst.trans (ih (hfirst.valid hvalid))

theorem quiet_expire (hvalid : table.Valid) : Quiet now table (table.expire now).2 := by
  have horder := (orderly_expire now hvalid.toOrderly).1
  unfold expire at horder ⊢
  split
  · exact .refl hvalid
  · rename_i hpass
    rw [if_neg hpass] at horder
    obtain ⟨counts, hpurge⟩ := purge_eq table now
    rw [hpurge] at horder ⊢
    have hended := quiet_endAbandoned now hvalid
    have hremoved := quiet_removeEach now false
      (((table.endAbandoned now).subs.filter (isExpired now)).map (·.key)) (hended.valid hvalid)
    have hboth := hended.trans hremoved
    refine hboth.trans (.of_subs (hboth.valid hvalid) horder ?_ rfl (le_refl _) (le_refl _) (.refl _) fun _ h => .inl h)
    exact hboth.flightsSorted

theorem quiet_expireAll (hvalid : table.Valid) : Quiet now table (table.expireAll now) := by
  have horder := orderly_expireAll now hvalid.toOrderly
  have hsubs := (expireAll_fields table now).1
  have hrest : (table.expireAll now).flights = table.flights ∧
      (table.expireAll now).generation = table.generation ∧
      (table.expireAll now).nextFlight = table.nextFlight ∧
      (table.expireAll now).pending = table.pending := by
    unfold expireAll
    dsimp only
    split_ifs
    · exact ⟨rfl, rfl, rfl, rfl⟩
    · exact ⟨rfl, rfl, rfl, rfl⟩
  refine ⟨horder, ?_, ?_, le_of_eq hrest.2.1.symm, le_of_eq hrest.2.2.1.symm, ?_, ?_, ?_⟩
  · intro entry hentry other hother
    rw [hsubs] at hentry hother
    obtain ⟨old, hold, rfl⟩ := List.mem_map.mp hentry
    obtain ⟨old', hold', rfl⟩ := List.mem_map.mp hother
    exact hvalid.shared old hold old' hold'
  · rw [hrest.1]
    exact hvalid.flightsSorted
  · intro key entry' hentry'
    obtain ⟨hmem, rfl⟩ := mem_of_under hentry'
    rw [hsubs] at hmem
    obtain ⟨entry, hentry, rfl⟩ := List.mem_map.mp hmem
    refine .inr ⟨entry, hvalid.under_of_mem hentry, rfl, .inl rfl, fun _ => ?_,
      .inl ⟨rfl, .inl rfl⟩⟩
    simp [isExpired, CovSubscriptionSnapshot.expiresAt]
  · rw [hrest.1]
    exact .refl _
  · intro report hreport
    rw [hrest.2.2.2] at hreport
    exact .inl hreport

end CovTable

end RustyBacnet.Cov
