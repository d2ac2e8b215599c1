import RustyBacnet.Cov.Commits
import RustyBacnet.Lib.Runs

/-!
# Baselines move forward

Over whole runs: a marked flight goes back to the call that began its report, and has been marked
with it ever since (`marked_since`); so does a pending report. An entry found at a commit, under the
generation and on the flight its observation was taken from, was there at every state since, alive at
every call (`present_back`, `alive_back`). Within one generation the tickets of the commits rise.
-/

namespace RustyBacnet.Cov

open SortedArray (Sorted)

variable {O V L : Type}

namespace CovTable

variable {table : CovTable O}

/-! ## Entries, back in time -/

/-- There is an entry under `key`, of that generation and on that flight. -/
def Present (table : CovTable O) (key : CovSubscriptionKey) (generation flight : ℕ) : Prop :=
  ∃ entry, table.under key = some entry ∧ entry.generation = generation ∧ entry.flight = flight

/-- And its lifetime has not ended at `now`. -/
def Alive (table : CovTable O) (key : CovSubscriptionKey) (generation flight : ℕ) (now : Instant) :
    Prop :=
  ∃ entry, table.under key = some entry ∧ entry.generation = generation ∧
    entry.flight = flight ∧ isExpired now entry = false

/-- The generation and the flight have been given out. -/
structure Given (generation flight : ℕ) (table : CovTable O) : Prop where
  valid : table.Valid
  generation : generation ≤ table.generation
  flight : flight ≤ table.nextFlight

theorem evolves_perform_getD (hvalid : table.Valid) (op : Op O V L) (now : Instant) :
    Evolves (op.now?.getD now) (table.effects op) table (table.perform op) := by
  refine evolves_perform hvalid op ?_
  intro time htime
  rw [htime]
  rfl

variable {generation flight : ℕ}

theorem Given.perform (h : Given generation flight table) (op : Op O V L) :
    Given generation flight (table.perform op) where
  valid := valid_perform h.valid op
  generation := le_trans h.generation (evolves_perform_getD h.valid op 0).generation
  flight := le_trans h.flight (evolves_perform_getD h.valid op 0).nextFlight

variable {key : CovSubscriptionKey} {entry' : CovSubscriptionSnapshot O}

/-- An entry under a generation and on a flight given out before the call was there before it. -/
theorem Given.entry_back (h : Given generation flight table) (op : Op O V L) (now : Instant)
    (hentry' : (table.perform op).under key = some entry')
    (hgeneration : entry'.generation = generation) (hflight : entry'.flight = flight) :
    ∃ entry, table.under key = some entry ∧ entry.generation = generation ∧
      entry.flight = flight ∧
      Stays (op.now?.getD now) (table.effects op) (table.perform op) entry entry' := by
  rcases (evolves_perform_getD h.valid op now).entries key entry' hentry' with
    hfresh | ⟨entry, hentry, hstays⟩
  · have hafter : table.generation < entry'.generation := hfresh.after
    have hgiven := h.generation
    omega
  · refine ⟨entry, hentry, hstays.generation.symm.trans hgeneration, ?_, hstays⟩
    rcases hstays.flight with hsame | ⟨hopened, _⟩
    · exact hsame.symm.trans hflight
    · have hafter : table.nextFlight < entry'.flight := hopened
      have hgiven := h.flight
      omega

theorem present_back (h : Given generation flight table) {middle rest : List (Op O V L)}
    (hpresent : (table.performAll (middle ++ rest)).Present key generation flight) :
    (table.performAll middle).Present key generation flight := by
  refine Runs.back (Given generation flight) (fun table : CovTable O => table.Present key generation flight)
    (fun table op h => Given.perform h op) ?_ h hpresent
  rintro table op h ⟨entry', hentry', hgeneration, hflight⟩
  obtain ⟨entry, hentry, hgeneration, hflight, _⟩ :=
    Given.entry_back h op 0 hentry' hgeneration hflight
  exact ⟨entry, hentry, hgeneration, hflight⟩

variable {entry : CovSubscriptionSnapshot O} {now : Instant}

theorem isExpired_mono {later : Instant} (hle : now ≤ later) (h : isExpired later entry = false) :
    isExpired now entry = false := by
  rw [Bool.eq_false_iff, ne_eq, isExpired_iff] at h ⊢
  rintro ⟨expires, hexpires, hreached⟩
  exact h ⟨expires, hexpires, le_trans hreached hle⟩

/-- With calls in the order of time, an entry that lives at the end lived at every call. -/
theorem alive_back (now : Instant) (ops : List (Op O V L)) :
    ∀ {table : CovTable O}, Given generation flight table →
      (ops.filterMap Op.now? ++ [now]).Pairwise (· ≤ ·) →
      (table.performAll ops).Alive key generation flight now →
      ∀ time, (∀ later ∈ ops.filterMap Op.now? ++ [now], time ≤ later) →
        table.Alive key generation flight time := by
  induction ops with
  | nil =>
    rintro table h _ ⟨entry, hentry, hgeneration, hflight, halive⟩ time htime
    exact ⟨entry, hentry, hgeneration, hflight,
      isExpired_mono (htime now (List.mem_singleton.mpr rfl)) halive⟩
  | cons op ops ih =>
    intro table h hordered halive time htime
    -- the call's own time, or the one asked for when it is given none
    have hnext : (table.perform op).Alive key generation flight (op.now?.getD time) ∧
        time ≤ op.now?.getD time := by
      cases hnow : op.now? with
      | none =>
        rw [List.filterMap_cons_none hnow] at hordered htime
        exact ⟨ih (h.perform op) hordered halive time htime, le_refl _⟩
      | some called =>
        rw [List.filterMap_cons_some hnow, List.cons_append] at hordered htime
        obtain ⟨hfirst, hordered⟩ := List.pairwise_cons.mp hordered
        exact ⟨ih (h.perform op) hordered halive called hfirst,
          htime called (List.mem_cons_self ..)⟩
    obtain ⟨⟨entry', hentry', hgeneration, hflight, halive'⟩, hle⟩ := hnext
    obtain ⟨entry, hentry, hgeneration, hflight, hstays⟩ :=
      h.entry_back op time hentry' hgeneration hflight
    refine ⟨entry, hentry, hgeneration, hflight, isExpired_mono hle ?_⟩
    by_contra hexpired
    rw [Bool.not_eq_false] at hexpired
    rw [hstays.expiry hexpired] at halive'
    cases halive'

/-- The flight of `token` is marked with it, until `deadline`, for `completes`. -/
def Marked (token : Token) (deadline : Option Instant) (completes : List (Completion O))
    (table : CovTable O) : Prop :=
  ∃ state, table.flights.get token.flight = some state ∧ state.ticket = token.ticket ∧
    state.deadline = deadline ∧ state.completes = completes

variable {id : ℕ} {policy : CovPolicy} {token : Token}

theorem marked_since {deadline : Option Instant} {completes : List (Completion O)}
    (hticket : token.ticket ≠ 0) (ops : List (Op O V L))
    (h : Marked token deadline completes ((new id policy).performAll ops)) :
    ∃ before op after, ops = before ++ op :: after ∧
      (((new id policy).performAll before).effects op).marks token deadline completes ∧
      ∀ middle rest, after = middle ++ rest →
        Marked token deadline completes ((new id policy).performAll (before ++ op :: middle)) := by
  have hstart : ¬ Marked token deadline completes (new id policy : CovTable O) := by
    rintro ⟨state, hstate, _⟩
    cases hstate
  refine Runs.since Valid (Marked token deadline completes)
    (fun table op => (table.effects op).marks token deadline completes)
    (fun table op hvalid => valid_perform hvalid op) ?_ (valid_new id policy) hstart ops h
  rintro table op hvalid ⟨state', hstate', hsame, hdeadline, hcompletes⟩
  rcases (evolves_perform_getD hvalid op 0).flights _ state' hstate' (hsame ▸ hticket) with
    ⟨state, hstate, hreport⟩ | hmarks
  · exact .inl ⟨state, hstate, hreport.ticket.symm.trans hsame,
      hreport.deadline.symm.trans hdeadline, hreport.completes.symm.trans hcompletes⟩
  · rw [hsame, hdeadline, hcompletes] at hmarks
    exact .inr hmarks

theorem pending_since {report : Pending O} (ops : List (Op O V L))
    (h : report ∈ ((new id policy).performAll ops).pending) :
    ∃ before op after, ops = before ++ op :: after ∧
      (((new id policy).performAll before).effects op).sends report ∧
      ∀ middle rest, after = middle ++ rest →
        report ∈ ((new id policy).performAll (before ++ op :: middle)).pending := by
  have hstart : report ∉ (new id policy : CovTable O).pending := List.not_mem_nil
  refine Runs.since Valid (fun table : CovTable O => report ∈ table.pending)
    (fun table op => (table.effects op).sends report)
    (fun table op hvalid => valid_perform hvalid op) ?_ (valid_new id policy) hstart ops h
  intro table op hvalid hreport
  exact (evolves_perform_getD hvalid op 0).pending report hreport

/-! ## Authority -/

/-- Since `before`, through `calls`, the entry was neither replaced, moved to another flight nor
removed. At `now` it is not expired, and with calls in the order of time, up to `now`, none found it
expired. -/
structure Untouched (start : CovTable O) (before calls : List (Op O V L)) (now : Instant)
    (key : CovSubscriptionKey) (generation flight : ℕ) : Prop where
  present : ∀ middle rest, calls = middle ++ rest →
    (start.performAll (before ++ middle)).Present key generation flight
  alive : (calls.filterMap Op.now? ++ [now]).Pairwise (· ≤ ·) →
    ∀ middle call rest time, calls = middle ++ call :: rest → call.now? = some time →
      (start.performAll (before ++ middle)).Alive key generation flight time
  last : (start.performAll (before ++ calls)).Alive key generation flight now

/-- `calls` begins with the call that began the report under `token`, for `completion`. -/
structure Reported (start : CovTable O) (before calls : List (Op O V L)) (token : Token)
    (confirmed : Bool) (completion : Completion O) (begun : Instant) : Prop where
  taken : ∃ op after, calls = op :: after ∧ op.now? = some begun ∧
    (start.performAll before).Taken op begun token confirmed completion

/-- What lets `op`, after `ops`, commit `observation` under `ticket` to the entry of `generation` on
`flight`. -/
inductive Authorised (start : CovTable O) (ops : List (Op O V L)) (op : Op O V L)
    (key : CovSubscriptionKey) (generation flight ticket : ℕ) (observation : O) : Prop
  | acknowledged (before calls : List (Op O V L)) (begun now : Instant)
    (run : ops = before ++ calls)
    (call : op = .delivered ⟨flight, ticket⟩ .acknowledged now)
    (reported : Reported start before calls ⟨flight, ticket⟩ true ⟨key, generation, observation⟩
      begun)
    (outstanding : ∀ middle rest, calls = middle ++ rest → middle ≠ [] →
      ∃ completes, ⟨key, generation, observation⟩ ∈ completes ∧
        Marked ⟨flight, ticket⟩ (some (satAdd begun (start.performAll before).timing.deadline))
          completes (start.performAll (before ++ middle)))
    (intime : now < satAdd begun (start.performAll before).timing.deadline)
    (untouched : Untouched start before calls now key generation flight)
  | sent (before calls : List (Op O V L)) (begun now : Instant)
    (run : ops = before ++ calls)
    (call : op = .delivered ⟨flight, ticket⟩ .sent now)
    (reported : Reported start before calls ⟨flight, ticket⟩ false ⟨key, generation, observation⟩
      begun)
    (pending : ∀ middle rest, calls = middle ++ rest → middle ≠ [] →
      ⟨⟨flight, ticket⟩, ⟨key, generation, observation⟩⟩
        ∈ (start.performAll (before ++ middle)).pending)
    (untouched : Untouched start before calls now key generation flight)
  | completed (snapshot : CovSubscriptionSnapshot O) (prepared : PreparedCovCompletion)
    (now : Instant) (call : op = .completeObservation snapshot prepared observation now)
    (own : snapshot.table = (start.performAll ops).id ∧ snapshot.key = key ∧
      snapshot.generation = generation ∧ snapshot.flight = flight ∧ prepared.ticket = ticket)
    (kind : prepared.isConfirmed = snapshot.subscription.issueConfirmedNotifications)
    (holds : prepared.isConfirmed = true →
      (start.performAll ops).flightHolds flight ticket now = true)
    (alive : (start.performAll ops).Alive key generation flight now)

theorem performAll_append (table : CovTable O) (first second : List (Op O V L)) :
    table.performAll (first ++ second) = (table.performAll first).performAll second :=
  List.foldl_append ..

variable {start : CovTable O} {completion : Completion O} {op : Op O V L}

theorem given_of_taken (hvalid : start.Valid) {confirmed : Bool}
    (h : start.Taken op now token confirmed completion) :
    Given completion.generation token.flight start where
  valid := hvalid
  generation := by
    obtain ⟨entry, hentry, hgeneration, _⟩ := h.live
    rw [← hgeneration]
    exact hvalid.generations entry (mem_of_under hentry).1
  flight := by
    obtain ⟨entry, hentry, hflight⟩ := h.flown
    rw [← hflight]
    exact hvalid.flightNumbers entry hentry

/-- The entry a report's commit finds is the one it was taken from, untouched since. -/
theorem untouched_of_alive {before calls : List (Op O V L)}
    (hgiven : Given generation flight (start.performAll before))
    (halive : (start.performAll (before ++ calls)).Alive key generation flight now) :
    Untouched start before calls now key generation flight where
  present := by
    rintro middle rest rfl
    obtain ⟨entry, hentry, hgeneration, hflight, _⟩ := halive
    rw [performAll_append] at hentry ⊢
    exact present_back hgiven ⟨entry, hentry, hgeneration, hflight⟩
  alive := by
    rintro hordered middle call rest time rfl htime
    have hmiddle : Given generation flight (start.performAll (before ++ middle)) := by
      rw [performAll_append]
      exact Runs.invariant (Given generation flight) (fun table op h => Given.perform h op) middle
        hgiven
    rw [← List.append_assoc, performAll_append] at halive
    rw [List.filterMap_append, List.append_assoc] at hordered
    have hrest := (List.pairwise_append.mp hordered).2.1
    refine alive_back now (call :: rest) hmiddle hrest halive time ?_
    rw [List.filterMap_cons_some htime, List.cons_append] at hrest ⊢
    intro later hlater
    rcases List.mem_cons.mp hlater with rfl | hlater
    · exact le_refl _
    · exact (List.pairwise_cons.mp hrest).1 later hlater
  last := halive

theorem Behind.alive_of (hentry : start.under key = some entry)
    (h : Behind now token entry completion) : start.Alive key entry.generation token.flight now :=
  ⟨entry, hentry, rfl, h.flight, h.alive⟩

variable {ticket : ℕ}

/-- Every commit is authorised. -/
theorem authorised_of_commits {ops : List (Op O V L)} {observation : O}
    (hentry : ((new id policy).performAll ops).under key = some entry) (hticket : ticket ≠ 0)
    (h : ((new id policy).performAll ops).Commits op entry ticket observation) :
    Authorised (new id policy) ops op key entry.generation entry.flight ticket observation := by
  have hreach : ∀ ops : List (Op O V L), ((new id policy : CovTable O).performAll ops).Valid :=
    fun ops => valid_performAll ops (valid_new id policy)
  cases op with
  | delivered token outcome now =>
    obtain ⟨rfl, completion, rfl, hbehind, hreport⟩ := h
    have halive := hbehind.alive_of hentry
    have hkey := (mem_of_under hentry).2
    have hcompletion : completion = ⟨key, entry.generation, completion.observation⟩ := by
      rw [← hkey, hbehind.key, hbehind.generation]
    have htoken : (⟨entry.flight, token.ticket⟩ : Token) = token := by
      rw [hbehind.flight]
    rcases hreport with ⟨rfl, state, hstate, hsame, houtstanding, hmem⟩ | ⟨rfl, hmem⟩
    · obtain ⟨before, begin_, after, rfl, ⟨begun, hbegun, hdeadline, _, htaken⟩, hmarked⟩ :=
        marked_since hticket ops ⟨state, hstate, hsame, rfl, rfl⟩
      have hown := htaken completion hmem
      have hgiven := given_of_taken (hreach before) hown
      rw [hcompletion] at hmem hown hgiven
      rw [hdeadline] at hmarked
      refine .acknowledged before (begin_ :: after) begun now rfl ?_ ?_ ?_ ?_ ?_
      · rw [htoken]
      · rw [htoken]
        exact ⟨begin_, after, rfl, hbegun, hown⟩
      · rintro middle rest hsplit hmiddle
        obtain ⟨first, middle, rfl⟩ := List.exists_cons_of_ne_nil hmiddle
        rw [List.cons_append] at hsplit
        obtain ⟨rfl, htail⟩ := List.cons.inj hsplit
        rw [htoken]
        exact ⟨state.completes, hmem, hmarked middle rest htail⟩
      · unfold FlightState.outstanding at houtstanding
        rw [hdeadline] at houtstanding
        simpa using (Bool.and_eq_true_iff.mp houtstanding).2
      · rw [hbehind.flight]
        exact untouched_of_alive hgiven halive
    · obtain ⟨before, begin_, after, rfl, ⟨begun, hbegun, hown⟩, hpending⟩ :=
        pending_since ops hmem
      have hgiven := given_of_taken (hreach before) hown
      rw [hcompletion] at hown hgiven hpending
      refine .sent before (begin_ :: after) begun now rfl ?_ ?_ ?_ ?_
      · rw [htoken]
      · rw [htoken]
        exact ⟨begin_, after, rfl, hbegun, hown⟩
      · rintro middle rest hsplit hmiddle
        obtain ⟨first, middle, rfl⟩ := List.exists_cons_of_ne_nil hmiddle
        rw [List.cons_append] at hsplit
        obtain ⟨rfl, htail⟩ := List.cons.inj hsplit
        rw [htoken]
        exact hpending middle rest htail
      · rw [hbehind.flight]
        exact untouched_of_alive hgiven halive
  | completeObservation snapshot prepared value now =>
    obtain ⟨rfl, rfl, htable, hkind, hbehind, hholds⟩ := h
    have halive := hbehind.alive_of hentry
    have hflight : entry.flight = snapshot.flight := hbehind.flight
    refine .completed snapshot prepared now rfl ⟨htable.symm, ?_, ?_, hflight.symm, rfl⟩ hkind ?_ ?_
    · rw [← (mem_of_under hentry).2, hbehind.key]
      rfl
    · rw [hbehind.generation]
      rfl
    · rw [hflight]
      exact hholds
    · rw [hflight]
      exact halive
  | _ => exact absurd h (fun h => h)

/-! ## Tickets rise -/

/-- What one call committed to the entry of `generation` under `key`: its ticket and its
observation. -/
def committed (key : CovSubscriptionKey) (generation : ℕ) (table table' : CovTable O) :
    Option (ℕ × Option O) :=
  match table.under key, table'.under key with
  | some entry, some entry' =>
    if entry.generation = generation ∧ entry'.generation = generation ∧
        entry'.lastSuccessfulTicket ≠ entry.lastSuccessfulTicket then
      some (entry'.lastSuccessfulTicket, entry'.baseline)
    else none
  | _, _ => none

def commits (key : CovSubscriptionKey) (generation : ℕ) :
    CovTable O → List (Op O V L) → List (ℕ × Option O)
  | _, [] => []
  | table, op :: ops =>
    (committed key generation table (table.perform op)).toList
      ++ commits key generation (table.perform op) ops

variable {table' : CovTable O}

theorem committed_some {table : CovTable O} {commit : ℕ × Option O}
    (h : committed key generation table table' = some commit) :
    ∃ entry entry', table.under key = some entry ∧ table'.under key = some entry' ∧
      entry.generation = generation ∧ entry'.generation = generation ∧
      entry'.lastSuccessfulTicket ≠ entry.lastSuccessfulTicket ∧
      commit = (entry'.lastSuccessfulTicket, entry'.baseline) := by
  unfold committed at h
  split at h
  · rename_i entry entry' hentry hentry'
    split_ifs at h with hmoved
    cases h
    exact ⟨entry, entry', hentry, hentry', hmoved.1, hmoved.2.1, hmoved.2.2, rfl⟩
  · cases h

theorem ticket_of_committed_none {table : CovTable O}
    (h : committed key generation table table' = none) (hentry : table.under key = some entry)
    (hentry' : table'.under key = some entry') (hgeneration : entry.generation = generation)
    (hgeneration' : entry'.generation = generation) :
    entry'.lastSuccessfulTicket = entry.lastSuccessfulTicket := by
  unfold committed at h
  rw [hentry, hentry'] at h
  dsimp only at h
  by_contra hmoved
  rw [if_pos ⟨hgeneration, hgeneration', hmoved⟩] at h
  cases h

theorem baseline_perform (hvalid : table.Valid) (op : Op O V L)
    (hentry : table.under key = some entry) (hentry' : (table.perform op).under key = some entry')
    (hgeneration : entry'.generation = entry.generation) :
    Baseline (table.effects op) entry entry' := by
  rcases (evolves_perform_getD hvalid op 0).entries key entry' hentry' with
    hfresh | ⟨old, hold, hstays⟩
  · have hafter : table.generation < entry'.generation := hfresh.after
    have hissued := hvalid.generations entry (mem_of_under hentry).1
    omega
  · rw [hentry] at hold
    cases hold
    exact hstays.baseline

/-- No entry of the generation is there. -/
def Absent (table : CovTable O) (key : CovSubscriptionKey) (generation : ℕ) : Prop :=
  ∀ entry, table.under key = some entry → entry.generation ≠ generation

theorem Absent.perform (hvalid : table.Valid) (hgiven : generation ≤ table.generation)
    (h : table.Absent key generation) (op : Op O V L) :
    (table.perform op).Absent key generation := by
  intro entry' hentry' hgeneration
  rcases (evolves_perform_getD hvalid op 0).entries key entry' hentry' with
    hfresh | ⟨entry, hentry, hstays⟩
  · have hafter : table.generation < entry'.generation := hfresh.after
    omega
  · exact h entry hentry (hstays.generation.symm.trans hgeneration)

/-- Within a generation the tickets of the commits rise, from the entry's own on. -/
theorem commits_rise (key : CovSubscriptionKey) (generation : ℕ) (ops : List (Op O V L)) :
    ∀ {table : CovTable O}, table.Valid →
      (commits key generation table ops).Pairwise (fun first second => first.1 < second.1) ∧
        (∀ entry, table.under key = some entry → entry.generation = generation →
          ∀ commit ∈ commits key generation table ops, entry.lastSuccessfulTicket < commit.1) ∧
        (generation ≤ table.generation → table.Absent key generation →
          commits key generation table ops = []) := by
  induction ops with
  | nil =>
    intro table _
    exact ⟨.nil, fun _ _ _ _ h => absurd h List.not_mem_nil, fun _ _ => rfl⟩
  | cons op ops ih =>
    intro table hvalid
    obtain ⟨hrise, hpast, hgone⟩ := ih (valid_perform hvalid op)
    have hlater := (evolves_perform_getD hvalid op 0).generation
    unfold commits
    cases hcommitted : committed key generation table (table.perform op) with
    | none =>
      rw [Option.toList_none, List.nil_append]
      refine ⟨hrise, ?_, ?_⟩
      · intro entry hentry hgeneration commit hcommit
        have hgiven := hvalid.generations entry (mem_of_under hentry).1
        by_cases habsent : (table.perform op).Absent key generation
        · rw [hgone (by omega) habsent] at hcommit
          exact absurd hcommit List.not_mem_nil
        · unfold Absent at habsent
          push Not at habsent
          obtain ⟨entry', hentry', hgeneration'⟩ := habsent
          rw [← ticket_of_committed_none hcommitted hentry hentry' hgeneration hgeneration']
          exact hpast entry' hentry' hgeneration' commit hcommit
      · exact fun hgiven habsent =>
          hgone (le_trans hgiven hlater) (habsent.perform hvalid hgiven op)
    | some commit =>
      obtain ⟨entry, entry', hentry, hentry', hgeneration, hgeneration', hmoved, rfl⟩ :=
        committed_some hcommitted
      have hforward : entry.lastSuccessfulTicket < entry'.lastSuccessfulTicket := by
        rcases baseline_perform hvalid op hentry hentry' (hgeneration'.trans hgeneration.symm) with
          hstayed | hforward
        · exact absurd hstayed.1 hmoved
        · exact hforward.1
      rw [Option.toList_some, List.singleton_append]
      refine ⟨List.pairwise_cons.mpr ⟨hpast entry' hentry' hgeneration', hrise⟩, ?_, ?_⟩
      · intro other hother _ commit hcommit
        rw [hentry] at hother
        cases hother
        rcases List.mem_cons.mp hcommit with rfl | hcommit
        · exact hforward
        · exact lt_trans hforward (hpast entry' hentry' hgeneration' commit hcommit)
      · exact fun _ habsent => absurd hgeneration (habsent entry hentry)

/-! ## Outcomes that come late or twice -/

/-- The table waits for this outcome. -/
def Awaited (table : CovTable O) (token : Token) (outcome : Delivery) (now : Instant) : Prop :=
  (∃ report ∈ table.pending, report.token = token) ∨
    (outcome ≠ .sent ∧ table.flightHolds token.flight token.ticket now = true)

theorem deliverUnconfirmed_none (h : ∀ report ∈ table.pending, report.token ≠ token)
    (outcome : Delivery) (now : Instant) : table.deliverUnconfirmed token outcome now = none := by
  unfold deliverUnconfirmed
  have hnone : (table.pending.findIdx? fun report => report.token == token) = none := by
    rw [List.findIdx?_eq_none_iff]
    intro report hreport
    exact beq_eq_false_iff_ne.mpr (h report hreport)
  rw [hnone]

variable {outcome : Delivery}

theorem delivered_stale (h : ¬ table.Awaited token outcome now) :
    table.delivered token outcome now = ([], table) := by
  unfold Awaited at h
  push Not at h
  obtain ⟨hpending, hholds⟩ := h
  unfold delivered
  rw [deliverUnconfirmed_none hpending]
  dsimp only
  split
  · rfl
  rename_i state hstate
  by_cases hsent : outcome = .sent
  · rw [if_pos (.inr (.inr hsent))]
  · have hstale := hholds hsent
    unfold flightHolds at hstale
    rw [hstate, Option.any_some, ne_eq, Bool.and_eq_true, beq_iff_eq, not_and] at hstale
    by_cases hticket : state.ticket = token.ticket
    · have hover := hstale hticket
      rw [if_pos (.inr (.inl (by simpa using hover)))]
    · rw [if_pos (.inl hticket)]

theorem ticket_ne_zero (h : table.flightHolds flight ticket now = true) : ticket ≠ 0 := by
  unfold flightHolds FlightState.outstanding at h
  rw [Option.any_eq_true] at h
  obtain ⟨state, _, hmatch⟩ := h
  rw [Bool.and_eq_true, Bool.and_eq_true, beq_iff_eq, bne_iff_ne] at hmatch
  exact hmatch.1 ▸ hmatch.2.1

/-- The report under `token` is no more. -/
structure Ended (token : Token) (table : CovTable O) : Prop where
  pending : ∀ report ∈ table.pending, report.token ≠ token
  flights : ∀ state, table.flights.get token.flight = some state → state.ticket ≠ token.ticket

theorem Ended.not_awaited (h : Ended token table) (outcome : Delivery) (now : Instant) :
    ¬ table.Awaited token outcome now := by
  rintro (⟨report, hreport, htoken⟩ | ⟨_, hholds⟩)
  · exact h.pending report hreport htoken
  · unfold flightHolds at hholds
    rw [Option.any_eq_true] at hholds
    obtain ⟨state, hstate, hmatch⟩ := hholds
    rw [Bool.and_eq_true, beq_iff_eq] at hmatch
    exact h.flights state hstate hmatch.1

theorem ended_delivered (hvalid : table.Valid)
    (hpending : ∀ report ∈ table.pending, report.token ≠ token) (houtcome : outcome ≠ .sent)
    (hholds : table.flightHolds token.flight token.ticket now = true) :
    Ended token (table.delivered token outcome now).2 := by
  unfold flightHolds at hholds
  rw [Option.any_eq_true] at hholds
  obtain ⟨state, hstate, hmatch⟩ := hholds
  rw [Bool.and_eq_true, beq_iff_eq] at hmatch
  obtain ⟨hticket, houtstanding⟩ := hmatch
  have heq : table.delivered token outcome now = table.endConfirmed state token outcome now := by
    unfold delivered
    rw [deliverUnconfirmed_none hpending, hstate]
    dsimp only
    rw [if_neg (by simp [hticket, houtstanding, houtcome])]
  have hend : Evolves now { Effects.none with commits := fun _ _ _ => True } table
        (table.endConfirmed state token outcome now).2 ∧
      (table.endConfirmed state token outcome now).2.pending = table.pending ∧
      ∀ marked, (table.endConfirmed state token outcome now).2.flights.get token.flight
        = some marked → marked.ticket = 0 :=
    evolves_endConfirmed hvalid fun _ _ _ _ _ => trivial
  obtain ⟨-, hsame, hzero⟩ := hend
  rw [heq]
  refine ⟨?_, ?_⟩
  · rw [hsame]
    exact hpending
  · intro marked hmarked hagain
    unfold FlightState.outstanding at houtstanding
    simp [hticket, ← hagain, hzero marked hmarked] at houtstanding

/-- No call of `ops` begins a report under `token`. -/
def Unbegun (token : Token) (table : CovTable O) (ops : List (Op O V L)) : Prop :=
  ∀ middle call rest, ops = middle ++ call :: rest → ∀ confirmed completion,
    ¬ (table.performAll middle).Begins call token confirmed completion

theorem ended_performAll (hticket : token.ticket ≠ 0) (ops : List (Op O V L)) :
    ∀ {table : CovTable O}, table.Valid → Ended token table → Unbegun token table ops →
      Ended token (table.performAll ops) := by
  induction ops with
  | nil => exact fun _ h _ => h
  | cons op ops ih =>
    intro table hvalid h hunbegun
    have hnot := hunbegun [] op ops rfl
    have hstep := evolves_perform_getD hvalid op 0
    refine ih (valid_perform hvalid op) ⟨?_, ?_⟩ ?_
    · intro report hreport htoken
      rcases hstep.pending report hreport with hold | ⟨now, _, htaken⟩
      · exact h.pending report hold htoken
      · exact hnot false report.completion (htoken ▸ htaken.begins)
    · intro state' hstate' hsame
      rcases hstep.flights _ state' hstate' (hsame ▸ hticket) with
        ⟨state, hstate, hreport⟩ | ⟨now, _, _, hne, htaken⟩
      · exact h.flights state hstate (hreport.ticket.symm.trans hsame)
      · obtain ⟨completion, hcompletion⟩ := List.exists_mem_of_ne_nil _ hne
        have hbegins := (htaken completion hcompletion).begins
        rw [hsame] at hbegins
        exact hnot true completion hbegins
    · rintro middle call rest rfl
      exact hunbegun (op :: middle) call rest rfl

/-! ## The claim on every run -/

/-- In every run the baseline of an entry stays, is forgotten by a Multiple renewal, or moves forward
under an authorised commit; the tickets of one generation's commits rise; a flight carries one report
at most; and outcomes the table does not wait for change nothing, those of an ended report among
them. -/
theorem cov_baselines_move_forward (id : ℕ) (policy : CovPolicy) (ops : List (Op O V L)) :
    (∀ op key entry entry', ((new id policy).performAll ops).under key = some entry →
      (((new id policy).performAll ops).perform op).under key = some entry' →
      entry'.generation = entry.generation →
      (entry'.lastSuccessfulTicket = entry.lastSuccessfulTicket ∧
          (entry'.baseline = entry.baseline ∨ entry'.baseline = none ∧
            ∃ context route expiresAt delay maxApdu subscriptions now,
              op = .subscribeMultiple context route expiresAt delay maxApdu subscriptions now)) ∨
        (entry.lastSuccessfulTicket < entry'.lastSuccessfulTicket ∧
          ∃ observation, entry'.baseline = some observation ∧
            Authorised (new id policy) ops op key entry.generation entry.flight
              entry'.lastSuccessfulTicket observation)) ∧
    (∀ key generation, (commits key generation (new id policy) ops).Pairwise
      fun first second => first.1 < second.1) ∧
    (∀ flight, (((new id policy).performAll ops).flights.filter fun pair =>
      pair.1 == flight).length ≤ 1) ∧
    (∀ token outcome now, ¬ ((new id policy).performAll ops).Awaited token outcome now →
      ((new id policy).performAll ops).delivered token outcome now
        = ([], (new id policy).performAll ops)) ∧
    (∀ token outcome now more,
      (∀ report ∈ ((new id policy).performAll ops).pending, report.token ≠ token) →
      outcome ≠ .sent →
      ((new id policy).performAll ops).flightHolds token.flight token.ticket now = true →
      Unbegun token ((new id policy).performAll (ops ++ [.delivered token outcome now])) more →
      ∀ outcome' now',
        ((new id policy).performAll (ops ++ .delivered token outcome now :: more)).delivered token
          outcome' now'
        = ([], (new id policy).performAll (ops ++ .delivered token outcome now :: more))) := by
  have hvalid := valid_performAll ops (valid_new (O := O) id policy)
  refine ⟨?_, ?_, ?_, ?_, ?_⟩
  · intro op key entry entry' hentry hentry' hgeneration
    rcases baseline_perform hvalid op hentry hentry' hgeneration with
      ⟨hticket, hbaseline⟩ | ⟨hticket, observation, hbaseline, hcommits⟩
    · exact .inl ⟨hticket, hbaseline.imp_right fun h => ⟨h.2, h.1⟩⟩
    · exact .inr ⟨hticket, observation, hbaseline,
        authorised_of_commits hentry (Nat.ne_of_gt (Nat.zero_lt_of_lt hticket)) hcommits⟩
  · exact fun key generation => (commits_rise key generation ops (valid_new id policy)).1
  · intro flight
    exact SortedArray.Sorted.length_filter_le hvalid.flightsSorted flight
  · exact fun token outcome now h => delivered_stale h
  · intro token outcome now more hpending houtcome hholds hunbegun outcome' now'
    refine delivered_stale (Ended.not_awaited ?_ outcome' now')
    have hended := ended_delivered hvalid hpending houtcome hholds
    rw [performAll_concat] at hunbegun
    rw [performAll_append]
    exact ended_performAll (ticket_ne_zero hholds) more
      (valid_perform hvalid (.delivered token outcome now : Op O V L)) hended hunbegun

/-- The entry `lasting` becomes in an empty table. -/
def lastingEntry : CovSubscriptionSnapshot Unit where
  key := .object (.direct [1]) 1 ⟨2, 1, Encoding.analogValue_le, Encoding.instanceOne_le⟩
  generation := 1
  table := 0
  lastSuccessfulTicket := 0
  flight := 1
  subscription := lasting
  maxNotificationDelay := none
  subscriberMaxApdu := none

/-- The host's own completion moves a baseline although no outcome was ever delivered. -/
theorem cov_baseline_moved_by_host :
    let before : CovTable Unit := (new 0 .initial).performAll
      ([.subscribe lasting 0] : List (Op Unit Unit Unit))
    let op : Op Unit Unit Unit := .completeObservation lastingEntry (.unconfirmed 1) () 0
    let table := before.perform (.prepareCompletion lastingEntry : Op Unit Unit Unit)
    before.subs = [lastingEntry] ∧
      (before.prepareCompletion lastingEntry).1 = some (.unconfirmed 1) ∧
      (table.under lastingEntry.key).map (fun entry => (entry.generation, entry.baseline))
        = some (1, none) ∧
      ((table.perform op).under lastingEntry.key).map
        (fun entry => (entry.generation, entry.baseline)) = some (1, some ()) ∧
      ¬ ∃ token now, op = .delivered token .sent now ∨ op = .delivered token .acknowledged now := by
  refine ⟨by decide +kernel, by decide +kernel, by decide +kernel, by decide +kernel, ?_⟩
  rintro ⟨token, now, h | h⟩
  · cases h
  · cases h

end CovTable

end RustyBacnet.Cov
