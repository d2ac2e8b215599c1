import RustyBacnet.Cov.Reporting

/-!
# Commits as steps

`complete` is the only writer of a baseline: it finds the entry an observation was captured from
again, under the same generation, on the report's flight, alive and behind the report's ticket
(`Behind`). `Commits` says which calls get that far and what they commit. With it every call of a
table is one step (`evolves_perform`).
-/

namespace RustyBacnet.Cov

open SortedArray (Sorted)

variable {O V L : Type}

def PreparedCovCompletion.ticket : PreparedCovCompletion → ℕ
  | .confirmed ticket => ticket
  | .unconfirmed ticket => ticket

def PreparedCovCompletion.isConfirmed : PreparedCovCompletion → Bool
  | .confirmed _ => true
  | .unconfirmed _ => false

namespace CovTable

variable {table : CovTable O} {now : Instant}

/-- `entry` is the one `completion` was captured from, on the report's flight and alive. -/
structure Behind (now : Instant) (token : Token) (entry : CovSubscriptionSnapshot O)
    (completion : Completion O) : Prop where
  key : entry.key = completion.key
  generation : entry.generation = completion.generation
  flight : entry.flight = token.flight
  alive : isExpired now entry = false

/-- The call commits `observation` to `entry` under `ticket`: a report's own end does, and the host's
own completion of an observation it delivered. -/
def Commits (table : CovTable O) :
    Op O V L → CovSubscriptionSnapshot O → ℕ → O → Prop
  | .delivered token outcome now, entry, ticket, observation =>
    ticket = token.ticket ∧ ∃ completion, completion.observation = observation ∧
      Behind now token entry completion ∧
      ((outcome = .acknowledged ∧ ∃ state, table.flights.get token.flight = some state ∧
          state.ticket = token.ticket ∧ state.outstanding now = true ∧
          completion ∈ state.completes) ∨
        (outcome = .sent ∧ ⟨token, completion⟩ ∈ table.pending))
  | .completeObservation snapshot prepared value now, entry, ticket, observation =>
    ticket = prepared.ticket ∧ observation = value ∧ table.id = snapshot.table ∧
      prepared.isConfirmed = snapshot.subscription.issueConfirmedNotifications ∧
      Behind now ⟨snapshot.flight, ticket⟩ entry (.new snapshot value) ∧
      (prepared.isConfirmed = true → table.flightHolds snapshot.flight ticket now = true)
  | _, _, _, _ => False

/-! ## Completion -/

variable {token : Token}

theorem mayComplete_iff (horder : table.Orderly) {completion : Completion O} :
    table.mayComplete token completion now = true ↔ ∃ entry,
      table.under completion.key = some entry ∧ Behind now token entry completion ∧
        entry.lastSuccessfulTicket < token.ticket := by
  unfold mayComplete
  rw [get_eq_under horder, Option.any_eq_true]
  constructor
  · rintro ⟨entry, hunder, hentry⟩
    rw [Bool.and_eq_true, Bool.and_eq_true, Bool.and_eq_true, beq_iff_eq, beq_iff_eq,
      decide_eq_true_iff] at hentry
    exact ⟨entry, hunder, ⟨(mem_of_under hunder).2, hentry.1.1.1, hentry.1.1.2,
      isExpired_eq_false_iff.mpr hentry.2⟩, hentry.1.2⟩
  · rintro ⟨entry, hunder, hbehind, hticket⟩
    refine ⟨entry, hunder, ?_⟩
    rw [Bool.and_eq_true, Bool.and_eq_true, Bool.and_eq_true, beq_iff_eq, beq_iff_eq,
      decide_eq_true_iff]
    exact ⟨⟨⟨hbehind.generation, hbehind.flight⟩, hticket⟩, isExpired_eq_false_iff.mp hbehind.alive⟩

/-- Under `key`, the entry stayed or was committed to with one of `completions`. -/
def CommittedUnder (now : Instant) (token : Token) (completions : List (Completion O))
    (table table' : CovTable O) (key : CovSubscriptionKey) : Prop :=
  ∀ entry', table'.under key = some entry' → table.under key = some entry' ∨
    ∃ entry, ∃ completion ∈ completions, table.under key = some entry ∧
      Behind now token entry completion ∧ entry.lastSuccessfulTicket < token.ticket ∧
      entry' = commitEntry token.ticket completion.observation entry

/-- A completion changes the entries alone, and one of them at most. -/
theorem complete_cases (horder : table.Orderly) (token : Token) (confirmed : Bool)
    (completion : Completion O) :
    (table.complete token confirmed completion now).2 = table ∨
      (confirmed = true → table.flightHolds token.flight token.ticket now = true) ∧
      (table.complete token confirmed completion now).2
        = { table with
            subs := SortedArray.modify (·.key) table.subs completion.key
              (commitEntry token.ticket completion.observation) } ∧
      ∀ key, CommittedUnder now token [completion] table
        (table.complete token confirmed completion now).2 key := by
  unfold complete
  split
  · exact .inl rfl
  rename_i hmay
  split
  · exact .inl rfl
  rename_i hholds
  rw [Bool.not_eq_true, Bool.not_eq_false', mayComplete_iff horder] at hmay
  obtain ⟨entry, hunder, hbehind, hticket⟩ := hmay
  refine .inr ⟨?_, rfl, ?_⟩
  · rintro rfl
    simpa using hholds
  intro key entry' hentry'
  unfold under at hentry' hunder
  have hkeys : ∀ entry : CovSubscriptionSnapshot O,
      (commitEntry token.ticket completion.observation entry).key = entry.key := fun _ => rfl
  rw [SortedArray.entry_modify hkeys horder.sorted] at hentry'
  split_ifs at hentry' with hkey
  · rw [hunder] at hentry'
    cases hentry'
    rw [hkey]
    exact .inr ⟨entry, completion, List.mem_singleton.mpr rfl, hunder, hbehind, hticket, rfl⟩
  · exact .inl hentry'

/-- What the completions of one report leave: entries committed to at most once, and everything else
as it was. -/
structure Completed (now : Instant) (token : Token) (completions : List (Completion O))
    (table table' : CovTable O) : Prop where
  orderly : table'.Orderly
  rest : table' = { table with subs := table'.subs }
  entries : ∀ key, CommittedUnder now token completions table table' key

theorem Completed.refl (horder : table.Orderly) (token : Token) (completions : List (Completion O)) :
    Completed now token completions table table :=
  ⟨horder, rfl, fun _ _ h => .inl h⟩

theorem completed_complete (horder : table.Orderly) (token : Token) (confirmed : Bool)
    (completion : Completion O) :
    Completed now token [completion] table (table.complete token confirmed completion now).2 := by
  have horder' := (alike_complete table token confirmed completion now).orderly horder
  rcases complete_cases horder token confirmed completion with
    hsame | ⟨_, hrest, hentries⟩
  · rw [hsame]
    exact .refl horder token [completion]
  · refine ⟨horder', ?_, hentries⟩
    rw [hrest]

theorem Completed.trans {token : Token} {first second : List (Completion O)}
    {table table' table'' : CovTable O} (h : Completed now token first table table')
    (h' : Completed now token second table' table'') :
    Completed now token (first ++ second) table table'' := by
  refine ⟨h'.orderly, ?_, ?_⟩
  · rw [h'.rest, h.rest]
  intro key entry'' hentry''
  rcases h'.entries key entry'' hentry'' with
    hentry' | ⟨entry', completion, hmem, hentry', hbehind, hticket, hcommit⟩
  · rcases h.entries key entry'' hentry' with
      hentry | ⟨entry, completion, hmem, hentry, hbehind, hticket, hcommit⟩
    · exact .inl hentry
    · exact .inr ⟨entry, completion, List.mem_append_left _ hmem, hentry, hbehind, hticket,
        hcommit⟩
  · rcases h.entries key entry' hentry' with hentry | ⟨entry, _, _, _, _, _, hcommitted⟩
    · exact .inr ⟨entry', completion, List.mem_append_right _ hmem, hentry, hbehind, hticket,
        hcommit⟩
    · rw [hcommitted] at hticket
      exact absurd hticket (lt_irrefl _)

theorem completed_completeEach (token : Token) (completions : List (Completion O)) :
    ∀ {table : CovTable O}, table.Orderly →
      Completed now token completions table (table.completeEach token now completions).2 := by
  induction completions with
  | nil => exact fun horder => .refl horder token []
  | cons completion completions ih =>
    intro table horder
    have hfirst : Completed now token [completion] table _ :=
      completed_complete horder token true completion
    exact hfirst.trans (ih hfirst.orderly)

variable {completions : List (Completion O)} {table' : CovTable O} {E : Effects O}

/-- Commits, as a step. -/
theorem evolves_committed (hvalid : table.Valid) (horder : table'.Orderly)
    (hsorted : Sorted Prod.fst table'.flights) (hgeneration : table'.generation = table.generation)
    (hnext : table'.nextFlight = table.nextFlight)
    (hentries : ∀ key, CommittedUnder now token completions table table' key)
    (hflights : Ends E.marks table.flights table'.flights)
    (hpending : ∀ report ∈ table'.pending, report ∈ table.pending)
    (hcommits : ∀ entry, ∀ completion ∈ completions, Behind now token entry completion →
      E.commits entry token.ticket completion.observation) : Evolves now E table table' := by
  have hflight : ∀ entry' ∈ table'.subs, ∃ entry ∈ table.subs, entry.key = entry'.key ∧
      entry.flight = entry'.flight := by
    intro entry' hentry'
    rcases hentries _ entry' (horder.under_of_mem hentry') with
      hentry | ⟨entry, completion, _, hentry, _, _, hcommit⟩
    · exact ⟨entry', (mem_of_under hentry).1, rfl, rfl⟩
    · refine ⟨entry, (mem_of_under hentry).1, ?_, ?_⟩
      · rw [hcommit]
        rfl
      · rw [hcommit]
        rfl
  refine ⟨horder, ?_, hsorted, le_of_eq hgeneration.symm, le_of_eq hnext.symm, ?_, hflights,
    fun report hreport => .inl (hpending report hreport)⟩
  · intro entry' hentry' other' hother'
    obtain ⟨entry, hentry, hkey, hsame⟩ := hflight entry' hentry'
    obtain ⟨other, hother, hkey', hsame'⟩ := hflight other' hother'
    rw [← hkey, ← hkey', ← hsame, ← hsame']
    exact hvalid.shared entry hentry other hother
  · intro key entry' hentry'
    rcases hentries key entry' hentry' with
      hentry | ⟨entry, completion, hmem, hentry, hbehind, hticket, rfl⟩
    · exact .inr ⟨entry', hentry, rfl, .inl rfl, fun h => h, .inl ⟨rfl, .inl rfl⟩⟩
    · exact .inr ⟨entry, hentry, rfl, .inl rfl, fun h => h,
        .inr ⟨hticket, completion.observation, rfl, hcommits entry completion hmem hbehind⟩⟩

theorem CommittedUnder.congr {start table final : CovTable O} (hsubs : table.subs = start.subs)
    (hsubs' : final.subs = table'.subs) {key : CovSubscriptionKey}
    (h : CommittedUnder now token completions table table' key) :
    CommittedUnder now token completions start final key := by
  unfold CommittedUnder at h ⊢
  rwa [under_congr hsubs, under_congr hsubs'.symm] at h

theorem evolves_completeObservation (hvalid : table.Valid) (snapshot : CovSubscriptionSnapshot O)
    (prepared : PreparedCovCompletion) (value : O) (now : Instant) :
    Evolves now
      { Effects.none with
        commits := table.Commits (.completeObservation snapshot prepared value now : Op O V L) }
      table (table.completeObservation snapshot prepared value now).2 := by
  have heq : table.completeObservation snapshot prepared value now
      = if table.id != snapshot.table then (false, table)
        else if prepared.isConfirmed != snapshot.subscription.issueConfirmedNotifications then
          (false, table)
        else table.complete ⟨snapshot.flight, prepared.ticket⟩ prepared.isConfirmed
          (.new snapshot value) now := by
    cases prepared with
    | confirmed ticket => rfl
    | unconfirmed ticket => rfl
  rw [heq]
  split_ifs with htable hkind
  · exact .refl hvalid
  · exact .refl hvalid
  rw [bne_iff_ne, not_not] at htable hkind
  rcases complete_cases hvalid.toOrderly ⟨snapshot.flight, prepared.ticket⟩ prepared.isConfirmed
    (.new snapshot value) with hsame | ⟨hholds, _, _⟩
  · rw [hsame]
    exact .refl hvalid
  · have hcompleted : Completed now _ _ table _ := completed_complete hvalid.toOrderly
      ⟨snapshot.flight, prepared.ticket⟩ prepared.isConfirmed (.new snapshot value)
    refine evolves_committed hvalid hcompleted.orderly ?_ ?_ ?_ hcompleted.entries ?_ ?_ ?_
    · rw [hcompleted.rest]
      exact hvalid.flightsSorted
    · rw [hcompleted.rest]
    · rw [hcompleted.rest]
    · rw [hcompleted.rest]
      exact .refl _
    · rw [hcompleted.rest]
      exact fun _ h => h
    intro entry completion hcompletion hbehind
    rw [List.mem_singleton.mp hcompletion] at hbehind ⊢
    exact ⟨rfl, rfl, htable, hkind, hbehind, hholds⟩

/-! ## Ends -/

theorem mem_swapRemove {α : Type} {xs : List α} {index : ℕ} {x : α}
    (h : x ∈ swapRemove xs index) : x ∈ xs := by
  unfold swapRemove at h
  split at h
  · exact h
  rename_i last hlast
  rcases List.mem_or_eq_of_mem_set (List.dropLast_subset _ h) with hold | rfl
  · exact hold
  · exact List.mem_of_getLast? hlast

theorem quiet_pending (now : Instant) (hvalid : table.Valid) {pending : List (Pending O)}
    (h : ∀ report ∈ pending, report ∈ table.pending) : Quiet now table { table with pending } :=
  .of_subs hvalid ⟨hvalid.sorted, hvalid.due⟩ hvalid.flightsSorted rfl (le_refl _) (le_refl _)
    (.refl _) fun report hreport => .inl (h report hreport)

variable {outcome : Delivery}

theorem evolves_deliverUnconfirmed (hvalid : table.Valid) {ended : CovTable O}
    (h : table.deliverUnconfirmed token outcome now = some ended) :
    Evolves now
      { Effects.none with
        commits := table.Commits (.delivered token outcome now : Op O V L) } table ended := by
  have horder := (alike_deliverUnconfirmed h).orderly hvalid.toOrderly
  unfold deliverUnconfirmed at h
  split at h
  · cases h
  rename_i index hindex
  have hsub : ∀ report ∈ swapRemove table.pending index, report ∈ table.pending :=
    fun _ => mem_swapRemove
  have hended := quiet_pending now hvalid hsub
  split_ifs at h with hsent
  · obtain ⟨report, hreport, rfl⟩ := Option.map_eq_some_iff.mp h
    have htoken : report.token = token := by
      obtain ⟨hlt, hfound, _⟩ := List.findIdx?_eq_some_iff_getElem.mp hindex
      rw [List.getElem?_eq_getElem hlt] at hreport
      cases hreport
      exact beq_iff_eq.mp hfound
    have hcompleted : Completed now token [report.completion] _ _ :=
      completed_complete (hended.valid hvalid).toOrderly token false report.completion
    refine evolves_committed hvalid horder ?_ ?_ ?_
      (fun key => (hcompleted.entries key).congr rfl rfl) ?_ ?_ ?_
    · rw [hcompleted.rest]
      exact hvalid.flightsSorted
    · rw [hcompleted.rest]
    · rw [hcompleted.rest]
    · rw [hcompleted.rest]
      exact .refl _
    · rw [hcompleted.rest]
      exact hsub
    intro entry completion hcompletion hbehind
    rw [List.mem_singleton.mp hcompletion] at hbehind ⊢
    refine ⟨rfl, report.completion, rfl, hbehind, .inr ⟨hsent, ?_⟩⟩
    rw [← htoken]
    exact List.mem_of_getElem? hreport
  · cases h
    exact hended.mono (Effects.none_le _)

/-- A flight still marked when a report has been settled is another one. -/
theorem settle_flights (hs : Sorted Prod.fst table.flights) (token : Token) (outcome : Delivery) :
    Sorted Prod.fst (table.settle token outcome now).flights ∧
      ∀ flight state, (table.settle token outcome now).flights.get flight = some state →
        state.ticket ≠ 0 → flight ≠ token.flight ∧ table.flights.get flight = some state := by
  obtain ⟨f, hsettle, hzero⟩ : ∃ f : FlightState O → FlightState O,
      table.settle token outcome now
          = ({ table with flights := table.flights.modify token.flight f }).tidyFlight token.flight ∧
        ∀ state, (f state).ticket = 0 := by
    refine ⟨_, rfl, fun state => ?_⟩
    cases outcome with
    | sent => rfl
    | acknowledged => rfl
    | failed => rfl
    | notSent => rfl
  rw [hsettle]
  have hsorted := VecMap.sorted_modify hs token.flight f
  have hmodified : ∀ flight state, (table.flights.modify token.flight f).get flight = some state →
      state.ticket ≠ 0 → flight ≠ token.flight ∧ table.flights.get flight = some state := by
    intro flight state hget hticket
    rw [VecMap.get_modify hs] at hget
    split_ifs at hget with hflight
    · obtain ⟨old, _, rfl⟩ := Option.map_eq_some_iff.mp hget
      exact absurd (hzero old) hticket
    · exact ⟨hflight, hget⟩
  unfold tidyFlight
  split_ifs
  · refine ⟨VecMap.sorted_remove hsorted token.flight, ?_⟩
    intro flight state hget hticket
    rw [VecMap.get_remove hsorted] at hget
    split_ifs at hget
    exact hmodified flight state hget hticket
  · exact ⟨hsorted, hmodified⟩

theorem settle_rest (table : CovTable O) (token : Token) (outcome : Delivery) (now : Instant) :
    (table.settle token outcome now).subs = table.subs ∧
      (table.settle token outcome now).generation = table.generation ∧
      (table.settle token outcome now).nextFlight = table.nextFlight ∧
      (table.settle token outcome now).pending = table.pending := by
  unfold settle tidyFlight
  dsimp only
  split_ifs
  · exact ⟨rfl, rfl, rfl, rfl⟩
  · exact ⟨rfl, rfl, rfl, rfl⟩

/-- The end of a confirmed report: its completions are committed under an acknowledgment, and its
flight is marked no more. -/
theorem evolves_endConfirmed (hvalid : table.Valid) {state : FlightState O}
    (hcommits : outcome = .acknowledged → ∀ entry, ∀ completion ∈ state.completes,
      Behind now token entry completion → E.commits entry token.ticket completion.observation) :
    Evolves now E table (table.endConfirmed state token outcome now).2 ∧
      (table.endConfirmed state token outcome now).2.pending = table.pending ∧
      ∀ marked, (table.endConfirmed state token outcome now).2.flights.get token.flight
        = some marked → marked.ticket = 0 := by
  have htaken := VecMap.sorted_modify hvalid.flightsSorted token.flight
    fun state : FlightState O => { state with completes := [] }
  have hother : ∀ flight marked, flight ≠ token.flight →
      (table.flights.modify token.flight fun state => { state with completes := [] }).get flight
        = some marked → table.flights.get flight = some marked := by
    intro flight marked hflight hget
    rw [VecMap.get_modify hvalid.flightsSorted, if_neg hflight] at hget
    exact hget
  -- either way the table ends as `settled`, over the entries of `committed`
  have hsettled : ∀ {committed : CovTable O} {completions : List (Completion O)},
      Completed now token completions
        { table with
          flights := table.flights.modify token.flight fun state => { state with completes := [] } }
        committed →
      (∀ entry, ∀ completion ∈ completions, Behind now token entry completion →
        E.commits entry token.ticket completion.observation) →
      Evolves now E table (committed.settle token outcome now) ∧
        (committed.settle token outcome now).pending = table.pending ∧
        ∀ marked, (committed.settle token outcome now).flights.get token.flight = some marked →
          marked.ticket = 0 := by
    intro committed completions hcompleted hcommits
    obtain ⟨hsubs, hgeneration, hnext, hpending⟩ := settle_rest committed token outcome now
    have hflights : committed.flights = table.flights.modify token.flight fun state =>
        { state with completes := [] } := by
      rw [hcompleted.rest]
    have hpendings : committed.pending = table.pending := by
      rw [hcompleted.rest]
    have hs : Sorted Prod.fst committed.flights := by
      rw [hflights]
      exact htaken
    obtain ⟨hsorted, hmarked⟩ := settle_flights hs token outcome
    refine ⟨evolves_committed hvalid
      ((alike_settle committed token outcome now).orderly hcompleted.orderly) hsorted ?_ ?_
      (fun key => (hcompleted.entries key).congr rfl hsubs) ?_ ?_ hcommits, ?_, ?_⟩
    · rw [hgeneration, hcompleted.rest]
    · rw [hnext, hcompleted.rest]
    · intro flight marked hget hticket
      obtain ⟨hflight, hget⟩ := hmarked flight marked hget hticket
      rw [hflights] at hget
      exact .inl ⟨marked, hother flight marked hflight hget, rfl, rfl, rfl⟩
    · rw [hpending, hpendings]
      exact fun _ h => h
    · rw [hpending, hpendings]
    · intro marked hget
      by_contra hticket
      exact (hmarked _ marked hget hticket).1 rfl
  have horder : Orderly { table with
      flights := table.flights.modify token.flight fun state => { state with completes := [] } } :=
    ⟨hvalid.sorted, hvalid.due⟩
  unfold endConfirmed
  split_ifs with houtcome
  · exact hsettled (completed_completeEach token state.completes horder) (hcommits houtcome)
  · exact hsettled (.refl horder token []) fun _ _ h => absurd h List.not_mem_nil

theorem evolves_delivered (hvalid : table.Valid) (token : Token) (outcome : Delivery)
    (now : Instant) :
    Evolves now
      { Effects.none with
        commits := table.Commits (.delivered token outcome now : Op O V L) }
      table (table.delivered token outcome now).2 := by
  unfold delivered
  split
  · rename_i ended hended
    exact evolves_deliverUnconfirmed hvalid hended
  split
  · exact .refl hvalid
  rename_i state hstate
  split_ifs with hstale
  · exact .refl hvalid
  simp only [not_or, ne_eq, not_not, Bool.not_eq_true', Bool.not_eq_false] at hstale
  refine (evolves_endConfirmed hvalid ?_).1
  intro houtcome entry completion hcompletion hbehind
  exact ⟨rfl, completion, rfl, hbehind, .inl ⟨houtcome, state, hstate, hstale.1, hstale.2.1,
    hcompletion⟩⟩

theorem quiet_takeOwedContext (hvalid : table.Valid) (context : MultipleContextKey)
    (now : Instant) : Quiet now table (table.takeOwedContext context now).2 := by
  unfold takeOwedContext
  split
  · exact .refl hvalid
  split
  · exact .refl hvalid
  rename_i entry _
  split
  · exact .refl hvalid
  split
  · have hflights := quiet_flights now hvalid
      (VecMap.sorted_modify hvalid.flightsSorted entry.flight fun state =>
        { state with holdUntil := none, carried := [] })
      (.modify hvalid.flightsSorted entry.flight fun _ _ => ⟨rfl, rfl, rfl⟩)
    exact hflights.trans (quiet_tidyFlight now (hflights.valid hvalid) entry.flight)
  · exact .refl hvalid

/-! ## Every call -/

/-- What a call does: it publishes past the numbers given out, begins reports, and commits. -/
def effects (table : CovTable O) (op : Op O V L) : Effects O where
  fresh := (table.generation < ·)
  opens := (table.nextFlight < ·)
  marks := fun token deadline completes => ∃ now, op.now? = some now ∧
    deadline = some (satAdd now table.timing.deadline) ∧ completes ≠ [] ∧
    ∀ completion ∈ completes, table.Taken op now token true completion
  sends := fun report => ∃ now, op.now? = some now ∧
    table.Taken op now report.token false report.completion
  commits := table.Commits op
  forgets := ∃ context route expiresAt delay maxApdu subscriptions now,
    op = .subscribeMultiple context route expiresAt delay maxApdu subscriptions now

/-- Every call is one step. -/
theorem evolves_perform (hvalid : table.Valid) (op : Op O V L)
    (hnow : ∀ time, op.now? = some time → time = now) :
    Evolves now (table.effects op) table (table.perform op) := by
  have hquiet : ∀ {table' : CovTable O}, Quiet now table table' →
      Evolves now (table.effects op) table table' := fun h => h.mono (Effects.none_le _)
  cases op with
  | subscribe sub time =>
    cases hnow time rfl
    have hpublishes : Publishes now table False table _ := publishes_subscribe now hvalid sub
    refine hpublishes.mono ?_
    exact ⟨fun _ h => h, fun _ h => h, fun _ _ _ h => h.elim, fun _ h => h.elim,
      fun _ _ _ h => h.elim, fun h => h.elim⟩
  | subscribeMultiple context route expiresAt delay maxApdu subscriptions time =>
    cases hnow time rfl
    refine (publishes_subscribeMultiple now hvalid context route expiresAt delay maxApdu
      subscriptions).mono ?_
    exact ⟨fun _ h => h, fun _ h => h, fun _ _ _ h => h.elim, fun _ h => h.elim,
      fun _ _ _ h => h.elim,
      fun _ => ⟨context, route, expiresAt, delay, maxApdu, subscriptions, _, rfl⟩⟩
  | unsubscribe key => exact hquiet (quiet_removeInternal now hvalid key true)
  | unsubscribeCovMultipleContext context => exact hquiet (quiet_removeEach now true _ hvalid)
  | removeForObject oid => exact hquiet (quiet_removeEach now false _ hvalid)
  | removePeerSubscriptions mac network => exact hquiet (quiet_removeEach now true _ hvalid)
  | expire time =>
    cases hnow time rfl
    exact hquiet (quiet_expire _ hvalid)
  | expireAll time =>
    cases hnow time rfl
    exact hquiet (quiet_expireAll _ hvalid)
  | subscriptionsFor oid time =>
    cases hnow time rfl
    exact hquiet (quiet_expire _ hvalid)
  | evaluate subs sources budget time =>
    cases hnow time rfl
    refine (evolves_evaluate hvalid subs sources budget _).mono ?_
    exact ⟨fun _ h => h.elim, fun _ h => h.elim, fun _ _ _ h => ⟨_, rfl, h.1, h.2.1, h.2.2⟩,
      fun _ h => ⟨_, rfl, h⟩, fun _ _ _ h => h.elim, fun h => h.elim⟩
  | prepareCompletion snapshot => exact hquiet (quiet_prepareCompletion now hvalid snapshot).1
  | beginConfirmed prepared references time =>
    cases hnow time rfl
    refine evolves_beginConfirmed hvalid prepared references ?_
    intro token hok hlive hflown
    refine ⟨_, rfl, rfl, fun hnil => references_ne_nil hok (List.map_eq_nil_iff.mp hnil), ?_⟩
    intro completion hcompletion
    obtain ⟨reference, hreference, rfl⟩ := List.mem_map.mp hcompletion
    exact ⟨⟨hok, rfl, reference, hreference, rfl⟩, hlive reference hreference, hflown⟩
  | delivered token outcome time =>
    cases hnow time rfl
    refine (evolves_delivered (V := V) (L := L) hvalid token outcome _).mono ?_
    exact ⟨fun _ h => h.elim, fun _ h => h.elim, fun _ _ _ h => h.elim, fun _ h => h.elim,
      fun _ _ _ h => h, fun h => h.elim⟩
  | completeObservation snapshot prepared value time =>
    cases hnow time rfl
    refine (evolves_completeObservation (V := V) (L := L) hvalid snapshot prepared value _).mono ?_
    exact ⟨fun _ h => h.elim, fun _ h => h.elim, fun _ _ _ h => h.elim, fun _ h => h.elim,
      fun _ _ _ h => h, fun h => h.elim⟩
  | takeOwedContext context time =>
    cases hnow time rfl
    exact hquiet (quiet_takeOwedContext hvalid context _)
  | takeCounts => exact hquiet (quiet_notes now hvalid {} table.fenced table.timing)
  | takeFenced => exact hquiet (quiet_notes now hvalid table.counts {} table.timing)
  | withFlightTiming timing => exact hquiet (quiet_notes now hvalid table.counts table.fenced timing)

theorem valid_perform (hvalid : table.Valid) (op : Op O V L) : (table.perform op).Valid := by
  have hnow : ∀ time, op.now? = some time → time = op.now?.getD 0 := by
    intro time htime
    rw [htime]
    rfl
  exact (evolves_perform hvalid op hnow).valid hvalid

theorem valid_performAll (ops : List (Op O V L)) :
    ∀ {table : CovTable O}, table.Valid → (table.performAll ops).Valid := by
  induction ops with
  | nil => exact fun hvalid => hvalid
  | cons op ops ih => exact fun hvalid => ih (valid_perform hvalid op)

end CovTable

end RustyBacnet.Cov
