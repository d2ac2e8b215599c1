import RustyBacnet.Cov.Publishing

/-!
# Reports as steps

What `beginConfirmed` and `evaluate` begin, and what `delivered` and `completeObservation` commit.
An observation is taken from a live entry (`Taken`), and its report keeps the entry's key and
generation with it. A commit finds that entry again: same generation, on the report's flight, alive,
and behind the report's ticket (`Commit`).
-/

namespace RustyBacnet.Cov

open SortedArray (Sorted)

variable {O V L : Type}

namespace CovTable

variable {table : CovTable O} {now : Instant}

/-! ## Taking observations -/

/-- The entry a completion was captured from is in the table, alive. -/
def Live (table : CovTable O) (now : Instant) (completion : Completion O) : Prop :=
  ∃ entry, table.under completion.key = some entry ∧ entry.generation = completion.generation ∧
    isExpired now entry = false

/-- The flight of a token is an entry's. -/
def Flown (table : CovTable O) (token : Token) : Prop :=
  ∃ entry ∈ table.subs, entry.flight = token.flight

theorem isExpired_eq_false_iff {entry : CovSubscriptionSnapshot O} :
    isExpired now entry = false ↔
      (CovTimeRemaining.at_ entry.expiresAt now).wireSeconds.isSome = true := by
  rw [CovTimeRemaining.isSome_wireSeconds]
  unfold isExpired
  cases entry.expiresAt with
  | none => simp
  | some expires => simp

variable {snapshot : CovSubscriptionSnapshot O}

theorem live_of_isCurrent (hvalid : table.Valid) (h : table.isCurrent snapshot now = true) :
    ∃ entry, table.under snapshot.key = some entry ∧ entry.generation = snapshot.generation ∧
      entry.flight = snapshot.flight ∧ isExpired now entry = false := by
  unfold isCurrent remainingLifetime liveEntry at h
  split_ifs at h
  · simp at h
  · rw [get_eq_under hvalid.toOrderly] at h
    cases hunder : table.under snapshot.key with
    | none =>
      rw [hunder] at h
      simp at h
    | some entry =>
      rw [hunder] at h
      simp only [Option.filter_some] at h
      split_ifs at h with hmatch
      · rw [Bool.and_eq_true, beq_iff_eq, beq_iff_eq] at hmatch
        refine ⟨entry, rfl, hmatch.1, hmatch.2, isExpired_eq_false_iff.mpr ?_⟩
        simpa using h
      · simp at h

/-- The observations of a report that gathers, each from a live entry. -/
theorem gather_ok (hvalid : table.Valid) (references : List (CovSubscriptionSnapshot O × O)) :
    ∀ {carried gathered : Carried O}, table.gather now references carried = .ok gathered →
      gathered.completes
          = carried.completes ++ references.map (fun reference => .new reference.1 reference.2) ∧
        (∀ reference ∈ references, table.Live now (.new reference.1 reference.2)) ∧
        (∀ flight, gathered.flight = some flight → carried.flight = some flight ∨
          ∃ entry ∈ table.subs, entry.flight = flight) := by
  induction references with
  | nil =>
    intro carried gathered h
    cases h
    exact ⟨(List.append_nil _).symm, fun _ h => absurd h List.not_mem_nil, fun _ h => .inl h⟩
  | cons reference references ih =>
    obtain ⟨snapshot, observation⟩ := reference
    intro carried gathered h
    unfold gather at h
    split at h
    · cases h
    rename_i hcurrent
    split at h
    · cases h
    split at h
    · cases h
    rename_i current hget
    obtain ⟨hcompletes, hlive, hflight⟩ := ih h
    rw [Bool.not_eq_true, Bool.not_eq_false'] at hcurrent
    obtain ⟨entry, hunder, hgeneration, _, halive⟩ := live_of_isCurrent hvalid hcurrent
    refine ⟨?_, ?_, ?_⟩
    · rw [hcompletes, List.append_assoc]
      rfl
    · intro other hother
      rcases List.mem_cons.mp hother with rfl | hother
      · exact ⟨entry, hunder, hgeneration, halive⟩
      · exact hlive other hother
    · intro flight hgathered
      rcases hflight flight hgathered with hcarried | hentry
      · cases hbefore : carried.flight with
        | some known =>
          rw [hbefore] at hcarried
          exact .inl hcarried
        | none =>
          rw [hbefore] at hcarried
          rw [get_eq_under hvalid.toOrderly] at hget
          exact .inr ⟨current, (mem_of_under hget).1, Option.some.inj hcarried⟩
      · exact .inr hentry

/-- The report under `token` is one the evaluation handed out, and carries the observation it decided
on for the subscription at the report's place. -/
def Handed (reports : List (CovReport L)) (subs : List (CovSubscriptionSnapshot O))
    (sources : Sources O V L) (token : Token) (confirmed : Bool) (completion : Completion O) :
    Prop :=
  ∃ report ∈ reports, report.token = token ∧ ∃ sub values observation,
    subs[report.index]? = some sub ∧ sources.decided report.index = some (values, observation) ∧
      sub.subscription.issueConfirmedNotifications = confirmed ∧
      completion = .new sub observation

/-- The call begins a report under `token` that carries `completion`. -/
def Begins (table : CovTable O) : Op O V L → Token → Bool → Completion O → Prop
  | .beginConfirmed prepared references now, token, confirmed, completion =>
    (table.beginConfirmed prepared references now).1 = .ok token ∧ confirmed = true ∧
      ∃ reference ∈ references, completion = .new reference.1 reference.2
  | .evaluate subs sources budget now, token, confirmed, completion =>
    Handed (table.evaluate subs sources budget now).1 subs sources token confirmed completion
  | _, _, _, _ => False

/-- A report begun: its observation is of a live entry, and its flight is an entry's. -/
structure Taken (table : CovTable O) (op : Op O V L) (now : Instant) (token : Token)
    (confirmed : Bool) (completion : Completion O) : Prop where
  begins : table.Begins op token confirmed completion
  live : table.Live now completion
  flown : table.Flown token

/-! ## Confirmed reports begin -/

variable {E : Effects O}

theorem evolves_markOutstanding (hvalid : table.Valid) (flight ticket : ℕ) (carried : Carried O)
    (hmarks : E.marks ⟨flight, ticket⟩ (some (satAdd now table.timing.deadline)) carried.completes)
    : Evolves now E table (table.markOutstanding flight ticket carried now) := by
  have halike : Alike table (table.markOutstanding flight ticket carried now) :=
    ⟨rfl, rfl, rfl, rfl, dueNoLater_dueBy table _⟩
  have hflights : (table.markOutstanding flight ticket carried now).flights
      = table.flights.orDefault flight fun state =>
        { state with
          ticket
          deadline := some (satAdd now table.timing.deadline)
          carried := carried.keys
          completes := carried.completes } := rfl
  refine .of_subs hvalid (halike.orderly hvalid.toOrderly) ?_ rfl (le_refl _) (le_refl _) ?_
    fun _ h => .inl h
  · rw [hflights]
    exact VecMap.sorted_orDefault hvalid.flightsSorted _ _
  intro other state' hget _
  rw [hflights, VecMap.get_orDefault hvalid.flightsSorted] at hget
  split_ifs at hget with hother
  · cases hget
    rw [hother]
    exact .inr hmarks
  · exact .inl ⟨state', hget, rfl, rfl, rfl⟩

/-- A refused report leaves the table as it was; a begun one is marked with what it carries. -/
theorem beginConfirmed_cases (hvalid : table.Valid) (prepared : PreparedCovCompletion)
    (references : List (CovSubscriptionSnapshot O × O)) :
    (table.beginConfirmed prepared references now).2 = table ∨
      ∃ flight ticket carried, prepared = .confirmed ticket ∧
        table.beginConfirmed prepared references now
          = (.ok ⟨flight, ticket⟩, table.markOutstanding flight ticket carried now) ∧
        carried.completes
          = references.map (fun reference => .new reference.1 reference.2) ∧
        (∀ reference ∈ references, table.Live now (.new reference.1 reference.2)) ∧
        table.Flown ⟨flight, ticket⟩ := by
  unfold beginConfirmed
  split
  · exact .inl rfl
  rename_i ticket
  split
  · exact .inl rfl
  rename_i carried hgather
  obtain ⟨hcompletes, hlive, hflight⟩ := gather_ok hvalid references hgather
  split
  · exact .inl rfl
  rename_i flight hsome
  refine .inr ⟨flight, ticket, carried, rfl, rfl, hcompletes, hlive, ?_⟩
  rcases hflight flight hsome with h | h
  · cases h
  · exact h

variable {prepared : PreparedCovCompletion} {token : Token}

theorem references_ne_nil {references : List (CovSubscriptionSnapshot O × O)}
    (h : (table.beginConfirmed prepared references now).1 = .ok token) : references ≠ [] := by
  rintro rfl
  cases prepared with
  | confirmed ticket => cases h
  | unconfirmed ticket => cases h

theorem evolves_beginConfirmed (hvalid : table.Valid) (prepared : PreparedCovCompletion)
    (references : List (CovSubscriptionSnapshot O × O))
    (hmarks : ∀ token, (table.beginConfirmed prepared references now).1 = .ok token →
      (∀ reference ∈ references, table.Live now (.new reference.1 reference.2)) →
      table.Flown token → E.marks token (some (satAdd now table.timing.deadline))
        (references.map fun reference => .new reference.1 reference.2)) :
    Evolves now E table (table.beginConfirmed prepared references now).2 := by
  rcases beginConfirmed_cases hvalid prepared references with
    hsame | ⟨flight, ticket, carried, _, hbegun, hcompletes, hlive, hflown⟩
  · rw [hsame]
    exact .refl hvalid
  · have hmark := hmarks ⟨flight, ticket⟩ (by rw [hbegun]) hlive hflown
    rw [hbegun]
    refine evolves_markOutstanding hvalid flight ticket carried ?_
    rw [hcompletes]
    exact hmark

/-! ## Evaluation -/

/-- What an evaluation begins, out of the reports it hands out. -/
def evaluateEffects (now : Instant) (deadline : Instant) (begun : Token → Bool → Completion O → Prop) :
    Effects O :=
  { Effects.none with
    marks := fun token time completes =>
      time = some (satAdd now deadline) ∧ completes ≠ [] ∧
        ∀ completion ∈ completes, begun token true completion
    sends := fun report => begun report.token false report.completion }

theorem quiet_prepareCompletion (now : Instant) (hvalid : table.Valid) (snapshot : CovSubscriptionSnapshot O) :
    Quiet now table (table.prepareCompletion snapshot).2 ∧
      (table.prepareCompletion snapshot).2.subs = table.subs ∧
      (table.prepareCompletion snapshot).2.timing = table.timing := by
  unfold prepareCompletion
  split
  · exact ⟨.refl hvalid, rfl, rfl⟩
  · exact ⟨quiet_numbers now hvalid ⟨hvalid.sorted, hvalid.due⟩ rfl rfl rfl (le_refl _) (le_refl _),
      rfl, rfl⟩

variable {table' : CovTable O}

theorem prepareCompletion_some (h : table.prepareCompletion snapshot = (some prepared, table')) :
    (snapshot.subscription.issueConfirmedNotifications = true ∧
        prepared = .confirmed (table.issued + 1)) ∨
      (snapshot.subscription.issueConfirmedNotifications = false ∧
        prepared = .unconfirmed (table.issued + 1)) := by
  unfold prepareCompletion at h
  split at h
  · cases h
  · cases h
    cases hconfirmed : snapshot.subscription.issueConfirmedNotifications with
    | true => exact .inl ⟨rfl, rfl⟩
    | false => exact .inr ⟨rfl, rfl⟩

theorem Live.congr {table : CovTable O} (h : table'.subs = table.subs) {completion : Completion O}
    (hlive : table'.Live now completion) : table.Live now completion := by
  unfold Live at hlive ⊢
  rwa [under_congr h] at hlive

theorem Flown.congr {table : CovTable O} (h : table'.subs = table.subs)
    (hflown : table'.Flown token) : table.Flown token := by
  unfold Flown at hflown ⊢
  rwa [h] at hflown

variable {sub : CovSubscriptionSnapshot O}

/-- One subscription's turn begins at most its own report. -/
theorem evolves_beginReport (begun : Token → Bool → Completion O → Prop) (observation : O)
    (hvalid : table.Valid) {ticket : ℕ}
    (hkind : (sub.subscription.issueConfirmedNotifications = true ∧ prepared = .confirmed ticket) ∨
      (sub.subscription.issueConfirmedNotifications = false ∧ prepared = .unconfirmed ticket))
    (hcurrent : table.isCurrent sub now = true)
    (hbegun : ∀ token, (table.beginReport prepared sub observation now).1 = some token →
      table.Live now (.new sub observation) → table.Flown token →
      begun token sub.subscription.issueConfirmedNotifications (.new sub observation)) :
    Evolves now (evaluateEffects now table.timing.deadline begun) table
        (table.beginReport prepared sub observation now).2 ∧
      (table.beginReport prepared sub observation now).2.subs = table.subs ∧
      (table.beginReport prepared sub observation now).2.timing = table.timing := by
  obtain ⟨entry, hunder, hgeneration, hflight, halive⟩ := live_of_isCurrent hvalid hcurrent
  have hlive : table.Live now (.new sub observation) := ⟨entry, hunder, hgeneration, halive⟩
  rcases hkind with ⟨hconfirmed, rfl⟩ | ⟨hunconfirmed, rfl⟩
  · rw [hconfirmed] at hbegun
    unfold beginReport at hbegun ⊢
    have hevolves : Evolves now (evaluateEffects now table.timing.deadline begun) table
        (table.beginConfirmed (.confirmed ticket) [(sub, observation)] now).2 := by
      refine evolves_beginConfirmed hvalid (.confirmed ticket) [(sub, observation)] ?_
      intro token hok _ hflown
      refine ⟨rfl, List.cons_ne_nil _ _, fun completion hcompletion => ?_⟩
      rw [List.map_singleton, List.mem_singleton] at hcompletion
      rw [hcompletion]
      refine hbegun token ?_ hlive hflown
      generalize table.beginConfirmed (.confirmed ticket) [(sub, observation)] now = result at hok
      obtain ⟨answer, final⟩ := result
      cases hok
      rfl
    have hcases := @beginConfirmed_cases O _ now hvalid (.confirmed ticket) [(sub, observation)]
    generalize table.beginConfirmed (.confirmed ticket) [(sub, observation)] now = result
      at hevolves hcases ⊢
    have hrest : result.2.subs = table.subs ∧ result.2.timing = table.timing := by
      rcases hcases with hsame | ⟨_, _, _, _, hok, _⟩
      · rw [hsame]
        exact ⟨rfl, rfl⟩
      · rw [hok]
        exact ⟨rfl, rfl⟩
    obtain ⟨answer, final⟩ := result
    cases answer with
    | ok token => exact ⟨hevolves, hrest⟩
    | error refused => exact ⟨hevolves, hrest⟩
  · rw [hunconfirmed] at hbegun
    refine ⟨?_, rfl, rfl⟩
    refine .of_subs hvalid ⟨hvalid.sorted, hvalid.due⟩ hvalid.flightsSorted rfl (le_refl _)
      (le_refl _) (.refl _) ?_
    intro report hreport
    rcases List.mem_append.mp hreport with hold | hnew
    · exact .inl hold
    · rw [List.mem_singleton.mp hnew]
      exact .inr (hbegun ⟨sub.flight, ticket⟩ rfl hlive
        ⟨entry, (mem_of_under hunder).1, hflight⟩)

theorem evaluateEffects_quiet (now deadline : Instant) (begun : Token → Bool → Completion O → Prop)
    (entry : CovSubscriptionSnapshot O) (ticket : ℕ) (observation : O) :
    ¬ (evaluateEffects now deadline begun).commits entry ticket observation :=
  fun h => h

theorem isCurrent_congr {table : CovTable O} (hid : table'.id = table.id)
    (hsubs : table'.subs = table.subs) (snapshot : CovSubscriptionSnapshot O) :
    table'.isCurrent snapshot now = table.isCurrent snapshot now := by
  unfold isCurrent remainingLifetime liveEntry get
  rw [hid, hsubs]

theorem admitted_decided {sources : Sources O V L} {index : ℕ} {params : List UInt8}
    {observation : O} {lease : L}
    (h : table.admitted sources now index sub = some (params, observation, lease)) :
    ∃ values, sources.decided index = some (values, observation) := by
  unfold admitted at h
  split at h
  · cases h
  rename_i values decided hdecided
  split at h
  · cases h
  split at h
  · cases h
  obtain ⟨_, _, hsome⟩ := Option.map_eq_some_iff.mp h
  cases hsome
  exact ⟨values, hdecided⟩

variable {begun : Token → Bool → Completion O → Prop}

theorem evolves_evaluateOne (hvalid : table.Valid) (sources : Sources O V L) (budget : EventBudget)
    (index : ℕ) (sub : CovSubscriptionSnapshot O) (hbegun : ∀ report values observation,
      (table.evaluateOne sources now budget index sub).1 = some report → report.index = index →
      sources.decided index = some (values, observation) →
      table.Live now (.new sub observation) → table.Flown report.token →
      begun report.token sub.subscription.issueConfirmedNotifications (.new sub observation)) :
    Evolves now (evaluateEffects now table.timing.deadline begun) table
        (table.evaluateOne sources now budget index sub).2.2 ∧
      (table.evaluateOne sources now budget index sub).2.2.subs = table.subs ∧
      (table.evaluateOne sources now budget index sub).2.2.timing = table.timing := by
  have hthrottle : ∀ {table : CovTable O}, table.Valid →
      Quiet now table table.throttle := fun hvalid => quiet_notes now hvalid _ _ _
  unfold evaluateOne at hbegun ⊢
  by_cases hreach : (!table.reaches sources now index sub) = true
  · rw [if_pos hreach]
    exact ⟨.refl hvalid, rfl, rfl⟩
  rw [if_neg hreach] at hbegun ⊢
  by_cases hexhausted : budget.isExhausted = true
  · rw [if_pos hexhausted]
    exact ⟨(hthrottle hvalid).mono (Effects.none_le _), rfl, rfl⟩
  rw [if_neg hexhausted] at hbegun ⊢
  generalize hadmitted : table.admitted sources now index sub = granted at hbegun ⊢
  cases granted with
  | none => exact ⟨.refl hvalid, rfl, rfl⟩
  | some granted =>
    obtain ⟨params, observation, lease⟩ := granted
    obtain ⟨values, hdecided⟩ := admitted_decided hadmitted
    obtain ⟨hprepare, hsubs, htiming⟩ := quiet_prepareCompletion now hvalid sub
    have hid : (table.prepareCompletion sub).2.id = table.id := by
      unfold prepareCompletion
      split
      · rfl
      · rfl
    generalize hprepared : table.prepareCompletion sub = prepared
      at hbegun hprepare hsubs htiming hid ⊢
    obtain ⟨prepared, ready⟩ := prepared
    cases prepared with
    | none => exact ⟨hprepare.mono (Effects.none_le _), hsubs, htiming⟩
    | some prepared =>
      dsimp only at hbegun ⊢
      generalize budget.tryConsume
        (params.length + headerOctets sub.subscription.issueConfirmedNotifications) = spent
        at hbegun ⊢
      cases spent with
      | none =>
        have hboth := hprepare.trans (hthrottle (hprepare.valid hvalid))
        exact ⟨hboth.mono (Effects.none_le _), hsubs, htiming⟩
      | some spent =>
        have hcurrent : ready.isCurrent sub now = true := by
          rw [isCurrent_congr hid hsubs]
          unfold reaches at hreach
          simp only [Bool.not_eq_true, Bool.not_eq_false', Bool.and_eq_true] at hreach
          exact hreach.1.2
        obtain ⟨hevolves, hsubs', htiming'⟩ := evolves_beginReport begun observation
          (hprepare.valid hvalid) (prepareCompletion_some hprepared) hcurrent (by
            intro token htoken hlive hflown
            refine hbegun ⟨index, params, token, lease⟩ values observation ?_ rfl hdecided
              (hlive.congr hsubs) (hflown.congr hsubs)
            generalize ready.beginReport prepared sub observation now = result at htoken
            obtain ⟨answer, final⟩ := result
            cases htoken
            rfl)
        rw [htiming] at hevolves htiming'
        have hboth := Evolves.trans (evaluateEffects_quiet now table.timing.deadline begun)
          (hprepare.mono (Effects.none_le _)) hevolves
        dsimp only
        generalize ready.beginReport prepared sub observation now = result
          at hboth hsubs' htiming' ⊢
        obtain ⟨answer, final⟩ := result
        cases answer with
        | none => exact ⟨hboth, hsubs'.trans hsubs, htiming'⟩
        | some token => exact ⟨hboth, hsubs'.trans hsubs, htiming'⟩

/-- Every turn of an evaluation, over the subscriptions from `index` on. -/
theorem evolves_evaluateFrom (sources : Sources O V L) (now : Instant)
    {all : List (CovSubscriptionSnapshot O)} {start : CovTable O}
    (subs : List (CovSubscriptionSnapshot O)) :
    ∀ {table : CovTable O} (budget : EventBudget) (index : ℕ), table.Valid →
      table.subs = start.subs → table.timing = start.timing → all.drop index = subs →
      (∀ token confirmed completion,
        Handed (table.evaluateFrom sources now budget index subs).1 all sources token confirmed
          completion → start.Live now completion → start.Flown token →
        begun token confirmed completion) →
      Evolves now (evaluateEffects now start.timing.deadline begun) table
        (table.evaluateFrom sources now budget index subs).2.2 := by
  induction subs with
  | nil => exact fun _ _ hvalid _ _ _ _ => .refl hvalid
  | cons sub subs ih =>
    intro table budget index hvalid hsubs htiming hdrop hbegun
    have hsub : all[index]? = some sub := by
      rw [← List.head?_drop, hdrop]
      rfl
    unfold evaluateFrom at hbegun ⊢
    have hone : ∀ report values observation,
        (table.evaluateOne sources now budget index sub).1 = some report → report.index = index →
        sources.decided index = some (values, observation) →
        table.Live now (.new sub observation) → table.Flown report.token →
        begun report.token sub.subscription.issueConfirmedNotifications
          (.new sub observation) := by
      intro report values observation hreport hindex hdecided hlive hflown
      refine hbegun report.token _ _ ?_ (hlive.congr hsubs) (hflown.congr hsubs)
      refine ⟨report, ?_, rfl, sub, values, observation, ?_, ?_, rfl, rfl⟩
      · dsimp only
        rw [hreport]
        exact List.mem_append_left _ (List.mem_singleton.mpr rfl)
      · rw [hindex]
        exact hsub
      · rw [hindex]
        exact hdecided
    obtain ⟨hfirst, hsubs', htiming'⟩ := evolves_evaluateOne hvalid sources budget index sub hone
    rw [htiming] at hfirst
    refine Evolves.trans (evaluateEffects_quiet now start.timing.deadline begun) hfirst
      (ih _ (index + 1) (hfirst.valid hvalid) (hsubs'.trans hsubs) (htiming'.trans htiming) ?_ ?_)
    · rw [← List.tail_drop, hdrop]
      rfl
    · rintro token confirmed completion ⟨report, hreport, hrest⟩ hlive hflown
      exact hbegun token confirmed completion
        ⟨report, List.mem_append_right _ hreport, hrest⟩ hlive hflown

theorem quiet_prunePending (now : Instant) (hvalid : table.Valid) :
    Quiet now table (table.prunePending now) :=
  .of_subs hvalid ⟨hvalid.sorted, hvalid.due⟩ hvalid.flightsSorted rfl (le_refl _) (le_refl _)
    (.refl _) fun _ h => .inl (List.mem_of_mem_filter h)

theorem evolves_evaluate (hvalid : table.Valid) (subs : List (CovSubscriptionSnapshot O))
    (sources : Sources O V L) (budget : EventBudget) (now : Instant) :
    Evolves now (evaluateEffects now table.timing.deadline
        (table.Taken (.evaluate subs sources budget now) now)) table
      (table.evaluate subs sources budget now).2.2 := by
  by_cases hexhausted : budget.isExhausted = true
  · unfold evaluate
    rw [if_pos hexhausted]
    exact .refl hvalid
  have heq : table.evaluate subs sources budget now
      = (table.prunePending now).evaluateFrom sources now budget 0 subs := by
    unfold evaluate
    rw [if_neg hexhausted]
  have hprune := quiet_prunePending now hvalid
  rw [heq]
  refine Evolves.trans (evaluateEffects_quiet now _ _) (hprune.mono (Effects.none_le _))
    (evolves_evaluateFrom sources now subs budget 0 (hprune.valid hvalid) rfl rfl
      (show subs.drop 0 = subs from rfl) ?_)
  intro token confirmed completion hhanded hlive hflown
  refine ⟨?_, hlive, hflown⟩
  show Handed (table.evaluate subs sources budget now).1 subs sources token confirmed completion
  rw [heq]
  exact hhanded

end CovTable

end RustyBacnet.Cov
