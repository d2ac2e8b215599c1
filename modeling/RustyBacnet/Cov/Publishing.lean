import RustyBacnet.Cov.Evolution

/-!
# Admissions as steps

Both admissions, followed through their parts: they publish entries past the generations issued
before, move a context's references to one flight, kept or opened by the call, and renew only entries
that live, since each starts with an expiry pass.
-/

namespace RustyBacnet.Cov

open SortedArray (Sorted)

variable {O : Type}

namespace CovTable

variable (now : Instant) {start table : CovTable O} {forgets : Prop}

/-- A part of an admission that began at `start`. -/
abbrev Publishes (start : CovTable O) (forgets : Prop) (table table' : CovTable O) : Prop :=
  Evolves now (Effects.publishing start forgets) table table'

variable {now}

theorem Publishes.trans {table table' table'' : CovTable O}
    (h : Publishes now start forgets table table')
    (h' : Publishes now start forgets table' table'') : Publishes now start forgets table table'' :=
  Evolves.trans (fun _ _ _ h => h) h h'

variable {table' : CovTable O}

theorem Quiet.publishes {table : CovTable O} (h : Quiet now table table') :
    Publishes now start forgets table table' :=
  h.mono (Effects.none_le _)

variable (now)

/-! ## Parts that publish nothing -/

theorem quiet_numbers (hvalid : table.Valid) (horder : table'.Orderly)
    (hsubs : table'.subs = table.subs) (hflights : table'.flights = table.flights)
    (hpending : table'.pending = table.pending) (hgeneration : table.generation ≤ table'.generation)
    (hnext : table.nextFlight ≤ table'.nextFlight) : Quiet now table table' := by
  refine .of_subs hvalid horder ?_ hsubs hgeneration hnext ?_ ?_
  · rw [hflights]
    exact hvalid.flightsSorted
  · rw [hflights]
    exact .refl _
  · rw [hpending]
    exact fun _ h => .inl h

theorem quiet_reserveGenerations (hvalid : table.Valid) (count : ℕ) :
    Quiet now table (table.reserveGenerations count).2 := by
  refine quiet_numbers now hvalid
    ((alike_reserveGenerations table count).1.orderly hvalid.toOrderly)
    (alike_reserveGenerations table count).2 ?_ ?_ ?_ ?_
  all_goals
    unfold reserveGenerations
    split_ifs
  all_goals first | rfl | exact le_refl _ | exact Nat.le_add_right _ _

theorem quiet_newFlight (hvalid : table.Valid) : Quiet now table table.newFlight.2 :=
  quiet_numbers now hvalid ⟨hvalid.sorted, hvalid.due⟩ rfl rfl rfl (le_refl _)
    (Nat.le_add_right _ _)

theorem quiet_dueBy (hvalid : table.Valid) (time : Option Instant) :
    Quiet now table (table.dueBy time) := by
  have halike : Alike table (table.dueBy time) := ⟨rfl, rfl, rfl, rfl, dueNoLater_dueBy table time⟩
  exact quiet_numbers now hvalid (halike.orderly hvalid.toOrderly) rfl rfl rfl (le_refl _)
    (le_refl _)

theorem quiet_checkCaps (hvalid : table.Valid) (peer : CovRecipient) (newCount newIndefinite : ℕ) :
    Quiet now table (table.checkCaps peer newCount newIndefinite now).2 := by
  have hexpire := quiet_expire now hvalid
  have hvalid' := hexpire.valid hvalid
  unfold checkCaps
  generalize (table.expire now).2 = expired at hexpire hvalid' ⊢
  dsimp only
  split
  · exact hexpire.trans (quiet_notes now hvalid' _ _ _)
  · split
    · exact hexpire.trans (quiet_notes now hvalid' _ _ _)
    · exact hexpire

theorem quiet_checkAdmission (hvalid : table.Valid) (peer : CovRecipient) (isIndefinite : Bool)
    (existing : Option (CovSubscriptionSnapshot O)) :
    Quiet now table (table.checkAdmission peer isIndefinite existing now).2 := by
  have hexpire := quiet_expire now hvalid
  have hvalid' := hexpire.valid hvalid
  unfold checkAdmission
  generalize (table.expire now).2 = expired at hexpire hvalid' ⊢
  dsimp only
  split
  · exact hexpire.trans (quiet_notes now hvalid' _ _ _)
  · exact hexpire.trans (quiet_checkCaps now hvalid' _ _ _)

/-! ## Insertion -/

theorem insert_rest (table : CovTable O) (snapshot : CovSubscriptionSnapshot O) :
    (table.insert snapshot).generation = table.generation ∧
      (table.insert snapshot).nextFlight = table.nextFlight ∧
      (table.insert snapshot).pending = table.pending ∧
      ((table.insert snapshot).flights = table.flights ∨
        ∃ flight, (table.insert snapshot).flights = table.flights.remove flight) := by
  unfold insert
  dsimp only
  generalize SortedArray.put CovSubscriptionSnapshot.key (table.dueBy snapshot.expiresAt).subs
    snapshot = written
  obtain ⟨old, subs⟩ := written
  unfold countPublished
  cases old with
  | none => exact ⟨rfl, rfl, rfl, .inl rfl⟩
  | some old =>
    dsimp only
    split_ifs
    · unfold fenceFlight
      split
      · exact ⟨rfl, rfl, rfl, .inl rfl⟩
      · exact ⟨rfl, rfl, rfl, .inr ⟨_, rfl⟩⟩
    · exact ⟨rfl, rfl, rfl, .inl rfl⟩

/-- A snapshot the table may publish: past the generations of `start`, on a flight given out, and on
its context's if it is a reference. -/
structure Publishable (start table : CovTable O) (snapshot : CovSubscriptionSnapshot O) : Prop where
  after : start.generation < snapshot.generation
  issued : snapshot.generation ≤ table.generation
  flight : snapshot.flight ≤ table.nextFlight
  ticket : snapshot.lastSuccessfulTicket = 0
  shared : ∀ entry ∈ table.subs, snapshot.key.multipleContext.isSome = true →
    entry.key.multipleContext = snapshot.key.multipleContext → entry.flight = snapshot.flight

theorem publishes_insert (hvalid : table.Valid) {snapshot : CovSubscriptionSnapshot O}
    (hpublish : Publishable start table snapshot) :
    Publishes now start forgets table (table.insert snapshot) := by
  obtain ⟨hgeneration, hnext, hpending, hflights⟩ := insert_rest table snapshot
  refine ⟨orderly_insert hvalid.toOrderly snapshot, ?_, ?_, le_of_eq hgeneration.symm,
    le_of_eq hnext.symm, ?_, ?_, ?_⟩
  · intro entry hentry other hother hcontext hsame
    rcases mem_insert hvalid.toOrderly snapshot hentry with rfl | ⟨hold, _⟩
    · rcases mem_insert hvalid.toOrderly _ hother with rfl | ⟨hold, _⟩
      · rfl
      · exact hpublish.shared other hold hcontext hsame
    · rcases mem_insert hvalid.toOrderly snapshot hother with rfl | ⟨hold', _⟩
      · exact (hpublish.shared entry hold (hsame ▸ hcontext) hsame.symm).symm
      · exact hvalid.shared entry hold other hold' hcontext hsame
  · rcases hflights with h | ⟨flight, h⟩
    · rw [h]
      exact hvalid.flightsSorted
    · rw [h]
      exact VecMap.sorted_remove hvalid.flightsSorted flight
  · intro key entry' hentry'
    obtain ⟨hmem, rfl⟩ := mem_of_under hentry'
    rcases mem_insert hvalid.toOrderly snapshot hmem with rfl | ⟨hmem, _⟩
    · refine .inl ⟨hpublish.after, ?_, ?_, hpublish.ticket⟩
      · rw [hgeneration]
        exact hpublish.issued
      · rw [hnext]
        exact hpublish.flight
    · exact .inr ⟨entry', hvalid.under_of_mem hmem, rfl, .inl rfl, fun h => h,
        .inl ⟨rfl, .inl rfl⟩⟩
  · rcases hflights with h | ⟨flight, h⟩
    · rw [h]
      exact .refl _
    · rw [h]
      exact .remove hvalid.flightsSorted flight
  · intro report hreport
    rw [hpending] at hreport
    exact .inl hreport

variable {generation : ℕ}

theorem reserveGenerations_ok {count : ℕ} {reserved : CovTable O}
    (h : table.reserveGenerations count = (.ok generation, reserved)) :
    reserved.generation = table.generation + count ∧
      (0 < count → generation = table.generation + 1) := by
  unfold reserveGenerations at h
  split_ifs at h with hzero hpast
  · cases h
    exact ⟨by omega, fun hpos => absurd hzero (by omega)⟩
  · cases h
  · cases h
    exact ⟨rfl, fun _ => rfl⟩

/-- An ordinary or Single admission publishes one entry, on a flight of its own. -/
theorem publishes_subscribe (hvalid : table.Valid) (sub : CovSubscription O) :
    Publishes now table forgets table (table.subscribe sub now).2 := by
  unfold subscribe
  split
  · exact .refl hvalid
  rename_i key hkey
  split
  · exact .refl hvalid
  rename_i hordinary
  have hexpire := quiet_expire now hvalid
  dsimp only
  have hcheck := quiet_checkAdmission now (hexpire.valid hvalid) sub.recipient sub.expiresAt.isNone
    ((table.expire now).2.get key)
  have hchecked := hexpire.trans hcheck
  split
  · rename_i refused checked hresult
    rw [hresult] at hchecked
    exact hchecked.publishes
  rename_i checked hresult
  rw [hresult] at hchecked
  have hreserve := quiet_reserveGenerations now (hchecked.valid hvalid) 1
  have hreserved := hchecked.trans hreserve
  split
  · rename_i refused reserved hresult
    rw [hresult] at hreserved
    exact hreserved.publishes
  rename_i generation reserved hresult
  rw [hresult] at hreserved
  obtain ⟨hgeneration, hfirst⟩ := reserveGenerations_ok hresult
  rw [publish_own]
  have hflown := hreserved.trans (quiet_newFlight now (hreserved.valid hvalid))
  refine Publishes.trans hflown.publishes (publishes_insert now (hflown.valid hvalid) ?_)
  have hbefore := hchecked.generation
  dsimp only at hbefore
  refine ⟨?_, ?_, le_refl _, rfl, fun _ _ hcontext => absurd hcontext hordinary⟩
  · show table.generation < generation
    rw [hfirst Nat.one_pos]
    omega
  · show generation ≤ reserved.generation
    rw [hfirst Nat.one_pos, hgeneration]

/-! ## Multiple requests -/

/-- The references of a context are on `flight`. -/
def OnFlight (table : CovTable O) (context : MultipleContextKey) (flight : ℕ) : Prop :=
  ∀ entry ∈ table.subs, entry.key.multipleContext = some context → entry.flight = flight

theorem Refresh.entry_flight (refresh : Refresh) (entry : CovSubscriptionSnapshot O) :
    (entry.key.multipleContext = some refresh.context ∧
        (refresh.entry entry).flight = refresh.flight) ∨
      entry.key.multipleContext ≠ some refresh.context ∧ refresh.entry entry = entry := by
  unfold Refresh.entry
  split_ifs with hcontext
  · exact .inl ⟨hcontext, rfl⟩
  · exact .inr ⟨hcontext, rfl⟩

/-- A refresh moves a context's references, all alive, to its flight. -/
theorem publishes_refreshContext (hvalid : table.Valid) {refresh : Refresh}
    (hlive : ∀ entry ∈ table.subs, isExpired now entry = false)
    (hdue : ∃ due, table.nextDue = some due ∧ due ≤ refresh.expiresAt)
    (hbound : refresh.flight ≤ table.nextFlight)
    (hflight : table.OnFlight refresh.context refresh.flight ∨ start.nextFlight < refresh.flight) :
    Publishes now start forgets table (table.refreshContext refresh) ∧
      (table.refreshContext refresh).OnFlight refresh.context refresh.flight := by
  have hsubs : (table.refreshContext refresh).subs = table.subs.map refresh.entry := rfl
  have hon : (table.refreshContext refresh).OnFlight refresh.context refresh.flight := by
    intro entry hentry hcontext
    rw [hsubs] at hentry
    obtain ⟨old, _, rfl⟩ := List.mem_map.mp hentry
    rw [refresh.entry_key] at hcontext
    rcases refresh.entry_flight old with ⟨_, hmoved⟩ | ⟨hother, _⟩
    · exact hmoved
    · exact absurd hcontext hother
  refine ⟨⟨orderly_refreshContext hvalid.toOrderly hdue, ?_, hvalid.flightsSorted, le_refl _,
    le_refl _, ?_, .refl _, fun _ h => .inl h⟩, hon⟩
  · intro entry hentry other hother hcontext hsame
    by_cases hmoved : entry.key.multipleContext = some refresh.context
    · rw [hon entry hentry hmoved, hon other hother (hsame.trans hmoved)]
    · rw [hsubs] at hentry hother
      obtain ⟨old, hold, rfl⟩ := List.mem_map.mp hentry
      obtain ⟨old', hold', rfl⟩ := List.mem_map.mp hother
      rw [refresh.entry_key] at hcontext hmoved
      rw [refresh.entry_key, refresh.entry_key] at hsame
      have hkeep : ∀ {e : CovSubscriptionSnapshot O},
          e.key.multipleContext ≠ some refresh.context → refresh.entry e = e := by
        intro e he
        rcases refresh.entry_flight e with ⟨hcontext, _⟩ | ⟨_, hsame⟩
        · exact absurd hcontext he
        · exact hsame
      rw [hkeep hmoved, hkeep (hsame ▸ hmoved)]
      exact hvalid.shared old hold old' hold' hcontext hsame
  · intro key entry' hentry'
    obtain ⟨hmem, rfl⟩ := mem_of_under hentry'
    rw [hsubs] at hmem
    obtain ⟨entry, hentry, rfl⟩ := List.mem_map.mp hmem
    rw [refresh.entry_key]
    refine .inr ⟨entry, hvalid.under_of_mem hentry, ?_, ?_, ?_, .inl ⟨?_, .inl ?_⟩⟩
    · unfold Refresh.entry
      split_ifs
      · rfl
      · rfl
    · rcases refresh.entry_flight entry with ⟨hcontext, hmoved⟩ | ⟨_, hsame⟩
      · rw [hmoved]
        rcases hflight with hon | hopened
        · exact .inl (hon entry hentry hcontext).symm
        · exact .inr ⟨hopened, hbound⟩
      · exact .inl (congrArg CovSubscriptionSnapshot.flight hsame)
    · intro hexpired
      rw [hlive entry hentry] at hexpired
      cases hexpired
    · unfold Refresh.entry
      split_ifs
      · rfl
      · rfl
    · unfold Refresh.entry
      split_ifs
      · rfl
      · rfl

variable {context : MultipleContextKey} {expiresAt : Instant}

theorem publishes_publishEach (refresh : Refresh)
    (proposals : List (CovSubscriptionKey × CovSubscription O)) :
    ∀ {table : CovTable O} (generation : ℕ), table.Valid →
      (∀ proposal ∈ proposals, Proposed context expiresAt proposal) →
      table.OnFlight context refresh.flight → refresh.flight ≤ table.nextFlight →
      start.generation < generation → generation + proposals.length ≤ table.generation + 1 →
      Publishes now start forgets table (table.publishEach refresh proposals generation).2 := by
  induction proposals with
  | nil => exact fun _ hvalid _ _ _ _ _ => .refl hvalid
  | cons proposal proposals ih =>
    obtain ⟨key, sub⟩ := proposal
    intro table generation hvalid hproposed hon hbound hafter hissued
    rw [List.length_cons] at hissued
    have hkey : key.multipleContext = some context :=
      (hproposed (key, sub) List.mem_cons_self).context
    set snapshot : CovSubscriptionSnapshot O := ⟨key, generation, table.id, 0, refresh.flight, sub,
      some refresh.maxNotificationDelay, refresh.subscriberMaxApdu⟩ with hsnapshot
    have hpublish : Publishable start table snapshot := by
      refine ⟨hafter, ?_, hbound, rfl, ?_⟩
      · show generation ≤ table.generation
        omega
      · intro entry hentry _ hsame
        exact hon entry hentry (hsame.trans hkey)
    have hfirst : Publishes now start forgets table (table.insert snapshot) :=
      publishes_insert now hvalid hpublish
    obtain ⟨hgeneration, hnext, _⟩ := insert_rest table snapshot
    have hon' : (table.insert snapshot).OnFlight context refresh.flight := by
      intro entry hentry hcontext
      rcases mem_insert hvalid.toOrderly snapshot hentry with rfl | ⟨hold, _⟩
      · rfl
      · exact hon entry hold hcontext
    refine hfirst.trans (ih (generation + 1) (hfirst.valid hvalid)
      (fun p hp => hproposed p (List.mem_cons_of_mem _ hp)) hon' ?_ (Nat.lt_succ_of_lt hafter) ?_)
    · rw [hnext]
      exact hbound
    · rw [hgeneration]
      omega

/-- Fencing a context's replaced flight forgets baselines and ends its report. -/
theorem publishes_fenceContextFlight (hvalid : table.Valid) (context : MultipleContextKey)
    (replaced : ℕ) (listed : List CovSubscriptionKey) :
    Publishes now start True table (table.fenceContextFlight context replaced listed now) := by
  have hforget : ∀ carried, Publishes now start True table
      { table with subs := table.subs.map (forget context carried listed) } := by
    intro carried
    have halike : Alike table
        { table with subs := table.subs.map (forget context carried listed) } := by
      refine ⟨?_, rfl, rfl, rfl, .refl _⟩
      rw [List.map_map]
      exact List.map_congr_left fun entry _ => forget_face context carried listed entry
    have hfields : ∀ entry : CovSubscriptionSnapshot O,
        (forget context carried listed entry).key = entry.key ∧
          (forget context carried listed entry).generation = entry.generation ∧
          (forget context carried listed entry).flight = entry.flight ∧
          (forget context carried listed entry).expiresAt = entry.expiresAt ∧
          (forget context carried listed entry).lastSuccessfulTicket
            = entry.lastSuccessfulTicket ∧
          ((forget context carried listed entry).baseline = entry.baseline ∨
            (forget context carried listed entry).baseline = none) := by
      intro entry
      unfold forget
      split_ifs
      · exact ⟨rfl, rfl, rfl, rfl, rfl, .inr rfl⟩
      · exact ⟨rfl, rfl, rfl, rfl, rfl, .inl rfl⟩
    refine ⟨halike.orderly hvalid.toOrderly, ?_, hvalid.flightsSorted, le_refl _, le_refl _, ?_,
      .refl _, fun _ h => .inl h⟩
    · intro entry hentry other hother hcontext hsame
      obtain ⟨old, hold, rfl⟩ := List.mem_map.mp hentry
      obtain ⟨old', hold', rfl⟩ := List.mem_map.mp hother
      rw [(hfields old).1] at hcontext hsame
      rw [(hfields old').1] at hsame
      rw [(hfields old).2.2.1, (hfields old').2.2.1]
      exact hvalid.shared old hold old' hold' hcontext hsame
    · intro key entry' hentry'
      obtain ⟨hmem, rfl⟩ := mem_of_under hentry'
      obtain ⟨entry, hentry, rfl⟩ := List.mem_map.mp hmem
      obtain ⟨hkey, hgeneration, hflight, hexpires, hticket, hbaseline⟩ := hfields entry
      rw [hkey]
      refine .inr ⟨entry, hvalid.under_of_mem hentry, hgeneration, .inl hflight, ?_,
        .inl ⟨hticket, hbaseline.imp_right fun h => ⟨trivial, h⟩⟩⟩
      unfold isExpired
      rw [hexpires]
      exact fun h => h
  unfold fenceContextFlight
  split
  · exact (quiet_fenceFlight now hvalid replaced).publishes
  · rename_i carried _
    have hforgot := hforget carried
    have hnoted := hforgot.trans (quiet_notes now (hforgot.valid hvalid) table.counts
      { table.fenced with
        revisit := table.fenced.revisit ++
          ((table.subs.map (forget context carried listed)).filter
            fun entry => entry.key.multipleContext == some context).map (·.key) }
      table.timing).publishes
    exact hnoted.trans (quiet_fenceFlight now (hnoted.valid hvalid) replaced).publishes

theorem contextFlight_cases (hvalid : table.Valid) (hstart : start.nextFlight ≤ table.nextFlight)
    (context : MultipleContextKey) (route : SubscriberEndpoint) (listsReferences : Bool) :
    Quiet now table (table.contextFlight context route listsReferences now).2 ∧
      (table.contextFlight context route listsReferences now).2.subs = table.subs ∧
      (table.contextFlight context route listsReferences now).2.generation = table.generation ∧
      (table.contextFlight context route listsReferences now).1.1
        ≤ (table.contextFlight context route listsReferences now).2.nextFlight ∧
      (table.OnFlight context (table.contextFlight context route listsReferences now).1.1 ∨
        start.nextFlight < (table.contextFlight context route listsReferences now).1.1) := by
  have hopened : start.nextFlight < table.newFlight.1 := by
    show start.nextFlight < table.nextFlight + 1
    omega
  unfold contextFlight
  split
  · rename_i entry hhead
    obtain ⟨hentry, hcontext⟩ := List.mem_filter.mp (List.mem_of_mem_head? hhead)
    have hcontext := beq_iff_eq.mp hcontext
    split_ifs
    · refine ⟨.refl hvalid, rfl, rfl, hvalid.flightNumbers entry hentry, .inl ?_⟩
      intro other hother hsame
      refine hvalid.shared entry hentry other hother ?_ (hsame.trans hcontext.symm)
      rw [hcontext]
      rfl
    · exact ⟨quiet_newFlight now hvalid, rfl, rfl, le_refl _, .inr hopened⟩
  · exact ⟨quiet_newFlight now hvalid, rfl, rfl, le_refl _, .inr hopened⟩

variable {proposals : List (CovSubscriptionKey × CovSubscription O)} {route : SubscriberEndpoint}

/-- The admitted part of a request. -/
theorem publishes_commitMultiple (hvalid : table.Valid) (maxNotificationDelay : UInt32)
    (subscriberMaxApdu : Option UInt16)
    (hproposed : ∀ proposal ∈ proposals, Proposed context expiresAt proposal)
    (hlive : ∀ entry ∈ table.subs, isExpired now entry = false)
    (hnext : start.nextFlight ≤ table.nextFlight)
    (hafter : proposals = [] ∨ start.generation < generation)
    (hissued : generation + proposals.length ≤ table.generation + 1 ∨ proposals = []) :
    Publishes now start True table
      (table.commitMultiple context route expiresAt maxNotificationDelay subscriberMaxApdu
        proposals generation now).2 := by
  obtain ⟨hflown, hsubs, hgeneration, hbound, hflight⟩ :=
    contextFlight_cases now hvalid hnext context route (!proposals.isEmpty)
  unfold commitMultiple
  generalize table.contextFlight context route (!proposals.isEmpty) now = chosen
    at hflown hsubs hgeneration hbound hflight ⊢
  obtain ⟨⟨flight, replaced⟩, flown⟩ := chosen
  dsimp only at hflown hsubs hgeneration hbound hflight ⊢
  generalize flown.keptMaxApdu context subscriberMaxApdu = maxApdu
  set refresh : Refresh := ⟨context, route, expiresAt, maxNotificationDelay, maxApdu, flight⟩
  have hnoted := hflown.trans (quiet_dueBy now (hflown.valid hvalid) (some expiresAt))
  have hdue : ∃ due, (flown.dueBy (some expiresAt)).nextDue = some due ∧
      due ≤ refresh.expiresAt := earliest_pair_le _
  have hlive' : ∀ entry ∈ (flown.dueBy (some expiresAt)).subs, isExpired now entry = false := by
    intro entry hentry
    exact hlive entry (hsubs ▸ hentry)
  have hon : (flown.dueBy (some expiresAt)).OnFlight refresh.context refresh.flight ∨
      start.nextFlight < refresh.flight := by
    refine hflight.imp_left fun hon entry hentry => hon entry ?_
    exact hsubs ▸ hentry
  obtain ⟨hrefreshed, honRefreshed⟩ : Publishes now start True (flown.dueBy (some expiresAt))
      ((flown.dueBy (some expiresAt)).refreshContext refresh) ∧ _ :=
    publishes_refreshContext now (hnoted.valid hvalid) hlive' hdue hbound hon
  have hall : Publishes now start True table
      ((flown.dueBy (some expiresAt)).refreshContext refresh) :=
    hnoted.publishes.trans hrefreshed
  have heach : Publishes now start True table
      (((flown.dueBy (some expiresAt)).refreshContext refresh).publishEach refresh proposals
        generation).2 := by
    rcases hafter with rfl | hafter
    · exact hall
    rcases hissued with hissued | rfl
    · refine hall.trans (publishes_publishEach now refresh proposals generation
        (hall.valid hvalid) hproposed honRefreshed hbound hafter ?_)
      show generation + proposals.length ≤ flown.generation + 1
      rw [hgeneration]
      exact hissued
    · exact hall
  generalize ((flown.dueBy (some expiresAt)).refreshContext refresh).publishEach refresh proposals
    generation = written at heach ⊢
  obtain ⟨accepted, last⟩ := written
  dsimp only at heach ⊢
  have hcontexts := heach.trans (quiet_notes now (heach.valid hvalid) last.counts
    { last.fenced with contexts := last.fenced.contexts ++ [context] } last.timing).publishes
  split
  · exact hcontexts.trans (publishes_fenceContextFlight now (hcontexts.valid hvalid) context _ _)
  · exact hcontexts

theorem publishes_admitMultiple (hvalid : table.Valid) (maxNotificationDelay : UInt32)
    (subscriberMaxApdu : Option UInt16)
    (hproposed : ∀ proposal ∈ proposals, Proposed context expiresAt proposal)
    (hlive : ∀ entry ∈ table.subs, isExpired now entry = false)
    (hstart : start.generation ≤ table.generation) (hnext : start.nextFlight ≤ table.nextFlight) :
    Publishes now start True table
      (table.admitMultiple context route expiresAt maxNotificationDelay subscriberMaxApdu
        proposals now).2 := by
  have hreserve := quiet_reserveGenerations now hvalid (retainFinal proposals).length
  have hsubs := (alike_reserveGenerations table (retainFinal proposals).length).2
  unfold admitMultiple
  dsimp only
  split
  · rename_i refused reserved hresult
    rw [hresult] at hreserve
    exact hreserve.publishes
  · rename_i generation reserved hresult
    rw [hresult] at hreserve hsubs
    obtain ⟨hgeneration, hfirst⟩ := reserveGenerations_ok hresult
    dsimp only at hreserve hsubs ⊢
    have hempty : retainFinal proposals = [] ∨ 0 < (retainFinal proposals).length := by
      rcases Nat.eq_zero_or_pos (retainFinal proposals).length with h | h
      · exact .inl (List.eq_nil_of_length_eq_zero h)
      · exact .inr h
    refine hreserve.publishes.trans (publishes_commitMultiple now (hreserve.valid hvalid)
      maxNotificationDelay subscriberMaxApdu (fun p hp => hproposed p (mem_retainFinal hp)) ?_ ?_ ?_
      ?_)
    · exact fun entry hentry => hlive entry (hsubs ▸ hentry)
    · exact le_trans hnext hreserve.nextFlight
    · refine hempty.imp_right fun hpos => ?_
      rw [hfirst hpos]
      omega
    · refine hempty.symm.imp_left fun hpos => ?_
      rw [hfirst hpos, hgeneration]
      omega

/-- What a Multiple request's references are admitted to. -/
theorem quiet_base (hvalid : table.Valid) {base : CovTable O}
    (hbase : base = (table.expire now).2 ∨ ∃ cap, base = ((table.expire now).2.refuseNew cap).2) :
    Quiet now table base ∧ ∀ entry ∈ base.subs, isExpired now entry = false := by
  have hexpire := quiet_expire now hvalid
  have hlive := (orderly_expire now hvalid.toOrderly).2.2
  rcases hbase with rfl | ⟨cap, rfl⟩
  · exact ⟨hexpire, hlive⟩
  · exact ⟨hexpire.trans (quiet_notes now (hexpire.valid hvalid) _ (table.expire now).2.fenced
      (table.expire now).2.timing), hlive⟩

/-- A Multiple admission, as one step. -/
theorem publishes_subscribeMultiple (hvalid : table.Valid) (context : MultipleContextKey)
    (route : SubscriberEndpoint) (expiresAt : Instant) (maxNotificationDelay : UInt32)
    (subscriberMaxApdu : Option UInt16) (subscriptions : List (CovSubscription O)) :
    Publishes now table True table
      (table.subscribeMultiple context route expiresAt maxNotificationDelay subscriberMaxApdu
        subscriptions now).2 := by
  generalize hafter : (table.subscribeMultiple context route expiresAt maxNotificationDelay
    subscriberMaxApdu subscriptions now).2 = after
  rcases subscribeMultiple_cases hafter with rfl | ⟨base, hbase, hleft⟩
  · exact .refl hvalid
  obtain ⟨hquiet, hlive⟩ := quiet_base now hvalid hbase
  rcases hleft with rfl | ⟨-, proposals, all, hall, hmem, rfl⟩
  · exact hquiet.publishes
  · exact hquiet.publishes.trans (publishes_admitMultiple now (hquiet.valid hvalid)
      maxNotificationDelay subscriberMaxApdu
      (fun p hp => validateMultiple_ok subscriptions hall p (hmem p hp)) hlive hquiet.generation
      hquiet.nextFlight)

end CovTable

end RustyBacnet.Cov
