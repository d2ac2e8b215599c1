import RustyBacnet.Cov.Coherence

/-!
# Admissions keep flights and contexts coherent

An ordinary entry is published on a flight of its own. A Multiple request chooses its context's flight
or opens one, puts every reference on its terms, publishes its own references on them, and fences the
flight it replaced; only between the last two is that flight nobody's.
-/

namespace RustyBacnet.Cov

open SortedArray (Sorted)

variable {O V L : Type}

namespace CovTable

variable {table table' : CovTable O} {exempt : Option ℕ} {now : Instant}

/-! ## Insertion -/

theorem mem_insert_self (horder : table.Orderly) (snapshot : CovSubscriptionSnapshot O) :
    snapshot ∈ (table.insert snapshot).subs := by
  rw [(insert_fields horder snapshot).1]
  have hread := SortedArray.entry_put horder.sorted snapshot snapshot.key
  rw [if_pos rfl] at hread
  exact (SortedArray.mem_of_entry hread).1

variable {snapshot : CovSubscriptionSnapshot O}

theorem mem_insert_of_ne (horder : table.Orderly) {entry : CovSubscriptionSnapshot O}
    (hentry : entry ∈ table.subs) (hkey : entry.key ≠ snapshot.key) :
    entry ∈ (table.insert snapshot).subs := by
  rw [(insert_fields horder snapshot).1]
  have hread := SortedArray.entry_put horder.sorted snapshot entry.key
  rw [if_neg hkey, horder.sorted.entry_of_mem hentry] at hread
  exact (SortedArray.mem_of_entry hread).1

/-- An insertion keeps the flights but a replaced entry's own. -/
theorem insert_flights (horder : table.Orderly) (hsorted : Sorted Prod.fst table.flights)
    (snapshot : CovSubscriptionSnapshot O) {flight : ℕ} {state : FlightState O} (h : (table.insert snapshot).flights.get flight = some state) :
    table.flights.get flight = some state ∧ ∀ old, table.under snapshot.key = some old →
      old.flight = flight → old.flight = snapshot.flight := by
  have hfirst := SortedArray.put_fst horder.sorted snapshot
  change _ = table.under snapshot.key at hfirst
  have hput : table.insert snapshot
      = { table.dueBy snapshot.expiresAt with
          subs := (SortedArray.put CovSubscriptionSnapshot.key table.subs snapshot).2
        }.countPublished snapshot (table.under snapshot.key) := by
    rw [← hfirst]
    rfl
  rw [hput] at h
  cases hold : table.under snapshot.key with
  | none =>
    rw [hold] at h
    exact ⟨h, fun _ h => nomatch h⟩
  | some old =>
    rw [hold] at h
    unfold countPublished at h
    dsimp only at h
    by_cases hsame : old.flight = snapshot.flight
    · rw [if_neg (by simpa using hsame)] at h
      refine ⟨h, ?_⟩
      rintro other hother -
      cases hother
      exact hsame
    · rw [if_pos (by simpa using hsame)] at h
      unfold fenceFlight at h
      have hflights : (table.dueBy snapshot.expiresAt).flights = table.flights := rfl
      split at h
      · rename_i hnone
        dsimp only at h hnone
        rw [hflights] at h hnone
        refine ⟨h, ?_⟩
        rintro other hother rfl
        cases hother
        rw [hnone] at h
        cases h
      · dsimp only at h
        rw [hflights, VecMap.get_remove hsorted] at h
        split_ifs at h with hflight
        refine ⟨h, ?_⟩
        rintro other hother rfl
        cases hother
        exact absurd rfl hflight

/-- An entry is published on its context's terms, or on a flight of its own. -/
theorem coherent_insert (horder : table.Orderly) (hsorted : Sorted Prod.fst table.flights)
    (h : table.Coherent exempt)
    (hterms : ∀ entry ∈ table.subs, Akin entry.key snapshot.key → entry.terms = snapshot.terms)
    (hapart : ∀ entry ∈ table.subs, entry.flight = snapshot.flight →
      entry.key = snapshot.key ∨ Akin entry.key snapshot.key) :
    (table.insert snapshot).Coherent exempt where
  terms := by
    intro entry hentry other hother hakin
    rcases mem_insert horder snapshot hentry with rfl | ⟨hold, _⟩
    · rcases mem_insert horder _ hother with rfl | ⟨hold', _⟩
      · rfl
      · exact hterms other hold' hakin.symm
    · rcases mem_insert horder _ hother with rfl | ⟨hold', _⟩
      · exact (hterms entry hold hakin).symm
      · exact h.terms entry hold other hold' hakin
  apart := by
    intro entry hentry other hother hflight
    rcases mem_insert horder snapshot hentry with rfl | ⟨hold, _⟩
    · rcases mem_insert horder _ hother with rfl | ⟨hold', _⟩
      · exact .inl rfl
      · exact (hapart other hold' hflight).imp_right Akin.symm
    · rcases mem_insert horder _ hother with rfl | ⟨hold', _⟩
      · exact (hapart entry hold hflight.symm).imp_left Eq.symm
      · exact h.apart entry hold other hold' hflight
  owned := by
    intro flight state hstate hexempt
    obtain ⟨hbefore, hreplaced⟩ := insert_flights horder hsorted snapshot hstate
    obtain ⟨entry, hentry, hflight⟩ := h.owned flight state hbefore hexempt
    by_cases hkey : entry.key = snapshot.key
    · have hunder := horder.under_of_mem hentry
      rw [hkey] at hunder
      refine ⟨snapshot, mem_insert_self horder snapshot, ?_⟩
      rw [← hreplaced entry hunder hflight, hflight]
    · exact ⟨entry, mem_insert_of_ne horder hentry hkey, hflight⟩
  deadlines := by
    intro flight state deadline hstate hdeadline
    obtain ⟨hbefore, _⟩ := insert_flights horder hsorted snapshot hstate
    obtain ⟨due, hdue, hle⟩ := h.deadlines flight state deadline hbefore hdeadline
    rw [(insert_fields horder snapshot).2.2.1]
    obtain ⟨due', hdue', hle'⟩ := dueNoLater_earliest table.nextDue snapshot.expiresAt due hdue
    exact ⟨due', hdue', le_trans hle' hle⟩

/-! ## Ordinary and Single admissions -/

theorem coherent_checkCaps (hvalid : table.Valid) (h : table.Coherent exempt)
    (peer : CovRecipient) (newCount newIndefinite : ℕ) :
    (table.checkCaps peer newCount newIndefinite now).2.Coherent exempt := by
  have hexpired := coherent_expire now hvalid h
  unfold checkCaps
  generalize (table.expire now).2 = expired at hexpired ⊢
  dsimp only
  split
  · exact hexpired.of_eq rfl rfl (.refl _)
  · split
    · exact hexpired.of_eq rfl rfl (.refl _)
    · exact hexpired

theorem coherent_checkAdmission (hvalid : table.Valid) (h : table.Coherent exempt)
    (peer : CovRecipient) (isIndefinite : Bool) (existing : Option (CovSubscriptionSnapshot O)) :
    (table.checkAdmission peer isIndefinite existing now).2.Coherent exempt := by
  have hexpired := coherent_expire now hvalid h
  have hvalid' := (quiet_expire now hvalid).valid hvalid
  unfold checkAdmission
  generalize (table.expire now).2 = expired at hexpired hvalid' ⊢
  dsimp only
  split
  · exact hexpired.of_eq rfl rfl (.refl _)
  · exact coherent_checkCaps hvalid' hexpired _ _ _

theorem coherent_reserveGenerations (h : table.Coherent exempt) (count : ℕ) :
    (table.reserveGenerations count).2.Coherent exempt := by
  unfold reserveGenerations
  split_ifs
  · exact h
  · exact h.of_eq rfl rfl (.refl _)
  · exact h.of_eq rfl rfl (.refl _)

theorem coherent_subscribe (hvalid : table.Valid) (h : table.Coherent none)
    (sub : CovSubscription O) : (table.subscribe sub now).2.Coherent none := by
  unfold subscribe
  split
  · exact h
  rename_i key hkey
  split
  · exact h
  rename_i hordinary
  have hexpire := quiet_expire now hvalid
  have hexpired := coherent_expire now hvalid h
  dsimp only
  have hcheck := quiet_checkAdmission now (hexpire.valid hvalid) sub.recipient sub.expiresAt.isNone
    ((table.expire now).2.get key)
  have hchecked : ((table.expire now).2.checkAdmission sub.recipient sub.expiresAt.isNone
      ((table.expire now).2.get key) now).2.Coherent none :=
    coherent_checkAdmission (hexpire.valid hvalid) hexpired _ _ _
  have hvalid' := (hexpire.trans hcheck).valid hvalid
  split
  · rename_i refused checked hresult
    rw [hresult] at hchecked
    exact hchecked
  rename_i checked hresult
  rw [hresult] at hchecked hvalid'
  have hreserve := quiet_reserveGenerations now hvalid' 1
  have hreserved := coherent_reserveGenerations hchecked 1
  have hvalid'' := hreserve.valid hvalid'
  split
  · rename_i refused reserved hresult
    rw [hresult] at hreserved
    exact hreserved
  rename_i generation reserved hresult
  rw [hresult] at hreserved hvalid''
  rw [publish_own]
  have hflown := (quiet_newFlight now hvalid'').valid hvalid''
  refine coherent_insert hflown.toOrderly hflown.flightsSorted (hreserved.of_eq rfl rfl (.refl _)) ?_ ?_
  · rintro entry _ ⟨context, _, hcontext⟩
    rw [hcontext] at hordinary
    exact absurd rfl hordinary
  · intro entry hentry hflight
    have hgiven : entry.flight ≤ reserved.nextFlight := hvalid''.flightNumbers entry hentry
    have hfresh : entry.flight = reserved.nextFlight + 1 := hflight
    omega

/-! ## Multiple requests -/

/-- The references of a context are on one set of terms. -/
def OnTerms (table : CovTable O) (context : MultipleContextKey) (terms : Terms) : Prop :=
  ∀ entry ∈ table.subs, entry.key.multipleContext = some context → entry.terms = terms

/-- No entry but a context's references is on `flight`. -/
def Reserved (table : CovTable O) (context : MultipleContextKey) (flight : ℕ) : Prop :=
  ∀ entry ∈ table.subs, entry.flight = flight → entry.key.multipleContext = some context

def Refresh.terms (refresh : Refresh) : Terms :=
  ⟨refresh.flight, refresh.route, some refresh.expiresAt, some refresh.maxNotificationDelay,
    refresh.subscriberMaxApdu⟩

theorem Refresh.entry_terms (refresh : Refresh) (entry : CovSubscriptionSnapshot O) :
    (entry.key.multipleContext = some refresh.context ∧
        (refresh.entry entry).terms = refresh.terms) ∨
      entry.key.multipleContext ≠ some refresh.context ∧ refresh.entry entry = entry := by
  unfold Refresh.entry
  split_ifs with hcontext
  · exact .inl ⟨hcontext, rfl⟩
  · exact .inr ⟨hcontext, rfl⟩

/-- The flight a request chooses is its context's alone, and the references not on it are on the one
it replaces. -/
theorem contextFlight_reserved (hvalid : table.Valid) (h : table.Coherent none)
    (context : MultipleContextKey) (route : SubscriberEndpoint) (listsReferences : Bool) :
    table.Reserved context (table.contextFlight context route listsReferences now).1.1 ∧
      (∀ entry ∈ table.subs, entry.key.multipleContext = some context →
        entry.flight = (table.contextFlight context route listsReferences now).1.1 ∨
          some entry.flight = (table.contextFlight context route listsReferences now).1.2) ∧
      (table.contextFlight context route listsReferences now).2.Coherent none := by
  have hfresh : table.Reserved context table.newFlight.1 := by
    intro entry hentry hflight
    have hgiven := hvalid.flightNumbers entry hentry
    have hnew : entry.flight = table.nextFlight + 1 := hflight
    omega
  unfold contextFlight
  split
  · rename_i first hhead
    obtain ⟨hfirst, hcontext⟩ := List.mem_filter.mp (List.mem_of_mem_head? hhead)
    have hcontext := beq_iff_eq.mp hcontext
    have hsame : ∀ entry ∈ table.subs, entry.key.multipleContext = some context →
        entry.flight = first.flight := fun entry hentry hmine =>
      CovSubscriptionSnapshot.flight_of_terms
        (h.terms first hfirst entry hentry ⟨context, hcontext, hmine⟩)
    split_ifs
    · refine ⟨?_, fun entry hentry hmine => .inl (hsame entry hentry hmine), h⟩
      intro entry hentry hflight
      rcases h.apart first hfirst entry hentry hflight with hkey | ⟨other, hother, hmine⟩
      · rw [hkey]
        exact hcontext
      · rw [hmine, ← hother, hcontext]
    · exact ⟨hfresh, fun entry hentry hmine => .inr (congrArg some (hsame entry hentry hmine)),
        h.of_eq rfl rfl (.refl _)⟩
  · rename_i hnone
    refine ⟨hfresh, ?_, h.of_eq rfl rfl (.refl _)⟩
    intro entry hentry hmine
    rw [List.head?_eq_none_iff] at hnone
    have hfound : entry ∈ table.multipleContextReferences context :=
      List.mem_filter.mpr ⟨hentry, beq_iff_eq.mpr hmine⟩
    rw [hnone] at hfound
    exact absurd hfound List.not_mem_nil

/-- A refresh puts a context on its request's terms; the flight its references leave is exempt. -/
theorem coherent_refreshContext (h : table.Coherent none) {refresh : Refresh}
    (hreserved : table.Reserved refresh.context refresh.flight)
    (hleft : ∀ entry ∈ table.subs, entry.key.multipleContext = some refresh.context →
      entry.flight = refresh.flight ∨ some entry.flight = exempt) :
    (table.refreshContext refresh).Coherent exempt ∧
      (table.refreshContext refresh).OnTerms refresh.context refresh.terms ∧
      (table.refreshContext refresh).Reserved refresh.context refresh.flight := by
  have hsubs : (table.refreshContext refresh).subs = table.subs.map refresh.entry := rfl
  have hon : (table.refreshContext refresh).OnTerms refresh.context refresh.terms := by
    intro entry hentry hmine
    rw [hsubs] at hentry
    obtain ⟨old, _, rfl⟩ := List.mem_map.mp hentry
    rw [refresh.entry_key] at hmine
    rcases refresh.entry_terms old with ⟨_, hterms⟩ | ⟨hother, _⟩
    · exact hterms
    · exact absurd hmine hother
  -- an entry of another context is the one it was
  have hkept : ∀ entry ∈ (table.refreshContext refresh).subs,
      entry.key.multipleContext ≠ some refresh.context → entry ∈ table.subs := by
    intro entry hentry hother
    rw [hsubs] at hentry
    obtain ⟨old, hold, rfl⟩ := List.mem_map.mp hentry
    rw [refresh.entry_key] at hother
    rcases refresh.entry_terms old with ⟨hmine, _⟩ | ⟨_, hsame⟩
    · exact absurd hmine hother
    · rw [hsame]
      exact hold
  have hreserved' : (table.refreshContext refresh).Reserved refresh.context refresh.flight := by
    intro entry hentry hflight
    by_contra hother
    exact hother (hreserved entry (hkept entry hentry hother) hflight)
  refine ⟨⟨?_, ?_, ?_, ?_⟩, hon, hreserved'⟩
  · rintro entry hentry other hother ⟨context, hmine, hmine'⟩
    by_cases hcontext : context = refresh.context
    · rw [hcontext] at hmine hmine'
      rw [hon entry hentry hmine, hon other hother hmine']
    · have hne : some context ≠ some refresh.context := fun h => hcontext (Option.some.inj h)
      exact h.terms entry (hkept entry hentry (hmine ▸ hne)) other
        (hkept other hother (hmine' ▸ hne)) ⟨context, hmine, hmine'⟩
  · intro entry hentry other hother hflight
    by_cases hmine : entry.key.multipleContext = some refresh.context
    · have hhere : entry.flight = refresh.flight := congrArg Terms.flight (hon entry hentry hmine)
      exact .inr ⟨_, hmine, hreserved' other hother (hflight.trans hhere)⟩
    · have hnot : other.key.multipleContext ≠ some refresh.context := by
        intro hmine'
        have hthere : other.flight = refresh.flight :=
          congrArg Terms.flight (hon other hother hmine')
        exact hmine (hreserved' entry hentry (hflight.symm.trans hthere))
      exact h.apart entry (hkept entry hentry hmine) other (hkept other hother hnot) hflight
  · intro flight state hstate hexempt
    obtain ⟨entry, hentry, rfl⟩ := h.owned flight state hstate (by simp)
    rw [hsubs]
    refine ⟨refresh.entry entry, List.mem_map_of_mem hentry, ?_⟩
    rcases refresh.entry_terms entry with ⟨hmine, hterms⟩ | ⟨_, hsame⟩
    · rcases hleft entry hentry hmine with hflight | hleft
      · rw [hflight]
        exact congrArg Terms.flight hterms
      · exact absurd hleft hexempt
    · rw [hsame]
  · exact fun flight state deadline hstate hdeadline =>
      h.deadlines flight state deadline hstate hdeadline

variable {context : MultipleContextKey}

/-- A request's references are published on its terms. -/
theorem coherent_publishEach (refresh : Refresh)
    (proposals : List (CovSubscriptionKey × CovSubscription O)) :
    ∀ {table : CovTable O} (generation : ℕ), table.Orderly → Sorted Prod.fst table.flights →
      table.Coherent exempt → table.OnTerms context refresh.terms →
      table.Reserved context refresh.flight →
      (∀ proposal ∈ proposals, proposal.1.multipleContext = some context ∧
        proposal.2.endpoint = refresh.route ∧ proposal.2.expiresAt = some refresh.expiresAt) →
      (table.publishEach refresh proposals generation).2.Coherent exempt ∧
        Sorted Prod.fst (table.publishEach refresh proposals generation).2.flights := by
  induction proposals with
  | nil => exact fun _ _ hsorted h _ _ _ => ⟨h, hsorted⟩
  | cons proposal proposals ih =>
    obtain ⟨key, sub⟩ := proposal
    intro table generation horder hsorted h hon hreserved hproposed
    obtain ⟨hcontext, hroute, hexpires⟩ := hproposed (key, sub) List.mem_cons_self
    set snapshot : CovSubscriptionSnapshot O := ⟨key, generation, table.id, 0, refresh.flight, sub,
      some refresh.maxNotificationDelay, refresh.subscriberMaxApdu⟩ with hsnapshot
    have hterms : snapshot.terms = refresh.terms := by
      unfold CovSubscriptionSnapshot.terms Refresh.terms CovSubscriptionSnapshot.endpoint
        CovSubscriptionSnapshot.expiresAt
      rw [hsnapshot]
      rw [hroute, hexpires]
    have hsorted' : Sorted Prod.fst (table.insert snapshot).flights := by
      rcases (insert_rest table snapshot).2.2.2 with hflights | ⟨flight, hflights⟩
      · rw [hflights]
        exact hsorted
      · rw [hflights]
        exact VecMap.sorted_remove hsorted flight
    have hinsert : (table.insert snapshot).Coherent exempt := by
      refine coherent_insert horder hsorted h ?_ ?_
      · rintro entry hentry ⟨other, hother, hmine⟩
        have hsame : some other = some context := hmine.symm.trans hcontext
        rw [hterms]
        exact hon entry hentry (hother.trans hsame)
      · intro entry hentry hflight
        exact .inr ⟨context, hreserved entry hentry hflight, hcontext⟩
    refine ih (generation + 1) (orderly_insert horder snapshot) hsorted' hinsert ?_ ?_
      fun p hp => hproposed p (List.mem_cons_of_mem _ hp)
    · intro entry hentry hmine
      rcases mem_insert horder snapshot hentry with rfl | ⟨hold, _⟩
      · exact hterms
      · exact hon entry hold hmine
    · intro entry hentry hflight
      rcases mem_insert horder snapshot hentry with rfl | ⟨hold, _⟩
      · exact hcontext
      · exact hreserved entry hold hflight

theorem forget_terms (context : MultipleContextKey) (carried listed : List CovSubscriptionKey)
    (entry : CovSubscriptionSnapshot O) :
    (forget context carried listed entry).key = entry.key ∧
      (forget context carried listed entry).terms = entry.terms := by
  unfold forget
  split_ifs
  · exact ⟨rfl, rfl⟩
  · exact ⟨rfl, rfl⟩

variable {replaced : ℕ}

theorem coherent_fenceFlight (hsorted : Sorted Prod.fst table.flights)
    (h : table.Coherent (some replaced)) : (table.fenceFlight replaced).Coherent none := by
  have hfenced : (table.fenceFlight replaced).Coherent (some replaced) := by
    refine h.steady ?_ (.fenceFlight hsorted replaced) ?_
    · unfold SameTerms fenceFlight
      split
      · rfl
      · rfl
    · unfold fenceFlight
      split
      · exact .refl _
      · exact .refl _
  refine ⟨hfenced.terms, hfenced.apart, ?_, hfenced.deadlines⟩
  intro flight state hstate _
  refine hfenced.owned flight state hstate ?_
  rintro heq
  cases heq
  unfold fenceFlight at hstate
  split at hstate
  · rename_i hnone
    rw [hnone] at hstate
    cases hstate
  · rw [VecMap.get_remove hsorted, if_pos rfl] at hstate
    cases hstate

theorem coherent_fenceContextFlight (hsorted : Sorted Prod.fst table.flights)
    (h : table.Coherent (some replaced)) (context : MultipleContextKey)
    (listed : List CovSubscriptionKey) (now : Instant) :
    (table.fenceContextFlight context replaced listed now).Coherent none := by
  unfold fenceContextFlight
  split
  · exact coherent_fenceFlight hsorted h
  · rename_i carried _
    refine coherent_fenceFlight ?_ (h.steady ?_ (.refl _) (.refl _))
    · exact hsorted
    · unfold SameTerms
      rw [List.map_map]
      apply List.map_congr_left
      intro entry _
      obtain ⟨hkey, hterms⟩ := forget_terms context carried listed entry
      show ((forget context carried listed entry).key, (forget context carried listed entry).terms)
        = (entry.key, entry.terms)
      rw [hkey, hterms]

variable {route : SubscriberEndpoint} {expiresAt : Instant}
  {proposals : List (CovSubscriptionKey × CovSubscription O)}

theorem coherent_commitMultiple (hvalid : table.Valid) (h : table.Coherent none)
    (maxNotificationDelay : UInt32) (subscriberMaxApdu : Option UInt16) (generation : ℕ)
    (hproposed : ∀ proposal ∈ proposals, proposal.1.multipleContext = some context ∧
      proposal.2.endpoint = route ∧ proposal.2.expiresAt = some expiresAt) :
    (table.commitMultiple context route expiresAt maxNotificationDelay subscriberMaxApdu
      proposals generation now).2.Coherent none := by
  obtain ⟨hreserved, hleft, hcoherent⟩ :
      table.Reserved context (table.contextFlight context route (!proposals.isEmpty) now).1.1 ∧ _ :=
    contextFlight_reserved hvalid h context route (!proposals.isEmpty)
  obtain ⟨hflown, hsubs, _⟩ :=
    contextFlight_cases now hvalid (le_refl _) context route (!proposals.isEmpty)
  have hvalid' := hflown.valid hvalid
  unfold commitMultiple
  generalize table.contextFlight context route (!proposals.isEmpty) now = chosen
    at hreserved hleft hcoherent hsubs hvalid' ⊢
  obtain ⟨⟨flight, replaced⟩, flown⟩ := chosen
  dsimp only at hreserved hleft hcoherent hsubs hvalid' ⊢
  generalize flown.keptMaxApdu context subscriberMaxApdu = maxApdu
  set refresh : Refresh := ⟨context, route, expiresAt, maxNotificationDelay, maxApdu, flight⟩
  have hnoted : (flown.dueBy (some expiresAt)).Coherent none :=
    hcoherent.of_eq rfl rfl (dueNoLater_dueBy flown _)
  have hdue : ∃ due, (flown.dueBy (some expiresAt)).nextDue = some due ∧
      due ≤ refresh.expiresAt := earliest_pair_le _
  have horder : (flown.dueBy (some expiresAt)).Orderly :=
    ((quiet_dueBy now hvalid' (some expiresAt)).valid hvalid').toOrderly
  obtain ⟨hrefreshed, hon, hreserved'⟩ : ((flown.dueBy (some expiresAt)).refreshContext
      refresh).Coherent replaced ∧ _ ∧ _ := by
    refine coherent_refreshContext hnoted ?_ ?_
    · exact fun entry hentry => hreserved entry (hsubs ▸ hentry)
    · exact fun entry hentry => hleft entry (hsubs ▸ hentry)
  obtain ⟨hpublished, hsorted⟩ := coherent_publishEach refresh proposals generation
    (orderly_refreshContext horder hdue) hvalid'.flightsSorted hrefreshed hon hreserved' hproposed
  generalize ((flown.dueBy (some expiresAt)).refreshContext refresh).publishEach refresh proposals
    generation = written at hpublished hsorted ⊢
  obtain ⟨accepted, last⟩ := written
  dsimp only at hpublished hsorted ⊢
  have hlast : Coherent replaced { last with
      fenced := { last.fenced with contexts := last.fenced.contexts ++ [context] } } :=
    hpublished.of_eq rfl rfl (.refl _)
  cases replaced with
  | none => exact hlast
  | some replaced =>
    refine coherent_fenceContextFlight ?_ hlast context _ now
    exact hsorted

theorem coherent_admitMultiple (hvalid : table.Valid) (h : table.Coherent none)
    (maxNotificationDelay : UInt32) (subscriberMaxApdu : Option UInt16)
    (hproposed : ∀ proposal ∈ proposals, proposal.1.multipleContext = some context ∧
      proposal.2.endpoint = route ∧ proposal.2.expiresAt = some expiresAt) :
    (table.admitMultiple context route expiresAt maxNotificationDelay subscriberMaxApdu
      proposals now).2.Coherent none := by
  have hvalid' := (quiet_reserveGenerations now hvalid (retainFinal proposals).length).valid hvalid
  have hreserved := coherent_reserveGenerations h (retainFinal proposals).length
  unfold admitMultiple
  dsimp only
  split
  · rename_i refused reserved hresult
    rw [hresult] at hreserved
    exact hreserved
  · rename_i generation reserved hresult
    rw [hresult] at hreserved hvalid'
    exact coherent_commitMultiple hvalid' hreserved maxNotificationDelay subscriberMaxApdu
      generation fun p hp => hproposed p (mem_retainFinal hp)

theorem coherent_subscribeMultiple (hvalid : table.Valid) (h : table.Coherent none)
    (context : MultipleContextKey) (route : SubscriberEndpoint) (expiresAt : Instant)
    (maxNotificationDelay : UInt32) (subscriberMaxApdu : Option UInt16)
    (subscriptions : List (CovSubscription O)) :
    (table.subscribeMultiple context route expiresAt maxNotificationDelay subscriberMaxApdu
      subscriptions now).2.Coherent none := by
  generalize hafter : (table.subscribeMultiple context route expiresAt maxNotificationDelay
    subscriberMaxApdu subscriptions now).2 = after
  rcases subscribeMultiple_cases hafter with rfl | ⟨base, hbase, hleft⟩
  · exact h
  have hkept : base.Coherent none := by
    have hexpired := coherent_expire now hvalid h
    rcases hbase with rfl | ⟨cap, rfl⟩
    · exact hexpired
    · exact hexpired.of_eq rfl rfl (.refl _)
  rcases hleft with rfl | ⟨-, proposals, all, hall, hmem, rfl⟩
  · exact hkept
  · exact coherent_admitMultiple ((quiet_base now hvalid hbase).1.valid hvalid) hkept
      maxNotificationDelay subscriberMaxApdu fun p hp =>
        (mem_validateMultiple subscriptions hall p (hmem p hp)).2

end CovTable

end RustyBacnet.Cov
