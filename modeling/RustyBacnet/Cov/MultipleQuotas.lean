import RustyBacnet.Cov.Quotas

/-!
# Multiple requests and the quotas

The proposals a request keeps add at most the room its recipient had left (`overflowFrom_room`). The
keys of the entries are distinct, and after the request each is an old key or one of those added, so
counting keys bounds what every recipient then holds (`countP_le_of_keys`). A refresh changes the
expiry of entries that had one already.
-/

namespace RustyBacnet.Cov

open SortedArray (Sorted)

variable {O : Type}

namespace CovTable

variable {table : CovTable O} {context : MultipleContextKey} {route : SubscriberEndpoint}
  {expiresAt : Instant}

/-! ## Proposals -/

/-- A validated reference of a request. -/
structure Proposed (context : MultipleContextKey) (expiresAt : Instant)
    (proposal : CovSubscriptionKey × CovSubscription O) : Prop where
  key : proposal.2.key = .ok proposal.1
  context : proposal.1.multipleContext = some context
  expires : proposal.2.expiresAt = some expiresAt

theorem validateMultiple_ok (subs : List (CovSubscription O))
    {proposals : List (CovSubscriptionKey × CovSubscription O)}
    (h : validateMultiple context route expiresAt subs = .ok proposals) :
    ∀ proposal ∈ proposals, Proposed context expiresAt proposal := by
  intro proposal hproposal
  obtain ⟨hkey, hcontext, -, hexpires⟩ := mem_validateMultiple subs h proposal hproposal
  exact ⟨hkey, hcontext, hexpires⟩

variable {proposals : List (CovSubscriptionKey × CovSubscription O)}
  {proposal : CovSubscriptionKey × CovSubscription O}

theorem mem_retainFirst {keys : List CovSubscriptionKey} (h : proposal ∈ retainFirst proposals keys)
    : proposal ∈ proposals := by
  induction proposals generalizing keys with
  | nil => exact h
  | cons first proposals ih =>
    unfold retainFirst at h
    split_ifs at h
    · exact List.mem_cons_of_mem _ (ih h)
    · rcases List.mem_cons.mp h with rfl | h
      · exact List.mem_cons_self
      · exact List.mem_cons_of_mem _ (ih h)

theorem mem_retainFinal (h : proposal ∈ retainFinal proposals) : proposal ∈ proposals :=
  List.mem_reverse.mp (mem_retainFirst (List.mem_reverse.mp h))

/-- The keys of `proposals` are the table's, or among `keys`. -/
def Covered (table : CovTable O) (keys : List CovSubscriptionKey)
    (proposals : List (CovSubscriptionKey × CovSubscription O)) : Prop :=
  ∀ proposal ∈ proposals, table.contains proposal.1 = true ∨ proposal.1 ∈ keys

def fitting (proposals : List (CovSubscriptionKey × CovSubscription O)) (start : ℕ) :
    Option (ℕ × Cap) → List (CovSubscriptionKey × CovSubscription O)
  | none => proposals
  | some (position, _) => proposals.take (position - start)

variable {recipient : CovRecipient}

/-- The proposals that fit add at most the room there was. -/
theorem overflowFrom_room {room : ℕ} (hroom : table.capPassed recipient (room + 1) ≠ none)
    (proposals : List (CovSubscriptionKey × CovSubscription O)) :
    ∀ (added : List CovSubscriptionKey) (start : ℕ), added.length ≤ room →
      (∀ position cap, table.overflowFrom recipient room proposals added start
          = some (position, cap) → start ≤ position) ∧
        ∃ keys : List CovSubscriptionKey, keys.length ≤ room ∧ (∀ key ∈ added, key ∈ keys) ∧
          (∀ key ∈ keys, key ∈ added ∨ key ∈ proposals.map Prod.fst) ∧
          Covered table keys
            (fitting proposals start (table.overflowFrom recipient room proposals added start)) := by
  induction proposals with
  | nil =>
    intro added start hadded
    refine ⟨fun _ _ h => (nomatch h), added, hadded, fun _ h => h, fun _ h => .inl h, ?_⟩
    exact fun _ h => absurd h List.not_mem_nil
  | cons proposal proposals ih =>
    obtain ⟨key, sub⟩ := proposal
    -- the step to the rest, once the first proposal is covered
    have hstep : ∀ (added' : List CovSubscriptionKey) (added : List CovSubscriptionKey) (start : ℕ),
        added'.length ≤ room → (∀ k ∈ added, k ∈ added') →
        (∀ k ∈ added', k ∈ added ∨ k = key) →
        (table.contains key = true ∨ key ∈ added') →
        (∀ position cap, table.overflowFrom recipient room proposals added' (start + 1)
            = some (position, cap) → start ≤ position) ∧
          ∃ keys : List CovSubscriptionKey, keys.length ≤ room ∧ (∀ k ∈ added, k ∈ keys) ∧
            (∀ k ∈ keys, k ∈ added ∨ k ∈ ((key, sub) :: proposals).map Prod.fst) ∧
            Covered table keys (fitting ((key, sub) :: proposals) start
              (table.overflowFrom recipient room proposals added' (start + 1))) := by
      intro added' added start hlength hsub hfrom hfirst
      obtain ⟨hposition, keys, hkeys, hadded, hmem, hcovered⟩ := ih added' (start + 1) hlength
      refine ⟨fun position cap h => by have := hposition position cap h; omega, keys, hkeys,
        fun k hk => hadded k (hsub k hk), ?_, ?_⟩
      · intro k hk
        rcases hmem k hk with hk | hk
        · rcases hfrom k hk with hk | rfl
          · exact .inl hk
          · exact .inr List.mem_cons_self
        · exact .inr (List.mem_cons_of_mem _ hk)
      · have hall : ∀ rest, Covered table keys rest → Covered table keys ((key, sub) :: rest) := by
          intro rest hrest p hp
          rcases List.mem_cons.mp hp with rfl | hp
          · exact hfirst.imp (fun h => h) (hadded _)
          · exact hrest p hp
        cases hover : table.overflowFrom recipient room proposals added' (start + 1) with
        | none =>
          rw [hover] at hcovered
          exact hall _ hcovered
        | some found =>
          obtain ⟨position, cap⟩ := found
          rw [hover] at hcovered
          have hle := hposition position cap hover
          unfold fitting at hcovered ⊢
          dsimp only at hcovered ⊢
          rw [show position - start = (position - (start + 1)) + 1 by omega, List.take_succ_cons]
          exact hall _ hcovered
    intro added start hadded
    unfold overflowFrom
    split_ifs with hknown hfull
    · have hfirst : table.contains key = true ∨ key ∈ added := by
        rcases Bool.or_eq_true_iff.mp hknown with h | h
        · exact .inl h
        · exact .inr (List.contains_iff_mem.mp h)
      exact hstep added added start hadded (fun _ h => h) (fun _ h => .inl h) hfirst
    · obtain ⟨cap, hcap⟩ := Option.ne_none_iff_exists'.mp hroom
      rw [hcap]
      refine ⟨fun position cap' h => ?_, added, hadded, fun _ h => h, fun _ h => .inl h, ?_⟩
      · cases h
        exact le_refl _
      · unfold fitting
        dsimp only [Option.map_some]
        rw [Nat.sub_self, List.take_zero]
        exact fun _ h => absurd h List.not_mem_nil
    · refine hstep (added ++ [key]) added start ?_ ?_ ?_ (.inr ?_)
      · rw [List.length_append, List.length_singleton]
        omega
      · exact fun k hk => List.mem_append_left _ hk
      · intro k hk
        rcases List.mem_append.mp hk with hk | hk
        · exact .inl hk
        · exact .inr (List.mem_singleton.mp hk)
      · exact List.mem_append_right _ List.mem_cons_self

theorem capPassed_room (table : CovTable O) (recipient : CovRecipient) :
    table.capPassed recipient (min (table.room recipient).1 (table.room recipient).2 + 1)
      ≠ none := by
  unfold capPassed
  dsimp only
  intro h
  split_ifs at h with hpeer htable
  omega

variable {table' : CovTable O}

/-- Entries under old keys or under `keys` are counted by both. -/
theorem countP_le_of_keys {table : CovTable O} {keys : List CovSubscriptionKey}
    (hsorted' : Sorted (·.key) table'.subs)
    (hkeys : ∀ entry ∈ table'.subs, entry.key ∈ table.subs.map (·.key) ∨ entry.key ∈ keys)
    (q : CovSubscriptionKey → Bool) :
    table'.subs.countP (fun entry => q entry.key)
      ≤ table.subs.countP (fun entry => q entry.key) + keys.countP q := by
  have hmap : ∀ entries : List (CovSubscriptionSnapshot O),
      entries.countP (fun entry => q entry.key)
        = ((entries.map (·.key)).filter q).length := by
    intro entries
    rw [← List.countP_eq_length_filter, List.countP_map]
    rfl
  rw [hmap, hmap, List.countP_eq_length_filter, ← List.length_append]
  have hnodup : (table'.subs.map (·.key)).Nodup := by
    refine List.pairwise_map.mpr (hsorted'.imp ?_)
    intro a b hab
    exact ne_of_lt hab
  refine (hnodup.filter q).subperm ?_ |>.length_le
  intro key hkey
  obtain ⟨hmem, hq⟩ := List.mem_filter.mp hkey
  obtain ⟨entry, hentry, rfl⟩ := List.mem_map.mp hmem
  rcases hkeys entry hentry with h | h
  · exact List.mem_append_left _ (List.mem_filter.mpr ⟨h, hq⟩)
  · exact List.mem_append_right _ (List.mem_filter.mpr ⟨h, hq⟩)

theorem Books.held_eq (hbooks : table.Books) (peer : CovRecipient) :
    table.held peer = table.subs.countP fun entry => entry.key.recipient == peer := by
  apply List.countP_congr
  intro entry hentry
  rw [hbooks.owned entry hentry]

/-! ## Refreshing a context -/

theorem Refresh.entry_key (refresh : Refresh) (entry : CovSubscriptionSnapshot O) :
    (refresh.entry entry).key = entry.key := by
  unfold Refresh.entry
  split_ifs
  · rfl
  · rfl

/-- The request's route is its recipient's. -/
def Refresh.Routed (refresh : Refresh) : Prop :=
  CovRecipient.fromEndpoint refresh.route.mac refresh.route.network = refresh.context.recipient

variable {refresh : Refresh}

theorem Refresh.entry_face (hbooks : table.Books) (hroute : refresh.Routed)
    {entry : CovSubscriptionSnapshot O} (hentry : entry ∈ table.subs) :
    (refresh.entry entry).recipient = entry.recipient ∧
      (refresh.entry entry).expiresAt.isNone = entry.expiresAt.isNone := by
  unfold Refresh.entry
  split_ifs with hcontext
  · have hends := hbooks.contextsEnd entry hentry (by rw [hcontext]; rfl)
    refine ⟨?_, ?_⟩
    · rw [← hbooks.owned entry hentry, CovSubscriptionKey.recipient_of_multipleContext hcontext]
      exact hroute
    · cases hexpires : entry.expiresAt with
      | none => exact absurd hexpires hends
      | some expires => rfl
  · exact ⟨rfl, rfl⟩

/-- A context's references all end, so a refresh takes nothing off the indefinite count. -/
theorem refreshContext_indefinite (hbooks : table.Books) (refresh : Refresh) (peer : CovRecipient) :
    (table.refreshContext refresh).peerIndefiniteCount peer = table.peerIndefiniteCount peer := by
  have hnone : ((table.multipleContextReferences refresh.context).countP fun entry =>
      entry.expiresAt.isNone) = 0 := by
    rw [List.countP_eq_zero]
    intro entry hentry
    obtain ⟨hmem, hcontext⟩ := List.mem_filter.mp hentry
    have hends := hbooks.contextsEnd entry hmem (by rw [beq_iff_eq.mp hcontext]; rfl)
    rwa [Option.isNone_iff_eq_none]
  unfold peerIndefiniteCount refreshContext
  rw [hnone, VecMap.tally_lower hbooks.indefiniteSorted]
  split_ifs with hpeer
  · rw [hpeer, Nat.sub_zero]
  · rfl

theorem Refresh.entry_expiresAt (refresh : Refresh) (entry : CovSubscriptionSnapshot O) :
    (refresh.entry entry).expiresAt = entry.expiresAt ∨
      (refresh.entry entry).expiresAt = some refresh.expiresAt := by
  unfold Refresh.entry
  split_ifs
  · exact .inr rfl
  · exact .inl rfl

theorem orderly_refreshContext (horder : table.Orderly)
    (hdue : ∃ due, table.nextDue = some due ∧ due ≤ refresh.expiresAt) :
    (table.refreshContext refresh).Orderly := by
  have hsubs : (table.refreshContext refresh).subs = table.subs.map refresh.entry := rfl
  refine ⟨?_, ?_⟩
  · rw [hsubs]
    exact horder.sorted.map refresh.entry_key
  · intro entry hentry expires hexpires
    rw [hsubs] at hentry
    obtain ⟨old, hold, rfl⟩ := List.mem_map.mp hentry
    rcases refresh.entry_expiresAt old with h | h
    · exact horder.due old hold expires (h.symm.trans hexpires)
    · rw [h] at hexpires
      cases hexpires
      exact hdue

/-- A refresh keeps the books and every number in them. -/
theorem books_refreshContext (hbooks : table.Books) (hroute : refresh.Routed)
    (hdue : ∃ due, table.nextDue = some due ∧ due ≤ refresh.expiresAt) :
    (table.refreshContext refresh).Books ∧
      (∀ peer, (table.refreshContext refresh).held peer = table.held peer) ∧
      ∀ peer, (table.refreshContext refresh).heldIndefinitely peer
        = table.heldIndefinitely peer := by
  have hsubs : (table.refreshContext refresh).subs = table.subs.map refresh.entry := rfl
  have hheld : ∀ peer, (table.refreshContext refresh).held peer = table.held peer := by
    intro peer
    unfold held
    rw [hsubs, List.countP_map]
    apply List.countP_congr
    intro entry hentry
    rw [Function.comp_apply, (Refresh.entry_face hbooks hroute hentry).1]
  have hheldIndefinitely : ∀ peer, (table.refreshContext refresh).heldIndefinitely peer
      = table.heldIndefinitely peer := by
    intro peer
    unfold heldIndefinitely
    rw [hsubs, List.countP_map]
    apply List.countP_congr
    intro entry hentry
    obtain ⟨hrecipient, hnone⟩ := Refresh.entry_face hbooks hroute hentry
    rw [Function.comp_apply, hrecipient, hnone]
  refine ⟨⟨?_, ?_, ?_, ?_, ?_, ?_, ?_⟩, hheld, hheldIndefinitely⟩
  · exact orderly_refreshContext hbooks.toOrderly hdue
  · exact hbooks.peersSorted
  · exact VecMap.sorted_lower hbooks.indefiniteSorted _ _
  · intro entry hentry
    rw [hsubs] at hentry
    obtain ⟨old, hold, rfl⟩ := List.mem_map.mp hentry
    rw [refresh.entry_key, (Refresh.entry_face hbooks hroute hold).1]
    exact hbooks.owned old hold
  · intro entry hentry hcontext
    rw [hsubs] at hentry
    obtain ⟨old, hold, rfl⟩ := List.mem_map.mp hentry
    rw [refresh.entry_key] at hcontext
    have hends := hbooks.contextsEnd old hold hcontext
    rcases refresh.entry_expiresAt old with h | h
    · rwa [h]
    · rw [h]
      exact (nomatch ·)
  · intro peer
    rw [hheld, ← hbooks.peers]
    rfl
  · intro peer
    rw [refreshContext_indefinite hbooks, hheldIndefinitely, hbooks.indefinite]

/-! ## Publishing a request -/

/-- What a request's publications leave. -/
structure Published (table table' : CovTable O) (keys : List CovSubscriptionKey)
    (accepted : List (CovSubscriptionSnapshot O)) : Prop where
  books : table'.Books
  policy : table'.policy = table.policy
  indefinite : ∀ peer, table'.heldIndefinitely peer ≤ table.heldIndefinitely peer
  subs : ∀ entry ∈ table'.subs, entry.key ∈ table.subs.map (·.key) ∨ entry.key ∈ keys
  accepted : ∀ snapshot ∈ accepted, snapshot.key ∈ keys

theorem published_publishEach (refresh : Refresh)
    (proposals : List (CovSubscriptionKey × CovSubscription O)) :
    ∀ {table : CovTable O} (generation : ℕ), table.Books →
      (∀ proposal ∈ proposals, Proposed context expiresAt proposal) →
      Published table (table.publishEach refresh proposals generation).2 (proposals.map Prod.fst)
        (table.publishEach refresh proposals generation).1 := by
  induction proposals with
  | nil =>
    intro table generation hbooks _
    exact ⟨hbooks, rfl, fun _ => le_refl _, fun entry h => .inl (List.mem_map_of_mem h),
      fun _ h => absurd h List.not_mem_nil⟩
  | cons proposal proposals ih =>
    obtain ⟨key, sub⟩ := proposal
    intro table generation hbooks hproposed
    have hfirst := hproposed (key, sub) List.mem_cons_self
    set snapshot : CovSubscriptionSnapshot O := ⟨key, generation, table.id, 0, refresh.flight, sub,
      some refresh.maxNotificationDelay, refresh.subscriberMaxApdu⟩ with hsnapshot
    have hends : snapshot.expiresAt = some expiresAt := hfirst.expires
    have hbelongs : Belongs snapshot := by
      refine ⟨CovSubscription.recipient_of_key hfirst.key, fun _ => ?_⟩
      rw [hends]
      exact (nomatch ·)
    obtain ⟨hlast, hpolicy, hindefinite, hsubs, haccepted⟩ := ih (generation + 1)
      (books_insert hbooks hbelongs) fun p hp => hproposed p (List.mem_cons_of_mem _ hp)
    have hunfold : (table.publishEach refresh ((key, sub) :: proposals) generation)
        = (snapshot :: ((table.insert snapshot).publishEach refresh proposals (generation + 1)).1,
          ((table.insert snapshot).publishEach refresh proposals (generation + 1)).2) := rfl
    rw [hunfold]
    refine ⟨hlast, hpolicy.trans (policy_insert hbooks.toOrderly snapshot), ?_, ?_, ?_⟩
    · intro peer
      refine le_trans (hindefinite peer) ?_
      have hheld := heldIndefinitely_insert hbooks hbelongs peer
      rw [hends] at hheld
      simp only [Option.isNone_some, Bool.false_eq_true, and_false, if_false, Nat.add_zero]
        at hheld
      omega
    · intro entry hentry
      rcases hsubs entry hentry with h | h
      · obtain ⟨old, hold, hkey⟩ := List.mem_map.mp h
        rw [← hkey]
        rcases mem_insert hbooks.toOrderly snapshot hold with rfl | ⟨hold, _⟩
        · exact .inr List.mem_cons_self
        · exact .inl (List.mem_map_of_mem hold)
      · exact .inr (List.mem_cons_of_mem _ h)
    · intro accepted h
      rcases List.mem_cons.mp h with rfl | h
      · exact List.mem_cons_self
      · exact List.mem_cons_of_mem _ (haccepted accepted h)

/-! ## The whole request -/

theorem Alike.keys {table : CovTable O} (h : Alike table table') :
    table'.subs.map (·.key) = table.subs.map (·.key) := by
  have hfst := congrArg (List.map Prod.fst) h.faces
  rw [List.map_map, List.map_map] at hfst
  exact hfst

theorem alike_contextFlight (table : CovTable O) (context : MultipleContextKey)
    (route : SubscriberEndpoint) (listsReferences : Bool) (now : Instant) :
    Alike table (table.contextFlight context route listsReferences now).2 := by
  unfold contextFlight
  split
  · split_ifs
    · exact .refl _
    · exact ⟨rfl, rfl, rfl, rfl, .refl _⟩
  · exact ⟨rfl, rfl, rfl, rfl, .refl _⟩

theorem forget_face (context : MultipleContextKey) (carried listed : List CovSubscriptionKey)
    (entry : CovSubscriptionSnapshot O) : (forget context carried listed entry).face = entry.face := by
  unfold forget
  split_ifs
  · rfl
  · rfl

theorem alike_fenceContextFlight (table : CovTable O) (context : MultipleContextKey)
    (replaced : ℕ) (listed : List CovSubscriptionKey) (now : Instant) :
    Alike table (table.fenceContextFlight context replaced listed now) := by
  refine Alike.trans ?_ (alike_fenceFlight _ replaced)
  split
  · exact .refl _
  · refine ⟨?_, rfl, rfl, rfl, .refl _⟩
    rw [List.map_map]
    apply List.map_congr_left
    exact fun entry _ => forget_face context _ listed entry

/-- The admitted part of a request keeps the books and adds entries under its own keys alone. -/
theorem published_commitMultiple (hbooks : table.Books)
    (hroute : CovRecipient.fromEndpoint route.mac route.network = context.recipient)
    (maxNotificationDelay : UInt32) (subscriberMaxApdu : Option UInt16)
    (hproposed : ∀ proposal ∈ proposals, Proposed context expiresAt proposal) (generation : ℕ)
    (now : Instant) :
    Published table
      (table.commitMultiple context route expiresAt maxNotificationDelay subscriberMaxApdu
        proposals generation now).2 (proposals.map Prod.fst)
      (table.commitMultiple context route expiresAt maxNotificationDelay subscriberMaxApdu
        proposals generation now).1 := by
  have hflight := alike_contextFlight table context route (!proposals.isEmpty) now
  unfold commitMultiple
  generalize table.contextFlight context route (!proposals.isEmpty) now = chosen at hflight ⊢
  obtain ⟨⟨flight, replaced⟩, flown⟩ := chosen
  dsimp only at hflight ⊢
  generalize flown.keptMaxApdu context subscriberMaxApdu = maxApdu
  set refresh : Refresh := ⟨context, route, expiresAt, maxNotificationDelay, maxApdu, flight⟩
  have hnoted : Alike table (flown.dueBy (some expiresAt)) :=
    ⟨hflight.faces, hflight.peerCounts, hflight.peerIndefiniteCounts, hflight.policy,
      hflight.nextDue.trans (dueNoLater_dueBy flown _)⟩
  have hdue : ∃ due, (flown.dueBy (some expiresAt)).nextDue = some due ∧
      due ≤ refresh.expiresAt := earliest_pair_le _
  have hroute' : refresh.Routed := hroute
  obtain ⟨hrefreshed, _, hindefinite⟩ :=
    books_refreshContext (hnoted.books hbooks) hroute' hdue
  obtain ⟨hlast, hpolicy, hfewer, hsubs, haccepted⟩ :=
    published_publishEach refresh proposals generation hrefreshed hproposed
  have hkeys : ((flown.dueBy (some expiresAt)).refreshContext refresh).subs.map (·.key)
      = table.subs.map (·.key) := by
    have hmap : ((flown.dueBy (some expiresAt)).refreshContext refresh).subs
        = (flown.dueBy (some expiresAt)).subs.map refresh.entry := rfl
    rw [hmap, List.map_map, ← hnoted.keys]
    apply List.map_congr_left
    exact fun entry _ => refresh.entry_key entry
  generalize hpublished : ((flown.dueBy (some expiresAt)).refreshContext refresh).publishEach
    refresh proposals generation = written at hlast hpolicy hfewer hsubs haccepted ⊢
  obtain ⟨accepted, last⟩ := written
  dsimp only at hlast hpolicy hfewer hsubs haccepted ⊢
  have hfinal : ∀ final, Alike last final → Published table final (proposals.map Prod.fst)
      accepted := by
    intro final halike
    refine ⟨halike.books hlast, ?_, ?_, ?_, haccepted⟩
    · exact halike.policy.trans (hpolicy.trans hnoted.policy)
    · intro peer
      rw [halike.heldIndefinitely, ← hnoted.heldIndefinitely, ← hindefinite]
      exact hfewer peer
    · intro entry hentry
      have hkey : entry.key ∈ final.subs.map (·.key) := List.mem_map_of_mem hentry
      rw [halike.keys] at hkey
      obtain ⟨old, hold, hold'⟩ := List.mem_map.mp hkey
      rw [← hold', ← hkeys]
      exact hsubs old hold
  apply hfinal
  have hcontexts : Alike last { last with
      fenced := { last.fenced with contexts := last.fenced.contexts ++ [context] } } :=
    ⟨rfl, rfl, rfl, rfl, .refl _⟩
  split
  · exact hcontexts.trans (alike_fenceContextFlight _ context _ _ now)
  · exact hcontexts

variable {added : List CovSubscriptionKey}

/-- Publications within the room leave the table within its quotas. -/
theorem Published.admitted {table : CovTable O} {keys : List CovSubscriptionKey}
    {accepted : List (CovSubscriptionSnapshot O)} (hbooks : table.Books) (hwithin : table.Within)
    (h : Published table table' keys accepted)
    (hadded : added.length ≤ min (table.room recipient).1 (table.room recipient).2)
    (hrecipient : ∀ key ∈ added, key.recipient = recipient)
    (hcovered : ∀ key ∈ keys, table.contains key = true ∨ key ∈ added) :
    table'.Within ∧ ∀ snapshot ∈ accepted, table.contains snapshot.key = false →
      table'.subs.length ≤ table.policy.capacityFor recipient := by
  have hkeys : ∀ entry ∈ table'.subs, entry.key ∈ table.subs.map (·.key) ∨ entry.key ∈ added := by
    intro entry hentry
    rcases h.subs entry hentry with hkey | hkey
    · exact .inl hkey
    · rcases hcovered _ hkey with hcontains | hkey
      · unfold contains at hcontains
        rw [get_eq_under hbooks.toOrderly] at hcontains
        obtain ⟨old, hold⟩ := Option.isSome_iff_exists.mp hcontains
        obtain ⟨hmem, hold'⟩ := mem_of_under hold
        rw [← hold']
        exact .inl (List.mem_map_of_mem hmem)
      · exact .inr hkey
  have hcount := countP_le_of_keys h.books.sorted hkeys
  have hlength : table'.subs.length ≤ table.subs.length + added.length := by
    have hall := hcount fun _ => true
    simpa using hall
  have hroom : added.length ≤ table.policy.maxSubscriptionsPerPeer - table.held recipient ∧
      added.length ≤ table.policy.capacityFor recipient - table.subs.length := by
    unfold room at hadded
    rw [hbooks.peers] at hadded
    exact ⟨le_trans hadded (min_le_left _ _), le_trans hadded (min_le_right _ _)⟩
  have hcapacity := table.policy.capacityFor_le recipient
  refine ⟨⟨?_, ?_, ?_⟩, ?_⟩
  · intro peer
    have hpeer := hcount fun key => key.recipient == peer
    have hbefore := hwithin.perPeer peer
    rw [← hbooks.held_eq, ← h.books.held_eq] at hpeer
    rw [h.policy]
    by_cases hsame : peer = recipient
    · have hle : added.countP (fun key => key.recipient == peer) ≤ added.length :=
        List.countP_le_length
      subst hsame
      omega
    · have hzero : added.countP (fun key => key.recipient == peer) = 0 := by
        rw [List.countP_eq_zero]
        intro key hkey
        rw [hrecipient key hkey]
        simpa using Ne.symm hsame
      omega
  · intro peer
    rw [h.policy]
    exact le_trans (h.indefinite peer) (hwithin.indefinitePerPeer peer)
  · have hbefore := hwithin.global
    rw [h.policy]
    omega
  · intro snapshot hsnapshot habsent
    rcases hcovered _ (h.accepted snapshot hsnapshot) with hcontains | hkey
    · rw [habsent] at hcontains
      cases hcontains
    · have hpos := List.length_pos_of_mem hkey
      omega

def acceptedAll : Except (MultipleRefusal O) (List (CovSubscriptionSnapshot O)) →
    List (CovSubscriptionSnapshot O)
  | .ok accepted => accepted
  | .error refusal => refusal.committed

/-- An admission of proposals that fit keeps the books and the quotas. -/
theorem admitted_admitMultiple (hbooks : table.Books) (hwithin : table.Within)
    (hroute : CovRecipient.fromEndpoint route.mac route.network = context.recipient)
    (maxNotificationDelay : UInt32) (subscriberMaxApdu : Option UInt16)
    (hproposed : ∀ proposal ∈ proposals, Proposed context expiresAt proposal)
    (hadded : added.length ≤ min (table.room context.recipient).1 (table.room context.recipient).2)
    (hrecipient : ∀ key ∈ added, key.recipient = context.recipient)
    (hcovered : Covered table added proposals) (now : Instant) :
    (table.admitMultiple context route expiresAt maxNotificationDelay subscriberMaxApdu
        proposals now).2.Books ∧
      (table.admitMultiple context route expiresAt maxNotificationDelay subscriberMaxApdu
        proposals now).2.Within ∧
      (table.admitMultiple context route expiresAt maxNotificationDelay subscriberMaxApdu
        proposals now).2.policy = table.policy ∧
      ∀ snapshot ∈ acceptedAll (table.admitMultiple context route expiresAt maxNotificationDelay
        subscriberMaxApdu proposals now).1, table.contains snapshot.key = false →
          (table.admitMultiple context route expiresAt maxNotificationDelay subscriberMaxApdu
            proposals now).2.subs.length ≤ table.policy.capacityFor context.recipient := by
  obtain ⟨halike, hsubs⟩ := alike_reserveGenerations table (retainFinal proposals).length
  unfold admitMultiple
  dsimp only
  split
  · rename_i refused reserved hresult
    rw [hresult] at halike
    exact ⟨halike.books hbooks, halike.within hwithin, halike.policy,
      fun _ h => absurd h List.not_mem_nil⟩
  · rename_i generation reserved hresult
    rw [hresult] at halike hsubs
    have hbooks' := halike.books hbooks
    have hcontains : ∀ key, reserved.contains key = table.contains key := by
      intro key
      unfold contains get
      rw [hsubs]
    have hroom : reserved.room context.recipient = table.room context.recipient := by
      unfold room
      rw [hbooks'.peers, hbooks.peers, halike.held, halike.length, halike.policy]
    have hpublished := published_commitMultiple hbooks' hroute maxNotificationDelay
      subscriberMaxApdu (fun p hp => hproposed p (mem_retainFinal hp)) generation now
    obtain ⟨hwithin', hcapacity⟩ := hpublished.admitted hbooks' (halike.within hwithin)
      (by rw [hroom]; exact hadded) hrecipient (by
        intro key hkey
        obtain ⟨proposal, hproposal, rfl⟩ := List.mem_map.mp hkey
        rw [hcontains]
        exact hcovered proposal (mem_retainFinal hproposal))
    refine ⟨hpublished.books, hwithin', hpublished.policy.trans halike.policy, ?_⟩
    intro snapshot hsnapshot habsent
    rw [← halike.policy]
    exact hcapacity snapshot hsnapshot (by rw [hcontains]; exact habsent)

/-- A Multiple admission keeps the books and the quotas. -/
theorem admitted_subscribeMultiple (context : MultipleContextKey) (route : SubscriberEndpoint)
    (expiresAt : Instant) (maxNotificationDelay : UInt32) (subscriberMaxApdu : Option UInt16)
    (subscriptions : List (CovSubscription O)) (now : Instant) (hbooks : table.Books)
    (hwithin : table.Within) :
    Admitted table
      (table.subscribeMultiple context route expiresAt maxNotificationDelay subscriberMaxApdu
        subscriptions now).2 now context.recipient
      (acceptedAll (table.subscribeMultiple context route expiresAt maxNotificationDelay
        subscriberMaxApdu subscriptions now).1) := by
  unfold subscribeMultiple
  dsimp only
  split
  · exact .of_fewer hwithin hbooks (.refl _)
  · exact .of_fewer hwithin hbooks (.refl _)
  split_ifs with hroute
  · exact .of_fewer hwithin hbooks (.refl _)
  rw [not_not] at hroute
  split
  · exact .of_fewer hwithin hbooks (.refl _)
  rename_i proposals hvalid
  have hproposed := validateMultiple_ok subscriptions hvalid
  obtain ⟨hexpired, hfewer, _⟩ := books_expire now hbooks
  have hwithin' := hfewer.within hwithin
  rw [hroute]
  obtain ⟨hposition, added, hadded, _, hmem, hcovered⟩ := overflowFrom_room
    (capPassed_room (table.expire now).2 context.recipient) proposals [] 0 (Nat.zero_le _)
  have hrecipient : ∀ key ∈ added, key.recipient = context.recipient := by
    intro key hkey
    rcases hmem key hkey with hkey | hkey
    · exact absurd hkey List.not_mem_nil
    · obtain ⟨proposal, hproposal, rfl⟩ := List.mem_map.mp hkey
      exact CovSubscriptionKey.recipient_of_multipleContext (hproposed proposal hproposal).context
  have hoverflow : (table.expire now).2.firstOverflow context.recipient proposals
      = (table.expire now).2.overflowFrom context.recipient
        (min ((table.expire now).2.room context.recipient).1
          ((table.expire now).2.room context.recipient).2) proposals [] 0 := rfl
  rw [← hoverflow] at hposition hcovered
  split
  · rename_i hnone
    rw [hnone] at hcovered
    obtain ⟨hbooks', hwithin', hpolicy, hcapacity⟩ := admitted_admitMultiple hexpired hwithin'
      hroute maxNotificationDelay subscriberMaxApdu hproposed hadded hrecipient hcovered now
    refine ⟨hbooks', hwithin', hpolicy.trans hfewer.policy, ?_⟩
    rw [← hfewer.policy]
    exact hcapacity
  · rename_i position cap hsome
    rw [hsome] at hcovered
    have halike : Alike (table.expire now).2 ((table.expire now).2.refuseNew cap).2 :=
      ⟨rfl, rfl, rfl, rfl, .refl _⟩
    generalize hrefused : (table.expire now).2.refuseNew cap = refused at halike ⊢
    obtain ⟨error, counted⟩ := refused
    have hsubs : counted.subs = (table.expire now).2.subs :=
      (congrArg (fun pair => pair.2.subs) hrefused).symm
    have hcontains : ∀ key, counted.contains key = (table.expire now).2.contains key := by
      intro key
      unfold contains get
      rw [hsubs]
    have hroom : counted.room context.recipient
        = (table.expire now).2.room context.recipient := by
      unfold room
      rw [(halike.books hexpired).peers, hexpired.peers, halike.held, halike.length, halike.policy]
    split_ifs
    · exact .of_fewer hwithin (halike.books hexpired) (hfewer.trans halike.fewer)
    · have hcovered' : Covered counted added (proposals.take position) := by
        intro proposal hproposal
        rw [hcontains]
        exact hcovered proposal hproposal
      obtain ⟨hbooks', hwithin', hpolicy, hcapacity⟩ := admitted_admitMultiple
        (halike.books hexpired) (halike.within hwithin') hroute maxNotificationDelay
        subscriberMaxApdu (fun p hp => hproposed p (List.mem_of_mem_take hp))
        (by rw [hroom]; exact hadded) hrecipient hcovered' now
      have hpolicy' := hpolicy.trans (halike.policy.trans hfewer.policy)
      rw [halike.policy, hfewer.policy] at hcapacity
      generalize counted.admitMultiple context route expiresAt maxNotificationDelay
        subscriberMaxApdu (proposals.take position) now = answer
        at hbooks' hwithin' hpolicy' hcapacity ⊢
      obtain ⟨answer, final⟩ := answer
      cases answer with
      | error refusal =>
        refine ⟨hbooks', hwithin', hpolicy', fun snapshot hsnapshot habsent => ?_⟩
        exact hcapacity snapshot hsnapshot (by rw [hcontains]; exact habsent)
      | ok accepted =>
        refine ⟨hbooks', hwithin', hpolicy', fun snapshot hsnapshot habsent => ?_⟩
        exact hcapacity snapshot hsnapshot (by rw [hcontains]; exact habsent)

end CovTable

end RustyBacnet.Cov
