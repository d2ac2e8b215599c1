import RustyBacnet.Cov.MultipleQuotas

/-!
# Accounting over whole runs

Reports and their ends change no face of an entry, so they keep the books (`alike_evaluate`,
`alike_delivered`). Every other call keeps them but one: `expireAll` gives an expiry to an entry that
had none and leaves it in its recipient's indefinite count, which nothing lowers afterwards. So the
books are right in every state of a run exactly when no `expireAll` of it finds such an entry
(`cov_table_accounting`).
-/

namespace RustyBacnet.Cov

open SortedArray (Sorted)

variable {O V L : Type}

namespace CovTable

variable {table : CovTable O}

/-! ## Reports -/

theorem alike_prepareCompletion (table : CovTable O) (snapshot : CovSubscriptionSnapshot O) :
    Alike table (table.prepareCompletion snapshot).2 := by
  unfold prepareCompletion
  split
  · exact .refl _
  · exact ⟨rfl, rfl, rfl, rfl, .refl _⟩

theorem alike_complete (table : CovTable O) (token : Token) (confirmed : Bool)
    (completion : Completion O) (now : Instant) :
    Alike table (table.complete token confirmed completion now).2 := by
  unfold complete
  split_ifs
  · exact .refl _
  · exact .refl _
  · refine ⟨?_, rfl, rfl, rfl, .refl _⟩
    apply SortedArray.map_modify
    exact fun _ => rfl

theorem alike_completeObservation (table : CovTable O) (snapshot : CovSubscriptionSnapshot O)
    (completion : PreparedCovCompletion) (value : O) (now : Instant) :
    Alike table (table.completeObservation snapshot completion value now).2 := by
  unfold completeObservation
  split_ifs
  · exact .refl _
  · dsimp only
    split_ifs
    · exact .refl _
    · exact alike_complete table _ _ _ now

theorem alike_deliverUnconfirmed {token : Token} {outcome : Delivery} {now : Instant}
    {ended : CovTable O} (h : table.deliverUnconfirmed token outcome now = some ended) :
    Alike table ended := by
  unfold deliverUnconfirmed at h
  split at h
  · cases h
  rename_i index _
  have hended : Alike table { table with pending := swapRemove table.pending index } :=
    ⟨rfl, rfl, rfl, rfl, .refl _⟩
  split_ifs at h
  · obtain ⟨report, _, rfl⟩ := Option.map_eq_some_iff.mp h
    exact hended.trans (alike_complete _ token false _ now)
  · cases h
    exact hended

theorem alike_beginConfirmed (table : CovTable O) (completion : PreparedCovCompletion)
    (references : List (CovSubscriptionSnapshot O × O)) (now : Instant) :
    Alike table (table.beginConfirmed completion references now).2 := by
  unfold beginConfirmed
  split
  · exact .refl _
  · split
    · exact .refl _
    · split
      · exact .refl _
      · exact ⟨rfl, rfl, rfl, rfl, dueNoLater_dueBy table _⟩

variable (sources : Sources O V L) (token : Token) (now : Instant)

theorem alike_completeEach (completions : List (Completion O)) :
    ∀ table : CovTable O, Alike table (table.completeEach token now completions).2 := by
  induction completions with
  | nil => exact .refl
  | cons completion completions ih =>
    intro table
    exact (alike_complete table token true completion now).trans (ih _)

theorem alike_settle (table : CovTable O) (token : Token) (outcome : Delivery) (now : Instant) :
    Alike table (table.settle token outcome now) :=
  alike_tidyFlight table _ token.flight

theorem alike_delivered (table : CovTable O) (token : Token) (outcome : Delivery) (now : Instant) :
    Alike table (table.delivered token outcome now).2 := by
  unfold delivered
  split
  · rename_i ended hended
    exact alike_deliverUnconfirmed hended
  · split
    · exact .refl _
    · split_ifs
      · exact .refl _
      · unfold endConfirmed
        have htaken : Alike table { table with
            flights := table.flights.modify token.flight fun state =>
              { state with completes := [] } } := ⟨rfl, rfl, rfl, rfl, .refl _⟩
        split_ifs
        · exact htaken.trans ((alike_completeEach token now _ _).trans
            (alike_settle _ token outcome now))
        · exact htaken.trans (alike_settle _ token outcome now)

theorem alike_takeOwedContext (table : CovTable O) (context : MultipleContextKey) (now : Instant) :
    Alike table (table.takeOwedContext context now).2 := by
  unfold takeOwedContext
  split_ifs
  · exact .refl _
  · split
    · exact .refl _
    · split
      · exact .refl _
      · split_ifs
        · exact alike_tidyFlight table _ _
        · exact .refl _

theorem alike_beginReport (table : CovTable O) (completion : PreparedCovCompletion)
    (sub : CovSubscriptionSnapshot O) (observation : O) (now : Instant) :
    Alike table (table.beginReport completion sub observation now).2 := by
  unfold beginReport
  split
  · rename_i ticket
    have hbegin := alike_beginConfirmed table (.confirmed ticket) [(sub, observation)] now
    split
    · rename_i hresult
      rwa [hresult] at hbegin
    · rename_i hresult
      rwa [hresult] at hbegin
  · exact ⟨rfl, rfl, rfl, rfl, .refl _⟩

theorem alike_evaluateOne (table : CovTable O) (sources : Sources O V L) (now : Instant)
    (budget : EventBudget) (index : ℕ) (sub : CovSubscriptionSnapshot O) :
    Alike table (table.evaluateOne sources now budget index sub).2.2 := by
  have hthrottle : ∀ table : CovTable O, Alike table table.throttle :=
    fun _ => ⟨rfl, rfl, rfl, rfl, .refl _⟩
  have hprepare := alike_prepareCompletion table sub
  unfold evaluateOne
  split_ifs
  · exact .refl _
  · exact hthrottle table
  · split
    · exact .refl _
    · split
      · rename_i hresult
        rwa [hresult] at hprepare
      · rename_i completion prepared hresult
        rw [hresult] at hprepare
        dsimp only at hprepare ⊢
        split
        · exact hprepare.trans (hthrottle prepared)
        · rename_i observation _ _ _ _ _ _
          have hbegin := alike_beginReport prepared completion sub observation now
          split
          · rename_i hresult
            rw [hresult] at hbegin
            exact hprepare.trans hbegin
          · rename_i hresult
            rw [hresult] at hbegin
            exact hprepare.trans hbegin

theorem alike_evaluateFrom (subs : List (CovSubscriptionSnapshot O)) :
    ∀ (table : CovTable O) (budget : EventBudget) (index : ℕ),
      Alike table (table.evaluateFrom sources now budget index subs).2.2 := by
  induction subs with
  | nil => exact fun table _ _ => .refl table
  | cons sub subs ih =>
    intro table budget index
    exact (alike_evaluateOne table sources now budget index sub).trans (ih _ _ _)

theorem alike_evaluate (table : CovTable O) (subscriptions : List (CovSubscriptionSnapshot O))
    (sources : Sources O V L) (budget : EventBudget) (now : Instant) :
    Alike table (table.evaluate subscriptions sources budget now).2.2 := by
  unfold evaluate
  split_ifs
  · exact .refl _
  · have hprune : Alike table (table.prunePending now) := ⟨rfl, rfl, rfl, rfl, .refl _⟩
    exact hprune.trans (alike_evaluateFrom sources now _ _ _ _)

/-! ## Ending every lifetime -/

theorem expireAll_fields (table : CovTable O) (now : Instant) :
    (table.expireAll now).subs = table.subs.map (fun entry =>
        { entry with subscription := { entry.subscription with expiresAt := some now } }) ∧
      (table.expireAll now).peerCounts = table.peerCounts ∧
      (table.expireAll now).peerIndefiniteCounts = table.peerIndefiniteCounts ∧
      (table.expireAll now).policy = table.policy := by
  unfold expireAll
  dsimp only
  split_ifs
  · exact ⟨rfl, rfl, rfl, rfl⟩
  · exact ⟨rfl, rfl, rfl, rfl⟩

theorem heldIndefinitely_expireAll (table : CovTable O) (now : Instant) (peer : CovRecipient) :
    (table.expireAll now).heldIndefinitely peer = 0 := by
  unfold heldIndefinitely
  rw [(expireAll_fields table now).1, List.countP_eq_zero]
  intro entry hentry
  obtain ⟨old, _, rfl⟩ := List.mem_map.mp hentry
  simp [CovSubscriptionSnapshot.expiresAt]

theorem held_expireAll (table : CovTable O) (now : Instant) (peer : CovRecipient) :
    (table.expireAll now).held peer = table.held peer := by
  unfold held
  rw [(expireAll_fields table now).1, List.countP_map]
  rfl

theorem fewer_expireAll (table : CovTable O) (now : Instant) : Fewer table (table.expireAll now) where
  held peer := le_of_eq (held_expireAll table now peer)
  heldIndefinitely peer := by
    rw [heldIndefinitely_expireAll]
    exact Nat.zero_le _
  length := by
    rw [(expireAll_fields table now).1, List.length_map]
  policy := (expireAll_fields table now).2.2.2

theorem heldIndefinitely_eq_zero (h : ∀ entry ∈ table.subs, entry.expiresAt ≠ none)
    (peer : CovRecipient) : table.heldIndefinitely peer = 0 := by
  unfold heldIndefinitely
  rw [List.countP_eq_zero]
  intro entry hentry
  simp [h entry hentry]

theorem orderly_expireAll (horder : table.Orderly) : (table.expireAll now).Orderly := by
  obtain ⟨hsubs, _⟩ := expireAll_fields table now
  refine ⟨?_, ?_⟩
  · rw [hsubs]
    apply horder.sorted.map
    exact fun _ => rfl
  · intro entry hentry expires hexpires
    have hnonempty : (table.expireAll now).subs.length > 0 := List.length_pos_of_mem hentry
    rw [hsubs] at hentry hnonempty
    obtain ⟨old, _, rfl⟩ := List.mem_map.mp hentry
    cases hexpires
    unfold expireAll
    rw [if_pos hnonempty]
    apply earliest_le
    simp

theorem books_expireAll (hbooks : table.Books)
    (hends : ∀ entry ∈ table.subs, entry.expiresAt ≠ none) : (table.expireAll now).Books := by
  obtain ⟨hsubs, hpeers, hindefinite, _⟩ := expireAll_fields table now
  refine ⟨orderly_expireAll now hbooks.toOrderly, ?_, ?_, ?_, ?_, ?_, ?_⟩
  · rw [hpeers]
    exact hbooks.peersSorted
  · rw [hindefinite]
    exact hbooks.indefiniteSorted
  · intro entry hentry
    rw [hsubs] at hentry
    obtain ⟨old, hold, rfl⟩ := List.mem_map.mp hentry
    exact hbooks.owned old hold
  · intro entry hentry _
    rw [hsubs] at hentry
    obtain ⟨old, _, rfl⟩ := List.mem_map.mp hentry
    exact (nomatch ·)
  · intro peer
    rw [held_expireAll, ← hbooks.peers]
    unfold peerSubscriptionCount
    rw [hpeers]
  · intro peer
    rw [heldIndefinitely_expireAll, ← heldIndefinitely_eq_zero hends peer, ← hbooks.indefinite]
    unfold peerIndefiniteCount
    rw [hindefinite]

/-! ## Runs -/

/-- An `expireAll` finds no entry without an expiry. -/
def Keeps (table : CovTable O) : Op O V L → Prop
  | .expireAll _ => ∀ entry ∈ table.subs, entry.expiresAt ≠ none
  | _ => True

/-- The table counts what it holds. -/
structure Accounted (table : CovTable O) : Prop where
  sorted : Sorted (·.key) table.subs
  peers : ∀ peer, table.peerSubscriptionCount peer = table.held peer
  indefinite : ∀ peer, table.peerIndefiniteCount peer = table.heldIndefinitely peer

theorem Books.accounted (hbooks : table.Books) : table.Accounted :=
  ⟨hbooks.sorted, hbooks.peers, hbooks.indefinite⟩

/-- Every call but that `expireAll` keeps the books and the quotas. -/
theorem books_perform (hbooks : table.Books) (hwithin : table.Within) (op : Op O V L)
    (hkeeps : table.Keeps op) : (table.perform op).Books ∧ (table.perform op).Within ∧
      (table.perform op).policy = table.policy := by
  have halike : ∀ {table'}, Alike table table' →
      table'.Books ∧ table'.Within ∧ table'.policy = table.policy :=
    fun h => ⟨h.books hbooks, h.within hwithin, h.policy⟩
  have hremove : ∀ wasCancelled keys, (table.removeEach wasCancelled keys).2.Books ∧
      (table.removeEach wasCancelled keys).2.Within ∧
      (table.removeEach wasCancelled keys).2.policy = table.policy := by
    intro wasCancelled keys
    have hfewer := (orderly_removeEach wasCancelled keys hbooks.toOrderly).2.1
    exact ⟨books_removeEach wasCancelled keys hbooks, hfewer.within hwithin, hfewer.policy⟩
  have hexpire : ∀ now, (table.expire now).2.Books ∧ (table.expire now).2.Within ∧
      (table.expire now).2.policy = table.policy := by
    intro now
    obtain ⟨hbooks', hfewer, _⟩ := books_expire now hbooks
    exact ⟨hbooks', hfewer.within hwithin, hfewer.policy⟩
  cases op with
  | subscribe sub now =>
    have hadmitted := admitted_subscribe sub now hbooks hwithin
    exact ⟨hadmitted.books, hadmitted.within, hadmitted.policy⟩
  | subscribeMultiple context route expiresAt delay maxApdu subscriptions now =>
    have hadmitted := admitted_subscribeMultiple context route expiresAt delay maxApdu
      subscriptions now hbooks hwithin
    exact ⟨hadmitted.books, hadmitted.within, hadmitted.policy⟩
  | unsubscribe key =>
    have hfewer := fewer_removeInternal key true hbooks.toOrderly
    exact ⟨books_removeInternal key true hbooks, hfewer.within hwithin, hfewer.policy⟩
  | unsubscribeCovMultipleContext context => exact hremove true _
  | removeForObject oid => exact hremove false _
  | removePeerSubscriptions mac network => exact hremove true _
  | expire now => exact hexpire now
  | expireAll now =>
    have hfewer := fewer_expireAll table now
    exact ⟨books_expireAll now hbooks hkeeps, hfewer.within hwithin, hfewer.policy⟩
  | subscriptionsFor oid now => exact hexpire now
  | evaluate subscriptions sources budget now =>
    exact halike (alike_evaluate table subscriptions sources budget now)
  | prepareCompletion snapshot => exact halike (alike_prepareCompletion table snapshot)
  | beginConfirmed completion references now =>
    exact halike (alike_beginConfirmed table completion references now)
  | delivered token outcome now => exact halike (alike_delivered table token outcome now)
  | completeObservation snapshot completion value now =>
    exact halike (alike_completeObservation table snapshot completion value now)
  | takeOwedContext context now => exact halike (alike_takeOwedContext table context now)
  | takeCounts => exact halike ⟨rfl, rfl, rfl, rfl, .refl _⟩
  | takeFenced => exact halike ⟨rfl, rfl, rfl, rfl, .refl _⟩
  | withFlightTiming timing => exact halike ⟨rfl, rfl, rfl, rfl, .refl _⟩

/-- After an `expireAll` that finds an entry without an expiry, its recipient's indefinite count is
not its number of indefinite entries. -/
theorem keeps_of_accounted (hbooks : table.Books) (op : Op O V L)
    (haccounted : (table.perform op).Accounted) : table.Keeps op := by
  cases op with
  | expireAll now =>
    intro entry hentry hnone
    have hcount := haccounted.indefinite entry.recipient
    have hzero : (table.perform (.expireAll now : Op O V L)).heldIndefinitely entry.recipient = 0 :=
      heldIndefinitely_expireAll table now entry.recipient
    have hsame : (table.perform (.expireAll now : Op O V L)).peerIndefiniteCount entry.recipient
        = table.peerIndefiniteCount entry.recipient :=
      congrArg (fun counts => VecMap.tally counts entry.recipient)
        (expireAll_fields table now).2.2.1
    have hpos : 0 < table.heldIndefinitely entry.recipient :=
      List.countP_pos_iff.mpr ⟨entry, hentry, by simp [hnone]⟩
    rw [hzero, hsame, hbooks.indefinite] at hcount
    omega
  | _ => trivial

/-- The accounting of a table under `policy`: its counts are true, no quota is passed, the next
admission fills no more than its recipient may, and an expiry pass leaves on the books only what
lives. -/
structure Sound (policy : CovPolicy) (table : CovTable O) : Prop extends Accounted table where
  within : table.Within
  policy : table.policy = policy.sanitized
  released : ∀ now, ∀ entry ∈ (table.expire now).2.subs, isExpired now entry = false
  subscribe : ∀ sub now snapshot, (table.subscribe sub now).1 = .ok snapshot →
    (table.expire now).2.contains snapshot.key = false →
      (table.subscribe sub now).2.subs.length ≤ table.policy.capacityFor sub.recipient
  subscribeMultiple : ∀ context route expiresAt delay maxApdu subscriptions now, ∀ snapshot ∈
    acceptedAll
      (table.subscribeMultiple context route expiresAt delay maxApdu subscriptions now).1,
    (table.expire now).2.contains snapshot.key = false →
      (table.subscribeMultiple context route expiresAt delay maxApdu subscriptions
        now).2.subs.length ≤ table.policy.capacityFor context.recipient

variable {policy : CovPolicy}

theorem Books.sound (hbooks : table.Books) (hwithin : table.Within)
    (hpolicy : table.policy = policy.sanitized) : table.Sound policy where
  toAccounted := hbooks.accounted
  within := hwithin
  policy := hpolicy
  released := fun now => (books_expire now hbooks).2.2
  subscribe := by
    intro sub now snapshot hok habsent
    have hadmitted := admitted_subscribe sub now hbooks hwithin
    rw [hok] at hadmitted
    exact hadmitted.capacity snapshot List.mem_cons_self habsent
  subscribeMultiple := by
    intro context route expiresAt delay maxApdu subscriptions now
    exact (admitted_subscribeMultiple context route expiresAt delay maxApdu subscriptions now
      hbooks hwithin).capacity

/-- No `expireAll` of the run finds an entry without an expiry. -/
def Kept : CovTable O → List (Op O V L) → Prop
  | _, [] => True
  | table, op :: ops => table.Keeps op ∧ Kept (table.perform op) ops

theorem performAll_cons (table : CovTable O) (op : Op O V L) (ops : List (Op O V L)) :
    table.performAll (op :: ops) = (table.perform op).performAll ops := rfl

theorem kept_iff (ops : List (Op O V L)) :
    ∀ {table : CovTable O}, table.Books → table.Within → table.policy = policy.sanitized →
      (Kept table ops ↔ ∀ before, before <+: ops → (table.performAll before).Sound policy) := by
  induction ops with
  | nil =>
    intro table hbooks hwithin hpolicy
    refine ⟨fun _ before hbefore => ?_, fun _ => trivial⟩
    rw [List.prefix_nil.mp hbefore]
    exact hbooks.sound hwithin hpolicy
  | cons op ops ih =>
    intro table hbooks hwithin hpolicy
    constructor
    · rintro ⟨hkeeps, hkept⟩ before hbefore
      obtain ⟨hbooks', hwithin', hpolicy'⟩ := books_perform hbooks hwithin op hkeeps
      cases before with
      | nil => exact hbooks.sound hwithin hpolicy
      | cons first before =>
        obtain ⟨rfl, hrest⟩ := List.cons_prefix_cons.mp hbefore
        rw [performAll_cons]
        exact (ih hbooks' hwithin' (hpolicy'.trans hpolicy)).mp hkept before hrest
    · intro hsound
      have hfirst := hsound [op] (List.prefix_append [op] ops)
      have hkeeps := keeps_of_accounted hbooks op hfirst.toAccounted
      obtain ⟨hbooks', hwithin', hpolicy'⟩ := books_perform hbooks hwithin op hkeeps
      refine ⟨hkeeps, (ih hbooks' hwithin' (hpolicy'.trans hpolicy)).mpr fun before hbefore => ?_⟩
      have hall := hsound (op :: before) (List.cons_prefix_cons.mpr ⟨rfl, hbefore⟩)
      rwa [performAll_cons] at hall

/-- In a run on a new table the accounting is right in every state reached exactly when no
`expireAll` finds an entry without an expiry. -/
theorem cov_table_accounting (id : ℕ) (policy : CovPolicy) (ops : List (Op O V L)) :
    Kept (new id policy) ops ↔
      ∀ before, before <+: ops → ((new id policy).performAll before).Sound policy :=
  kept_iff ops (books_new id policy) (within_new id policy) rfl

/-- A policy that lets each recipient hold one indefinite subscription. -/
def singlePolicy : CovPolicy := { CovPolicy.initial with maxIndefinitePerPeer := 1 }

def lasting : CovSubscription Unit where
  subscriberMac := [1]
  subscriberNetwork := none
  subscriberProcessIdentifier := 1
  monitoredObjectIdentifier := ⟨2, 1, Encoding.analogValue_le, Encoding.instanceOne_le⟩
  issueConfirmedNotifications := false
  expiresAt := none
  lastNotifiedObservation := none
  monitoredProperty := none
  monitoredPropertyArrayIndex := none
  notificationKind := .single
  timestamped := false

/-- Once `expireAll` ended the only subscription and the pass removed it, its recipient still has
an indefinite one counted, holds none, and is refused. -/
theorem cov_table_quota_lost :
    let ops : List (Op Unit Unit Unit) := [.subscribe lasting 0, .expireAll 5, .expire 6]
    let table := (new 0 singlePolicy : CovTable Unit).performAll ops
    table.subs = [] ∧ table.peerIndefiniteCount (.direct [1]) = 1 ∧
      table.heldIndefinitely (.direct [1]) = 0 ∧
      (table.subscribe lasting 7).1 = .error .noSpaceToAddListElement ∧
      ¬ ∀ before, before <+: ops →
        ((new 0 singlePolicy : CovTable Unit).performAll before).Accounted := by
  refine ⟨by decide +kernel, by decide +kernel, by decide +kernel, by decide +kernel, ?_⟩
  intro haccounted
  have hcount := (haccounted _ List.prefix_rfl).indefinite (.direct [1])
  revert hcount
  decide +kernel

end CovTable

end RustyBacnet.Cov
