import RustyBacnet.Cov.CoherentRuns

/-!
# The Device's list of active subscriptions

`cov/active.rs`: the ordinary and Single entries live at one instant, in the table's order, and the
order of the list that the projection asserts of them. The table's keys order by the client behind a
router, the list by the router as well, so the two agree on every pair of entries but those of one
routed client for one reference (`place_le_iff`).
-/

namespace RustyBacnet.Cov

open Encoding SortedArray

/-- One ordinary or Single entry copied from the table. -/
structure ActiveCovEntry where
  endpoint : SubscriberEndpoint
  processId : UInt32
  oid : ObjectIdentifier
  property : Option (UInt32 × Option UInt32)
  confirmed : Bool
  timeRemaining : ℕ
  deriving DecidableEq

/-- The process, object and property of an ordinary or Single subscription. -/
def CovSubscriptionKey.coordinates :
    CovSubscriptionKey → Option (UInt32 × ObjectIdentifier × Option (UInt32 × Option UInt32))
  | .object _ processId oid => some (processId, oid, none)
  | .property _ processId oid propertyId index => some (processId, oid, some (propertyId, index))
  | .multiple .. => none

variable {O V L : Type}

def CovSubscriptionSnapshot.active (entry : CovSubscriptionSnapshot O) (now : Instant) :
    Option ActiveCovEntry :=
  match entry.key.coordinates with
  | none => none
  | some (processId, oid, property) =>
    (CovTimeRemaining.at_ entry.expiresAt now).wireSeconds.map fun timeRemaining =>
      ⟨entry.endpoint, processId, oid, property, entry.subscription.issueConfirmedNotifications,
        timeRemaining⟩

def CovTable.activeCovEntries (table : CovTable O) (now : Instant) : List ActiveCovEntry :=
  table.subs.filterMap fun entry => entry.active now

def octets (mac : List UInt8) : List ℕ := mac.map UInt8.toNat

/-- `None` stands before every source. -/
def routedOrder : Option NpduAddress → ℕ ×ₗ ℕ ×ₗ List ℕ
  | none => toLex (0, toLex (0, []))
  | some source => toLex (1, toLex (source.network.toNat, octets source.macAddress))

/-- What `endpoint_order` compares: the routed source, then the link's MAC. -/
def SubscriberEndpoint.place (endpoint : SubscriberEndpoint) : (ℕ ×ₗ ℕ ×ₗ List ℕ) ×ₗ List ℕ :=
  toLex (routedOrder endpoint.network, octets endpoint.mac)

/-- What `order` compares. -/
def ActiveCovEntry.place (entry : ActiveCovEntry) :
    (ℕ ×ₗ ℕ) ×ₗ ℕ ×ₗ ℕ ×ₗ ((ℕ ×ₗ ℕ ×ₗ List ℕ) ×ₗ List ℕ) ×ₗ ℕ :=
  toLex (CovSubscriptionKey.objectOrder entry.oid,
    toLex (CovSubscriptionKey.optionOrder (entry.property.map Prod.fst),
      toLex (CovSubscriptionKey.optionOrder (entry.property.bind Prod.snd),
        toLex (entry.endpoint.place, entry.processId.toNat))))

/-- The assertion of `ActiveCovSubscriptions::project`: no entry comes behind a later one. -/
def InOrder (entries : List ActiveCovEntry) : Prop :=
  entries.IsChain fun first second => first.place ≤ second.place

instance (entries : List ActiveCovEntry) : Decidable (InOrder entries) := by
  unfold InOrder
  infer_instance

/-! ## Keys and places -/

section Lexicographic

variable {α β γ : Type*} [LinearOrder α] [LinearOrder β] [LinearOrder γ] {a a' : α} {b b' : β}

theorem toLex_le_iff_of_lt {c c' : γ} (h : (toLex (a, b) : α ×ₗ β) < toLex (a', b')) :
    (toLex (a, c) : α ×ₗ γ) ≤ toLex (a', c') ↔ (a = a' → c ≤ c') := by
  rw [Prod.Lex.toLex_lt_toLex] at h
  rw [Prod.Lex.toLex_le_toLex]
  rcases h with hlt | ⟨heq, -⟩
  · exact iff_of_true (.inl hlt) fun heq => absurd heq hlt.ne
  · subst heq
    exact ⟨fun h _ => (h.resolve_left (lt_irrefl _)).2, fun h => .inr ⟨rfl, h rfl⟩⟩

theorem lt_of_toLex_lt (h : (toLex (a, b) : α ×ₗ β) < toLex (a', b')) (heq : a = a') : b < b' := by
  rw [Prod.Lex.toLex_lt_toLex] at h
  exact (h.resolve_left heq.not_lt).2

end Lexicographic

variable {property : Option (UInt32 × Option UInt32)}

theorem property_ext {property' : Option (UInt32 × Option UInt32)}
    (hid : CovSubscriptionKey.optionOrder (property.map Prod.fst)
      = CovSubscriptionKey.optionOrder (property'.map Prod.fst))
    (hindex : CovSubscriptionKey.optionOrder (property.bind Prod.snd)
      = CovSubscriptionKey.optionOrder (property'.bind Prod.snd)) : property = property' := by
  have hids := CovSubscriptionKey.optionOrder_injective hid
  have hindexes := CovSubscriptionKey.optionOrder_injective hindex
  cases property with
  | none =>
    cases property' with
    | none => rfl
    | some => cases hids
  | some pair =>
    cases property' with
    | none => cases hids
    | some pair' => exact congrArg some (Prod.ext (Option.some.inj hids) hindexes)

variable {key : CovSubscriptionKey} {oid : ObjectIdentifier} {processId : UInt32}

theorem CovSubscriptionKey.rank_of_coordinates
    (h : key.coordinates = some (processId, oid, property)) :
    key.order = toLex (objectOrder oid, toLex (false, toLex (optionOrder (property.map Prod.fst),
      toLex (optionOrder (property.bind Prod.snd),
        toLex (key.recipient, toLex (processId.toNat, false)))))) := by
  cases key with
  | object => cases h; rfl
  | property => cases h; rfl
  | multiple => cases h

variable {second first : SubscriberEndpoint}

theorem place_lt_of_recipient (h : CovRecipient.fromEndpoint first.mac first.network
      < CovRecipient.fromEndpoint second.mac second.network) : first.place < second.place := by
  have horder : (CovRecipient.fromEndpoint first.mac first.network).order
      < (CovRecipient.fromEndpoint second.mac second.network).order := h
  obtain ⟨mac, network⟩ := first
  obtain ⟨mac', network'⟩ := second
  unfold SubscriberEndpoint.place
  rw [Prod.Lex.toLex_lt_toLex]
  cases network with
  | none =>
    cases network' with
    | none =>
      refine .inr ⟨rfl, ?_⟩
      simp only [CovRecipient.fromEndpoint, CovRecipient.order, Prod.Lex.toLex_lt_toLex] at horder
      simpa [octets] using horder
    | some source' =>
      refine .inl ?_
      unfold routedOrder
      rw [Prod.Lex.toLex_lt_toLex]
      exact .inl Nat.zero_lt_one
  | some source =>
    refine .inl ?_
    cases network' with
    | none =>
      simp only [CovRecipient.fromEndpoint, CovRecipient.order, Prod.Lex.toLex_lt_toLex] at horder
      simp at horder
    | some source' => exact horder

/-- Two places of one client's endpoints. -/
theorem place_le_of_recipient (h : CovRecipient.fromEndpoint first.mac first.network
      = CovRecipient.fromEndpoint second.mac second.network) {process process' : ℕ}
    (hprocess : process < process') :
    (toLex (first.place, process) : ((ℕ ×ₗ ℕ ×ₗ List ℕ) ×ₗ List ℕ) ×ₗ ℕ)
        ≤ toLex (second.place, process') ↔
      (first.network.isSome = true → octets first.mac ≤ octets second.mac) := by
  obtain ⟨mac, network⟩ := first
  obtain ⟨mac', network'⟩ := second
  rw [Prod.Lex.toLex_le_toLex]
  unfold SubscriberEndpoint.place
  cases network with
  | none =>
    cases network' with
    | none =>
      injection h with hmac
      subst hmac
      exact iff_of_true (.inr ⟨rfl, hprocess.le⟩) fun hsome => (nomatch hsome)
    | some source' => cases h
  | some source =>
    cases network' with
    | none => cases h
    | some source' =>
      injection h with hsource
      subst hsource
      rw [Prod.Lex.toLex_lt_toLex]
      constructor
      · rintro ((hlt | ⟨-, hlt⟩) | ⟨heq, -⟩) -
        · exact absurd hlt (lt_irrefl _)
        · exact hlt.le
        · exact (Prod.ext_iff.mp (toLex.injective heq)).2.le
      · intro hle
        rcases (hle rfl).lt_or_eq with hlt | heq
        · exact .inl (.inr ⟨rfl, hlt⟩)
        · exact .inr ⟨by rw [heq], hprocess.le⟩

/-- Two listed entries stand as their keys do, unless they are one routed client's for one reference
and come through routers in the other order. -/
theorem place_le_iff {key' : CovSubscriptionKey} {first second : ActiveCovEntry}
    (hfirst : key.coordinates = some (first.processId, first.oid, first.property))
    (hsecond : key'.coordinates = some (second.processId, second.oid, second.property))
    (hclient : key.recipient = .fromEndpoint first.endpoint.mac first.endpoint.network)
    (hclient' : key'.recipient = .fromEndpoint second.endpoint.mac second.endpoint.network)
    (hlt : key < key') :
    first.place ≤ second.place ↔
      (first.oid = second.oid → first.property = second.property → key.recipient = key'.recipient →
        first.endpoint.network.isSome = true →
          octets first.endpoint.mac ≤ octets second.endpoint.mac) := by
  have horder : key.order < key'.order := hlt
  rw [CovSubscriptionKey.rank_of_coordinates hfirst, CovSubscriptionKey.rank_of_coordinates hsecond]
    at horder
  unfold ActiveCovEntry.place
  rw [toLex_le_iff_of_lt horder]
  by_cases hobject : CovSubscriptionKey.objectOrder first.oid
      = CovSubscriptionKey.objectOrder second.oid
  swap
  · exact iff_of_true (fun h => absurd h hobject) fun h => absurd (congrArg _ h) hobject
  have hreference := lt_of_toLex_lt (lt_of_toLex_lt horder hobject) rfl
  rw [toLex_le_iff_of_lt hreference]
  by_cases hproperty : CovSubscriptionKey.optionOrder (first.property.map Prod.fst)
      = CovSubscriptionKey.optionOrder (second.property.map Prod.fst)
  swap
  · exact iff_of_true (fun _ h => absurd h hproperty)
      fun _ h => absurd (congrArg (fun property => CovSubscriptionKey.optionOrder
        (property.map Prod.fst)) h) hproperty
  have hindexes := lt_of_toLex_lt hreference hproperty
  rw [toLex_le_iff_of_lt hindexes]
  by_cases hindex : CovSubscriptionKey.optionOrder (first.property.bind Prod.snd)
      = CovSubscriptionKey.optionOrder (second.property.bind Prod.snd)
  swap
  · exact iff_of_true (fun _ _ h => absurd h hindex)
      fun _ h => absurd (congrArg (fun property => CovSubscriptionKey.optionOrder
        (property.bind Prod.snd)) h) hindex
  have hclients := lt_of_toLex_lt hindexes hindex
  have hoid : first.oid = second.oid := CovSubscriptionKey.objectOrder_injective hobject
  have heq : first.property = second.property := property_ext hproperty hindex
  rw [forall_prop_of_true hobject, forall_prop_of_true hproperty, forall_prop_of_true hindex,
    forall_prop_of_true hoid, forall_prop_of_true heq]
  by_cases hrecipient : key.recipient = key'.recipient
  · rw [forall_prop_of_true hrecipient]
    have hprocesses := lt_of_toLex_lt hclients hrecipient
    rw [Prod.Lex.toLex_lt_toLex] at hprocesses
    refine place_le_of_recipient (hclient.symm.trans (hrecipient.trans hclient')) ?_
    exact hprocesses.resolve_right fun h => absurd h.2 (lt_irrefl _)
  · refine iff_of_true ?_ fun h => absurd h hrecipient
    rw [Prod.Lex.toLex_lt_toLex] at hclients
    have hrecipients := hclients.resolve_right fun h => hrecipient h.1
    rw [hclient, hclient'] at hrecipients
    rw [Prod.Lex.toLex_le_toLex]
    exact .inl (place_lt_of_recipient hrecipients)

namespace CovTable

variable {table table' table'' : CovTable O} {now : Instant}

/-! ## Whose endpoint an entry has -/

/-- An entry's endpoint is one of its key's client. -/
def Owned (table : CovTable O) : Prop :=
  ∀ entry ∈ table.subs, entry.key.recipient = entry.recipient

theorem owned_new (id : ℕ) (policy : CovPolicy) : (new id policy : CovTable O).Owned :=
  fun _ h => absurd h List.not_mem_nil

theorem Alike.owned (h : Alike table table') (howned : table.Owned) : table'.Owned := by
  intro entry hentry
  obtain ⟨old, hold, hface⟩ := h.mem hentry
  simp only [CovSubscriptionSnapshot.face, Prod.mk.injEq] at hface
  rw [← hface.1, ← hface.2.1]
  exact howned old hold

theorem owned_of_mem (howned : table.Owned) (h : ∀ entry ∈ table'.subs, entry ∈ table.subs) :
    table'.Owned :=
  fun entry hentry => howned entry (h entry hentry)

theorem mem_of_removeEach (wasCancelled : Bool) (keys : List CovSubscriptionKey) :
    ∀ {table : CovTable O}, table.Orderly →
      ∀ entry ∈ (table.removeEach wasCancelled keys).2.subs, entry ∈ table.subs := by
  induction keys with
  | nil => exact fun _ _ h => h
  | cons key keys ih =>
    intro table horder entry hentry
    have hrest := ih (orderly_removeInternal key wasCancelled horder) entry hentry
    exact ((mem_removeInternal horder).mp hrest).1

theorem owned_expire (horder : table.Orderly) (howned : table.Owned) (now : Instant) :
    (table.expire now).2.Owned := by
  unfold expire
  split_ifs
  · exact howned
  · obtain ⟨counts, hpurge⟩ := purge_eq table now
    rw [hpurge]
    have halike := alike_endAbandoned table now
    exact owned_of_mem (halike.owned howned)
      fun entry hentry => mem_of_removeEach false _ (halike.orderly horder) entry hentry

theorem owned_expireAll (howned : table.Owned) (now : Instant) : (table.expireAll now).Owned := by
  intro entry hentry
  rw [(expireAll_fields table now).1] at hentry
  obtain ⟨old, hold, rfl⟩ := List.mem_map.mp hentry
  exact howned old hold

theorem owned_insert (horder : table.Orderly) (howned : table.Owned)
    {snapshot : CovSubscriptionSnapshot O} (hsnapshot : snapshot.key.recipient = snapshot.recipient) :
    (table.insert snapshot).Owned := by
  intro entry hentry
  rcases mem_insert horder snapshot hentry with rfl | ⟨hold, -⟩
  · exact hsnapshot
  · exact howned entry hold

theorem owned_checkCaps (horder : table.Orderly) (howned : table.Owned) (peer : CovRecipient)
    (newCount newIndefinite : ℕ) : (table.checkCaps peer newCount newIndefinite now).2.Owned := by
  have hexpired := owned_expire horder howned now
  unfold checkCaps
  generalize (table.expire now).2 = expired at hexpired ⊢
  dsimp only
  split
  · exact hexpired
  · split
    · exact hexpired
    · exact hexpired

theorem owned_checkAdmission (horder : table.Orderly) (howned : table.Owned) (peer : CovRecipient)
    (isIndefinite : Bool) (existing : Option (CovSubscriptionSnapshot O)) :
    (table.checkAdmission peer isIndefinite existing now).2.Owned := by
  have hexpired := owned_expire horder howned now
  have horder' := (orderly_expire now horder).1
  unfold checkAdmission
  generalize (table.expire now).2 = expired at hexpired horder' ⊢
  dsimp only
  split
  · exact hexpired
  · exact owned_checkCaps horder' hexpired _ _ _

theorem reserveGenerations_subs (table : CovTable O) (count : ℕ) :
    (table.reserveGenerations count).2.subs = table.subs := by
  unfold reserveGenerations
  split_ifs
  · rfl
  · rfl
  · rfl

theorem owned_subscribe (hvalid : table.Valid) (howned : table.Owned) (sub : CovSubscription O) :
    (table.subscribe sub now).2.Owned := by
  unfold subscribe
  split
  · exact howned
  rename_i key hkey
  split
  · exact howned
  have hexpire := quiet_expire now hvalid
  have hexpired := owned_expire hvalid.toOrderly howned now
  dsimp only
  have hcheck := quiet_checkAdmission now (hexpire.valid hvalid) sub.recipient sub.expiresAt.isNone
    ((table.expire now).2.get key)
  have hchecked : ((table.expire now).2.checkAdmission sub.recipient sub.expiresAt.isNone
      ((table.expire now).2.get key) now).2.Owned :=
    owned_checkAdmission (hexpire.valid hvalid).toOrderly hexpired _ _ _
  have hvalid' := (hexpire.trans hcheck).valid hvalid
  split
  · rename_i refused checked hresult
    rw [hresult] at hchecked
    exact hchecked
  rename_i checked hresult
  rw [hresult] at hchecked hvalid'
  have hsubs := reserveGenerations_subs checked 1
  have hvalid'' := (quiet_reserveGenerations now hvalid' 1).valid hvalid'
  split
  · rename_i refused reserved hresult
    rw [hresult] at hsubs
    exact owned_of_mem hchecked fun entry hentry => hsubs ▸ hentry
  rename_i generation reserved hresult
  rw [hresult] at hsubs hvalid''
  rw [publish_own]
  have hflown := (quiet_newFlight now hvalid'').valid hvalid''
  refine owned_insert hflown.toOrderly (owned_of_mem hchecked fun entry hentry => hsubs ▸ hentry) ?_
  exact CovSubscription.recipient_of_key hkey

theorem owned_publishEach (refresh : Refresh)
    (proposals : List (CovSubscriptionKey × CovSubscription O)) :
    ∀ {table : CovTable O} (generation : ℕ), table.Orderly → table.Owned →
      (∀ proposal ∈ proposals, proposal.1.recipient = proposal.2.recipient) →
      (table.publishEach refresh proposals generation).2.Owned := by
  induction proposals with
  | nil => exact fun _ _ howned _ => howned
  | cons proposal proposals ih =>
    obtain ⟨key, sub⟩ := proposal
    intro table generation horder howned hproposed
    have hsnapshot : key.recipient = sub.recipient := hproposed (key, sub) List.mem_cons_self
    refine ih (generation + 1) (orderly_insert horder _) (owned_insert horder howned hsnapshot)
      fun proposal hproposal => hproposed proposal (List.mem_cons_of_mem _ hproposal)

variable {proposals : List (CovSubscriptionKey × CovSubscription O)} {context : MultipleContextKey}
  {route : SubscriberEndpoint}

theorem owned_commitMultiple (hvalid : table.Valid) (howned : table.Owned)
    (hroute : CovRecipient.fromEndpoint route.mac route.network = context.recipient)
    (expiresAt : Instant) (maxNotificationDelay : UInt32) (subscriberMaxApdu : Option UInt16)
    (generation : ℕ)
    (hproposed : ∀ proposal ∈ proposals, proposal.1.recipient = proposal.2.recipient) :
    (table.commitMultiple context route expiresAt maxNotificationDelay subscriberMaxApdu
      proposals generation now).2.Owned := by
  have halike := alike_contextFlight table context route (!proposals.isEmpty) now
  have horder := halike.orderly hvalid.toOrderly
  have hflown := halike.owned howned
  unfold commitMultiple
  generalize table.contextFlight context route (!proposals.isEmpty) now = chosen
    at horder hflown ⊢
  obtain ⟨⟨flight, replaced⟩, flown⟩ := chosen
  dsimp only at horder hflown ⊢
  generalize flown.keptMaxApdu context subscriberMaxApdu = maxApdu
  set refresh : Refresh := ⟨context, route, expiresAt, maxNotificationDelay, maxApdu, flight⟩
  have hdue : ∃ due, (flown.dueBy (some expiresAt)).nextDue = some due ∧
      due ≤ refresh.expiresAt := earliest_pair_le _
  have hnoted : (flown.dueBy (some expiresAt)).Orderly := by
    have hdues : Alike flown (flown.dueBy (some expiresAt)) :=
      ⟨rfl, rfl, rfl, rfl, dueNoLater_dueBy flown _⟩
    exact hdues.orderly horder
  have hrefreshed : ((flown.dueBy (some expiresAt)).refreshContext refresh).Owned := by
    intro entry hentry
    obtain ⟨old, hold, rfl⟩ := List.mem_map.mp hentry
    unfold Refresh.entry
    split_ifs with hcontext
    · exact (CovSubscriptionKey.recipient_of_multipleContext hcontext).trans hroute.symm
    · exact hflown old hold
  have hpublished := owned_publishEach refresh proposals generation
    (orderly_refreshContext hnoted hdue) hrefreshed hproposed
  generalize ((flown.dueBy (some expiresAt)).refreshContext refresh).publishEach refresh proposals
    generation = written at hpublished ⊢
  obtain ⟨accepted, last⟩ := written
  dsimp only at hpublished ⊢
  cases replaced with
  | none => exact hpublished
  | some replaced =>
    refine (alike_fenceContextFlight _ context replaced _ now).owned ?_
    exact hpublished

theorem owned_admitMultiple (hvalid : table.Valid) (howned : table.Owned)
    (hroute : CovRecipient.fromEndpoint route.mac route.network = context.recipient)
    (expiresAt : Instant) (maxNotificationDelay : UInt32) (subscriberMaxApdu : Option UInt16)
    (hproposed : ∀ proposal ∈ proposals, proposal.1.recipient = proposal.2.recipient) :
    (table.admitMultiple context route expiresAt maxNotificationDelay subscriberMaxApdu
      proposals now).2.Owned := by
  have hvalid' := (quiet_reserveGenerations now hvalid (retainFinal proposals).length).valid hvalid
  have hreserved : (table.reserveGenerations (retainFinal proposals).length).2.Owned :=
    owned_of_mem howned fun entry hentry => reserveGenerations_subs table _ ▸ hentry
  unfold admitMultiple
  dsimp only
  split
  · rename_i refused reserved hresult
    rw [hresult] at hreserved
    exact hreserved
  · rename_i generation reserved hresult
    rw [hresult] at hreserved hvalid'
    exact owned_commitMultiple hvalid' hreserved hroute expiresAt maxNotificationDelay
      subscriberMaxApdu generation fun p hp => hproposed p (mem_retainFinal hp)

theorem owned_subscribeMultiple (hvalid : table.Valid) (howned : table.Owned)
    (context : MultipleContextKey) (route : SubscriberEndpoint) (expiresAt : Instant)
    (maxNotificationDelay : UInt32) (subscriberMaxApdu : Option UInt16)
    (subscriptions : List (CovSubscription O)) :
    (table.subscribeMultiple context route expiresAt maxNotificationDelay subscriberMaxApdu
      subscriptions now).2.Owned := by
  generalize hafter : (table.subscribeMultiple context route expiresAt maxNotificationDelay
    subscriberMaxApdu subscriptions now).2 = after
  rcases subscribeMultiple_cases hafter with rfl | ⟨base, hbase, hleft⟩
  · exact howned
  have hkept : base.Owned := by
    have hexpired := owned_expire hvalid.toOrderly howned now
    rcases hbase with rfl | ⟨cap, rfl⟩
    · exact hexpired
    · exact hexpired
  rcases hleft with rfl | ⟨hroute, proposals, all, hall, hmem, rfl⟩
  · exact hkept
  · exact owned_admitMultiple ((quiet_base now hvalid hbase).1.valid hvalid) hkept hroute expiresAt
      maxNotificationDelay subscriberMaxApdu fun p hp => CovSubscription.recipient_of_key
        (validateMultiple_ok subscriptions hall p (hmem p hp)).key

theorem owned_perform (hvalid : table.Valid) (howned : table.Owned) (op : Op O V L) :
    (table.perform op).Owned := by
  cases op with
  | subscribe sub now => exact owned_subscribe hvalid howned sub
  | subscribeMultiple context route expiresAt delay maxApdu subscriptions now =>
    exact owned_subscribeMultiple hvalid howned context route expiresAt delay maxApdu subscriptions
  | unsubscribe key =>
    exact owned_of_mem howned fun entry h => ((mem_removeInternal hvalid.toOrderly).mp h).1
  | unsubscribeCovMultipleContext context =>
    exact owned_of_mem howned (mem_of_removeEach true _ hvalid.toOrderly)
  | removeForObject oid => exact owned_of_mem howned (mem_of_removeEach false _ hvalid.toOrderly)
  | removePeerSubscriptions mac network =>
    exact owned_of_mem howned (mem_of_removeEach true _ hvalid.toOrderly)
  | expire now => exact owned_expire hvalid.toOrderly howned now
  | expireAll now => exact owned_expireAll howned now
  | subscriptionsFor oid now => exact owned_expire hvalid.toOrderly howned now
  | evaluate subs sources budget now =>
    exact (alike_evaluate table subs sources budget now).owned howned
  | prepareCompletion snapshot => exact (alike_prepareCompletion table snapshot).owned howned
  | beginConfirmed prepared references now =>
    exact (alike_beginConfirmed table prepared references now).owned howned
  | delivered token outcome now => exact (alike_delivered table token outcome now).owned howned
  | completeObservation snapshot prepared value now =>
    exact (alike_completeObservation table snapshot prepared value now).owned howned
  | takeOwedContext context now => exact (alike_takeOwedContext table context now).owned howned
  | takeCounts => exact howned
  | takeFenced => exact howned
  | withFlightTiming timing => exact howned

theorem owned_performAll (ops : List (Op O V L)) :
    ∀ {table : CovTable O}, table.Valid → table.Owned → (table.performAll ops).Owned := by
  induction ops with
  | nil => exact fun _ h => h
  | cons op ops ih =>
    exact fun hvalid howned => ih (valid_perform hvalid op) (owned_perform hvalid howned op)

/-! ## When the list is in order -/

variable {entry : CovSubscriptionSnapshot O}

theorem active_eq_some {listed : ActiveCovEntry} (h : entry.active now = some listed) :
    entry.key.coordinates = some (listed.processId, listed.oid, listed.property) ∧
      listed.endpoint = entry.endpoint ∧ isExpired now entry = false := by
  unfold CovSubscriptionSnapshot.active at h
  split at h
  · cases h
  rename_i processId oid property hcoordinates
  obtain ⟨seconds, hseconds, rfl⟩ := Option.map_eq_some_iff.mp h
  refine ⟨hcoordinates, rfl, ?_⟩
  rw [← Bool.not_eq_true, isExpired_iff]
  rintro ⟨expires, hexpires, hreached⟩
  have hleft := (CovTimeRemaining.isSome_wireSeconds entry.expiresAt now).mp (by rw [hseconds]; rfl)
  exact absurd (hleft expires hexpires) (Nat.not_lt.mpr hreached)

theorem exists_active (hcoordinates : entry.key.coordinates = some (processId, oid, property))
    (hlive : isExpired now entry = false) :
    ∃ listed, entry.active now = some listed ∧ listed.processId = processId ∧ listed.oid = oid ∧
      listed.property = property ∧ listed.endpoint = entry.endpoint := by
  have hleft : (CovTimeRemaining.at_ entry.expiresAt now).wireSeconds.isSome = true := by
    rw [CovTimeRemaining.isSome_wireSeconds]
    intro expires hexpires
    refine Nat.not_le.mp fun hreached => ?_
    rw [isExpired_iff.mpr ⟨expires, hexpires, hreached⟩] at hlive
    cases hlive
  obtain ⟨seconds, hseconds⟩ := Option.isSome_iff_exists.mp hleft
  unfold CovSubscriptionSnapshot.active
  rw [hcoordinates, hseconds]
  exact ⟨_, rfl, rfl, rfl, rfl, rfl⟩

/-- The live subscriptions of each routed client for one reference come through routers whose MACs
ascend with the processes. -/
def Ascending (now : Instant) (table : CovTable O) : Prop :=
  ∀ entry ∈ table.subs, ∀ other ∈ table.subs,
    isExpired now entry = false → isExpired now other = false →
    ∀ source oid property processId processId', entry.endpoint.network = some source →
      other.endpoint.network = some source →
      entry.key.coordinates = some (processId, oid, property) →
      other.key.coordinates = some (processId', oid, property) → processId < processId' →
      octets entry.endpoint.mac ≤ octets other.endpoint.mac

/-- In key order, a relation holds along the list when it holds of every two in that order. -/
theorem pairwise_iff_of_sorted {entries : List (CovSubscriptionSnapshot O)}
    (hsorted : Sorted (·.key) entries)
    {R : CovSubscriptionSnapshot O → CovSubscriptionSnapshot O → Prop} :
    entries.Pairwise R ↔ ∀ entry ∈ entries, ∀ other ∈ entries, entry.key < other.key →
      R entry other := by
  constructor
  · intro hpairs entry hentry other hother hlt
    induction hpairs with
    | nil => cases hentry
    | @cons first rest hfirst _ ih =>
      obtain ⟨hleast, hrest⟩ := List.pairwise_cons.mp hsorted
      rcases List.mem_cons.mp hentry with rfl | hbehind
      · rcases List.mem_cons.mp hother with rfl | hbehind
        · exact absurd hlt (lt_irrefl _)
        · exact hfirst other hbehind
      · rcases List.mem_cons.mp hother with rfl | hbehind'
        · exact absurd (hleast entry hbehind) (lt_asymm hlt)
        · exact ih hrest hbehind hbehind'
  · intro hall
    exact hsorted.imp_of_mem fun hentry hother hlt => hall _ hentry _ hother hlt

/-- The list is in order exactly when no routed client's routers stand the other way. -/
theorem inOrder_iff (hsorted : Sorted (·.key) table.subs) (howned : table.Owned) :
    InOrder (table.activeCovEntries now) ↔ table.Ascending now := by
  unfold InOrder activeCovEntries
  rw [List.isChain_iff_pairwise, List.pairwise_filterMap, pairwise_iff_of_sorted hsorted]
  have hplaces : ∀ entry ∈ table.subs, ∀ other ∈ table.subs, entry.key < other.key →
      ∀ first second, entry.active now = some first → other.active now = some second →
      (first.place ≤ second.place ↔
        (first.oid = second.oid → first.property = second.property →
          entry.key.recipient = other.key.recipient → entry.endpoint.network.isSome = true →
          octets entry.endpoint.mac ≤ octets other.endpoint.mac)) := by
    intro entry hentry other hother hlt first second hfirst hsecond
    obtain ⟨hcoordinates, hendpoint, -⟩ := active_eq_some hfirst
    obtain ⟨hcoordinates', hendpoint', -⟩ := active_eq_some hsecond
    rw [← hendpoint, ← hendpoint']
    refine place_le_iff hcoordinates hcoordinates' ?_ ?_ hlt
    · rw [hendpoint]
      exact howned entry hentry
    · rw [hendpoint']
      exact howned other hother
  constructor
  · intro hpairs entry hentry other hother hlive hlive' source oid property processId processId'
      hsource hsource' hcoordinates hcoordinates' hprocess
    have hclient : entry.key.recipient = other.key.recipient := by
      rw [howned entry hentry, howned other hother]
      show CovRecipient.fromEndpoint entry.endpoint.mac entry.endpoint.network
        = CovRecipient.fromEndpoint other.endpoint.mac other.endpoint.network
      rw [hsource, hsource']
      rfl
    have hlt : entry.key < other.key := by
      show entry.key.order < other.key.order
      rw [CovSubscriptionKey.rank_of_coordinates hcoordinates,
        CovSubscriptionKey.rank_of_coordinates hcoordinates', hclient]
      simpa [Prod.Lex.toLex_lt_toLex, UInt32.lt_iff_toNat_lt] using hprocess
    obtain ⟨first, hfirst, -, hoid, hproperty, -⟩ := exists_active hcoordinates hlive
    obtain ⟨second, hsecond, -, hoid', hproperty', -⟩ := exists_active hcoordinates' hlive'
    have hle := hpairs entry hentry other hother hlt first hfirst second hsecond
    exact (hplaces entry hentry other hother hlt first second hfirst hsecond).mp hle
      (hoid.trans hoid'.symm) (hproperty.trans hproperty'.symm) hclient (by rw [hsource]; rfl)
  · intro hascending entry hentry other hother hlt first hfirst second hsecond
    rw [hplaces entry hentry other hother hlt first second hfirst hsecond]
    intro hoid hproperty hclient hrouted
    obtain ⟨hcoordinates, -, hlive⟩ := active_eq_some hfirst
    obtain ⟨hcoordinates', -, hlive'⟩ := active_eq_some hsecond
    obtain ⟨source, hsource⟩ := Option.isSome_iff_exists.mp hrouted
    have hsource' : other.endpoint.network = some source := by
      rw [howned entry hentry, howned other hother] at hclient
      have hboth : CovRecipient.fromEndpoint entry.endpoint.mac entry.endpoint.network
        = CovRecipient.fromEndpoint other.endpoint.mac other.endpoint.network := hclient
      rw [hsource] at hboth
      cases hnetwork : other.endpoint.network with
      | none =>
        rw [hnetwork] at hboth
        cases hboth
      | some source' =>
        rw [hnetwork] at hboth
        cases hboth
        rfl
    have hprocess : first.processId < second.processId := by
      have horder : entry.key.order < other.key.order := hlt
      rw [CovSubscriptionKey.rank_of_coordinates hcoordinates,
        CovSubscriptionKey.rank_of_coordinates hcoordinates', hclient, hoid, hproperty] at horder
      simpa [Prod.Lex.toLex_lt_toLex, UInt32.lt_iff_toNat_lt] using horder
    rw [← hoid, ← hproperty] at hcoordinates'
    exact hascending entry hentry other hother hlive hlive' source first.oid first.property
      first.processId second.processId hsource hsource' hcoordinates hcoordinates' hprocess

/-- In every reached table the list is in its own order exactly when the routers of each routed
client's subscriptions to one reference ascend with the processes. -/
theorem active_list_ordered (id : ℕ) (policy : CovPolicy) (ops : List (Op O V L)) (now : Instant) :
    let table : CovTable O := (new id policy).performAll ops
    InOrder (table.activeCovEntries now) ↔ table.Ascending now :=
  inOrder_iff (valid_performAll ops (valid_new id policy)).sorted
    (owned_performAll ops (valid_new id policy) (owned_new id policy))

/-- An indefinite whole-object subscription of the client 33 on network 7, through a router. -/
def routedBy (router : UInt8) (processId : UInt32) : CovSubscription Unit where
  subscriberMac := [router]
  subscriberNetwork := some ⟨7, [33]⟩
  subscriberProcessIdentifier := processId
  monitoredObjectIdentifier := ⟨2, 1, Encoding.analogValue_le, Encoding.instanceOne_le⟩
  issueConfirmedNotifications := false
  expiresAt := none
  lastNotifiedObservation := none
  monitoredProperty := none
  monitoredPropertyArrayIndex := none
  notificationKind := .single
  timestamped := false

/-- Process 1 subscribes through the router 9 and process 2 through the router 3: the key order puts
process 1 first, the list's order process 2. -/
theorem active_list_disordered :
    ¬ InOrder (((new 0 .initial : CovTable Unit).performAll
      ([.subscribe (routedBy 9 1) 0, .subscribe (routedBy 3 2) 1] : List (Op Unit Unit Unit))
      ).activeCovEntries 2) := by
  decide +kernel

end CovTable

end RustyBacnet.Cov
