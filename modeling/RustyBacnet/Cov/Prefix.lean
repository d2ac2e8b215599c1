import Mathlib.Data.List.Dedup
import RustyBacnet.Cov.Coherence

/-!
# The accepted prefix of a refused request

A refusal is counted before the proposals that fit are admitted, and nothing an admission does reads
the counts (`tallied` commutes with each step). So a request refused at a position leaves the table
its accepted prefix alone would have left, with the refusal counted. The position is the first whose
key is new when the keys before it have used up the room (`overflowFrom_first`).
-/

namespace RustyBacnet.Cov

variable {O : Type}

/-- One more refusal at `cap`. -/
def CovCounters.refused (counts : CovCounters) : Cap → CovCounters
  | .peer => { counts with subscriptionsRejectedQuota := counts.subscriptionsRejectedQuota + 1 }
  | .table =>
    { counts with subscriptionsRejectedCapacity := counts.subscriptionsRejectedCapacity + 1 }

namespace CovTable

variable {table : CovTable O} {now : Instant}

/-! ## A counted refusal -/

/-- The table with a refusal at `cap` counted. -/
def tallied (table : CovTable O) (cap : Cap) : CovTable O :=
  { table with counts := table.counts.refused cap }

@[simp] theorem refuseNew_snd (table : CovTable O) (cap : Cap) :
    (table.refuseNew cap).2 = table.tallied cap := by
  cases cap with
  | peer => rfl
  | table => rfl

theorem tallied_comm (table : CovTable O) (cap cap' : Cap) :
    (table.tallied cap).tallied cap' = (table.tallied cap').tallied cap := by
  cases cap with
  | peer => cases cap' <;> rfl
  | table => cases cap' <;> rfl

theorem reserveGenerations_tallied (table : CovTable O) (cap : Cap) (count : ℕ) :
    (table.tallied cap).reserveGenerations count
      = ((table.reserveGenerations count).1, (table.reserveGenerations count).2.tallied cap) := by
  unfold reserveGenerations
  by_cases hzero : count = 0
  · rw [if_pos hzero, if_pos hzero]
    rfl
  · rw [if_neg hzero, if_neg hzero]
    have hgeneration : (table.tallied cap).generation = table.generation := rfl
    rw [hgeneration]
    split_ifs
    · exact congrArg (Prod.mk _) (tallied_comm table cap .table)
    · rfl

theorem contextFlight_tallied (table : CovTable O) (cap : Cap) (context : MultipleContextKey)
    (route : SubscriberEndpoint) (listsReferences : Bool) (now : Instant) :
    (table.tallied cap).contextFlight context route listsReferences now
      = ((table.contextFlight context route listsReferences now).1,
        (table.contextFlight context route listsReferences now).2.tallied cap) := by
  unfold contextFlight
  have hreferences : (table.tallied cap).multipleContextReferences context
      = table.multipleContextReferences context := rfl
  have hidle : ∀ flight, (table.tallied cap).flightIdle flight now
      = table.flightIdle flight now := fun _ => rfl
  rw [hreferences]
  cases (table.multipleContextReferences context).head? with
  | none => rfl
  | some entry =>
    dsimp only
    rw [hidle]
    split_ifs
    · rfl
    · rfl

theorem fenceFlight_tallied (table : CovTable O) (cap : Cap) (flight : ℕ) :
    (table.tallied cap).fenceFlight flight = (table.fenceFlight flight).tallied cap := by
  unfold fenceFlight
  have hflights : (table.tallied cap).flights = table.flights := rfl
  rw [hflights]
  cases table.flights.get flight with
  | none => rfl
  | some state => rfl

theorem countPublished_tallied (table : CovTable O) (cap : Cap)
    (snapshot : CovSubscriptionSnapshot O) (old : Option (CovSubscriptionSnapshot O)) :
    (table.tallied cap).countPublished snapshot old
      = (table.countPublished snapshot old).tallied cap := by
  unfold countPublished
  cases old with
  | none => cases cap <;> rfl
  | some old =>
    dsimp only
    by_cases hflight : (old.flight != snapshot.flight) = true
    · rw [if_pos hflight, if_pos hflight, fenceFlight_tallied]
      rfl
    · rw [if_neg hflight, if_neg hflight]
      rfl

theorem insert_tallied (table : CovTable O) (cap : Cap) (snapshot : CovSubscriptionSnapshot O) :
    (table.tallied cap).insert snapshot = (table.insert snapshot).tallied cap := by
  unfold insert
  have hdue : (table.tallied cap).dueBy snapshot.expiresAt
      = (table.dueBy snapshot.expiresAt).tallied cap := rfl
  rw [hdue]
  generalize table.dueBy snapshot.expiresAt = noted
  have hsubs : (noted.tallied cap).subs = noted.subs := rfl
  dsimp only
  rw [hsubs]
  generalize SortedArray.put (fun entry : CovSubscriptionSnapshot O => entry.key) noted.subs
    snapshot = written
  obtain ⟨old, subs⟩ := written
  exact countPublished_tallied { noted with subs } cap snapshot old

theorem publishEach_tallied (cap : Cap) (refresh : Refresh)
    (proposals : List (CovSubscriptionKey × CovSubscription O)) :
    ∀ (table : CovTable O) (generation : ℕ),
      (table.tallied cap).publishEach refresh proposals generation
        = ((table.publishEach refresh proposals generation).1,
          (table.publishEach refresh proposals generation).2.tallied cap) := by
  induction proposals with
  | nil => exact fun _ _ => rfl
  | cons proposal proposals ih =>
    intro table generation
    obtain ⟨key, sub⟩ := proposal
    unfold publishEach publish
    dsimp only
    rw [insert_tallied, ih]
    rfl

theorem fenceContextFlight_tallied (table : CovTable O) (cap : Cap) (context : MultipleContextKey)
    (replaced : ℕ) (listed : List CovSubscriptionKey) (now : Instant) :
    (table.tallied cap).fenceContextFlight context replaced listed now
      = (table.fenceContextFlight context replaced listed now).tallied cap := by
  unfold fenceContextFlight
  have hflights : (table.tallied cap).flights = table.flights := rfl
  rw [hflights]
  cases (table.flights.get replaced).bind fun state => state.owedCarried now with
  | none => exact fenceFlight_tallied table cap replaced
  | some carried =>
    set forgotten : CovTable O := { table with
      subs := table.subs.map (forget context carried listed) }
    exact fenceFlight_tallied { forgotten with
      fenced :=
        { forgotten.fenced with
          revisit := forgotten.fenced.revisit
            ++ (forgotten.multipleContextReferences context).map CovSubscriptionSnapshot.key } }
      cap replaced

theorem commitMultiple_tallied (table : CovTable O) (cap : Cap) (context : MultipleContextKey)
    (route : SubscriberEndpoint) (expiresAt : Instant) (maxNotificationDelay : UInt32)
    (subscriberMaxApdu : Option UInt16)
    (proposals : List (CovSubscriptionKey × CovSubscription O)) (generation : ℕ) (now : Instant) :
    (table.tallied cap).commitMultiple context route expiresAt maxNotificationDelay
        subscriberMaxApdu proposals generation now
      = ((table.commitMultiple context route expiresAt maxNotificationDelay subscriberMaxApdu
          proposals generation now).1,
        (table.commitMultiple context route expiresAt maxNotificationDelay subscriberMaxApdu
          proposals generation now).2.tallied cap) := by
  unfold commitMultiple
  rw [contextFlight_tallied]
  generalize table.contextFlight context route (!proposals.isEmpty) now = chosen
  obtain ⟨⟨flight, replaced⟩, flown⟩ := chosen
  dsimp only
  have hmax : (flown.tallied cap).keptMaxApdu context subscriberMaxApdu
      = flown.keptMaxApdu context subscriberMaxApdu := rfl
  rw [hmax]
  generalize (⟨context, route, expiresAt, maxNotificationDelay,
    flown.keptMaxApdu context subscriberMaxApdu, flight⟩ : Refresh) = refresh
  have hrefresh : ((flown.tallied cap).dueBy (some expiresAt)).refreshContext refresh
      = ((flown.dueBy (some expiresAt)).refreshContext refresh).tallied cap := rfl
  rw [hrefresh, publishEach_tallied]
  generalize ((flown.dueBy (some expiresAt)).refreshContext refresh).publishEach refresh proposals
    generation = written
  obtain ⟨accepted, last⟩ := written
  cases replaced with
  | none => rfl
  | some replaced =>
    dsimp only
    generalize hlast : ({ last with
      fenced := { last.fenced with contexts := last.fenced.contexts ++ [context] } } : CovTable O)
        = ended
    have htallied : ({ last.tallied cap with
        fenced := { (last.tallied cap).fenced with
          contexts := (last.tallied cap).fenced.contexts ++ [context] } } : CovTable O)
        = ended.tallied cap := by
      rw [← hlast]
      rfl
    rw [htallied, fenceContextFlight_tallied]

theorem admitMultiple_tallied (table : CovTable O) (cap : Cap) (context : MultipleContextKey)
    (route : SubscriberEndpoint) (expiresAt : Instant) (maxNotificationDelay : UInt32)
    (subscriberMaxApdu : Option UInt16)
    (proposals : List (CovSubscriptionKey × CovSubscription O)) (now : Instant) :
    (table.tallied cap).admitMultiple context route expiresAt maxNotificationDelay
        subscriberMaxApdu proposals now
      = ((table.admitMultiple context route expiresAt maxNotificationDelay subscriberMaxApdu
          proposals now).1,
        (table.admitMultiple context route expiresAt maxNotificationDelay subscriberMaxApdu
          proposals now).2.tallied cap) := by
  unfold admitMultiple
  dsimp only
  rw [reserveGenerations_tallied]
  generalize table.reserveGenerations (retainFinal proposals).length = reserved
  obtain ⟨reserved, next⟩ := reserved
  cases reserved with
  | error refused => rfl
  | ok generation =>
    dsimp only
    rw [commitMultiple_tallied]

/-! ## Where a request is refused -/

/-- The keys among `keys` that the table does not hold, each once. -/
def newKeys (table : CovTable O) (keys : List CovSubscriptionKey) : List CovSubscriptionKey :=
  (keys.filter fun key => !table.contains key).dedup

/-- The key at `position` is new, and those before it have used up the room. -/
def PastRoom (table : CovTable O) (room : ℕ) (keys : List CovSubscriptionKey) (position : ℕ) :
    Prop :=
  ∃ key, keys[position]? = some key ∧ table.contains key = false ∧ key ∉ keys.take position ∧
    room ≤ (table.newKeys (keys.take position)).length

/-- `added` lists the new keys among `seen`. -/
structure Added (table : CovTable O) (seen added : List CovSubscriptionKey) : Prop where
  nodup : added.Nodup
  mem : ∀ key, key ∈ added ↔ key ∈ seen ∧ table.contains key = false

theorem Added.length_eq {seen added : List CovSubscriptionKey} (h : table.Added seen added) :
    added.length = (table.newKeys seen).length := by
  unfold newKeys
  apply List.Perm.length_eq
  rw [List.perm_ext_iff_of_nodup h.nodup (List.nodup_dedup _)]
  intro key
  rw [h.mem, List.mem_dedup, List.mem_filter, Bool.not_eq_true']

/-- The scan ends at the first key past the room, or there is none. -/
theorem overflowFrom_first {recipient : CovRecipient} {room : ℕ}
    (hroom : table.capPassed recipient (room + 1) ≠ none)
    (proposals : List (CovSubscriptionKey × CovSubscription O)) :
    ∀ (seen added : List CovSubscriptionKey), table.Added seen added → added.length ≤ room →
      match table.overflowFrom recipient room proposals added seen.length with
      | none => ∀ position, seen.length ≤ position →
          ¬ table.PastRoom room (seen ++ proposals.map Prod.fst) position
      | some (first, _) => seen.length ≤ first ∧
          table.PastRoom room (seen ++ proposals.map Prod.fst) first ∧
          (∀ position, seen.length ≤ position → position < first →
            ¬ table.PastRoom room (seen ++ proposals.map Prod.fst) position) ∧
          table.overflowFrom recipient room (proposals.take (first - seen.length)) added
            seen.length = none := by
  induction proposals with
  | nil =>
    rintro seen added - - position hposition ⟨key, hkey, -⟩
    rw [List.map_nil, List.append_nil, List.getElem?_eq_none hposition] at hkey
    cases hkey
  | cons proposal proposals ih =>
    obtain ⟨key, sub⟩ := proposal
    intro seen added hadded hfew
    have hhere : (seen ++ ((key, sub) :: proposals).map Prod.fst)[seen.length]? = some key := by
      rw [List.getElem?_append_right (le_refl _), Nat.sub_self]
      rfl
    have hbefore : (seen ++ ((key, sub) :: proposals).map Prod.fst).take seen.length = seen :=
      List.take_left
    have hkeys : seen ++ ((key, sub) :: proposals).map Prod.fst
        = (seen ++ [key]) ++ proposals.map Prod.fst := by simp
    have hlength : (seen ++ [key]).length = seen.length + 1 := List.length_append
    -- the scan goes on when the first key is not past the room
    have hstep : ∀ added', table.Added (seen ++ [key]) added' → added'.length ≤ room →
        ¬ table.PastRoom room (seen ++ ((key, sub) :: proposals).map Prod.fst) seen.length →
        (∀ rest start, table.overflowFrom recipient room ((key, sub) :: rest) added start
          = table.overflowFrom recipient room rest added' (start + 1)) →
        match table.overflowFrom recipient room ((key, sub) :: proposals) added seen.length with
        | none => ∀ position, seen.length ≤ position →
            ¬ table.PastRoom room (seen ++ ((key, sub) :: proposals).map Prod.fst) position
        | some (first, _) => seen.length ≤ first ∧
            table.PastRoom room (seen ++ ((key, sub) :: proposals).map Prod.fst) first ∧
            (∀ position, seen.length ≤ position → position < first →
              ¬ table.PastRoom room (seen ++ ((key, sub) :: proposals).map Prod.fst) position) ∧
            table.overflowFrom recipient room
              (((key, sub) :: proposals).take (first - seen.length)) added seen.length = none := by
      intro added' hadded' hfew' hfits hgoes
      have hrest := ih (seen ++ [key]) added' hadded' hfew'
      rw [hlength, ← hkeys] at hrest
      rw [hgoes]
      cases hfound : table.overflowFrom recipient room proposals added' (seen.length + 1) with
      | none =>
        rw [hfound] at hrest
        intro position hposition
        rcases hposition.eq_or_lt with rfl | hlater
        · exact hfits
        · exact hrest position hlater
      | some found =>
        obtain ⟨first, cap⟩ := found
        rw [hfound] at hrest
        obtain ⟨hle, hpast, hfirst, htake⟩ := hrest
        refine ⟨Nat.le_of_succ_le hle, hpast, ?_, ?_⟩
        · intro position hposition hlt
          rcases hposition.eq_or_lt with rfl | hlater
          · exact hfits
          · exact hfirst position hlater hlt
        · rw [show first - seen.length = (first - (seen.length + 1)) + 1 by omega,
            List.take_succ_cons, hgoes]
          exact htake
    by_cases hknown : (table.contains key || added.contains key) = true
    · refine hstep added ?_ hfew ?_ ?_
      · refine ⟨hadded.nodup, fun other => ?_⟩
        rw [hadded.mem, List.mem_append, List.mem_singleton]
        constructor
        · exact fun ⟨hseen, hnew⟩ => ⟨.inl hseen, hnew⟩
        · rintro ⟨hseen | rfl, hnew⟩
          · exact ⟨hseen, hnew⟩
          · rw [hnew, Bool.false_or, List.contains_iff_mem] at hknown
            exact (hadded.mem _).mp hknown
      · rintro ⟨other, hother, hnew, hunseen, -⟩
        cases hhere.symm.trans hother
        rw [hbefore] at hunseen
        rw [hnew, Bool.false_or, List.contains_iff_mem] at hknown
        exact hunseen ((hadded.mem key).mp hknown).1
      · intro rest start
        rw [overflowFrom, if_pos hknown]
    · have hnew : table.contains key = false ∧ key ∉ added := by
        rw [Bool.or_eq_true, not_or, Bool.not_eq_true, List.contains_iff_mem] at hknown
        exact hknown
      have hunseen : key ∉ seen := fun h => hnew.2 ((hadded.mem key).mpr ⟨h, hnew.1⟩)
      by_cases hfull : added.length = room
      · obtain ⟨cap, hcap⟩ := Option.ne_none_iff_exists'.mp hroom
        have hfound : table.overflowFrom recipient room ((key, sub) :: proposals) added seen.length
            = some (seen.length, cap) := by
          rw [overflowFrom, if_neg hknown, if_pos hfull, hcap]
          rfl
        rw [hfound]
        refine ⟨le_refl _, ⟨key, hhere, hnew.1, ?_, ?_⟩, ?_, ?_⟩
        · rw [hbefore]
          exact hunseen
        · rw [hbefore, ← hadded.length_eq, hfull]
        · exact fun position hle hlt => absurd hlt (Nat.not_lt.mpr hle)
        · rw [Nat.sub_self, List.take_zero]
          rfl
      · have hlast : (added ++ [key]).length = added.length + 1 := List.length_append
        refine hstep (added ++ [key]) ?_ (by omega) ?_ ?_
        · refine ⟨?_, fun other => ?_⟩
          · exact List.nodup_append'.mpr ⟨hadded.nodup, List.nodup_singleton key,
              List.disjoint_singleton.mpr hnew.2⟩
          · rw [List.mem_append, List.mem_append, List.mem_singleton, hadded.mem]
            constructor
            · rintro (⟨hseen, hother⟩ | rfl)
              · exact ⟨.inl hseen, hother⟩
              · exact ⟨.inr rfl, hnew.1⟩
            · rintro ⟨hseen | rfl, hother⟩
              · exact .inl ⟨hseen, hother⟩
              · exact .inr rfl
        · rintro ⟨other, -, -, -, hused⟩
          rw [hbefore, ← hadded.length_eq] at hused
          omega
        · intro rest start
          rw [overflowFrom, if_neg hknown, if_neg hfull]

/-! ## Requests -/

def requested (subscriptions : List (CovSubscription O)) : List CovSubscriptionKey :=
  subscriptions.filterMap fun sub => sub.key.toOption

theorem requested_eq {context : MultipleContextKey} {route : SubscriberEndpoint}
    {expiresAt : Instant} (subs : List (CovSubscription O)) :
    ∀ {proposals}, validateMultiple context route expiresAt subs = .ok proposals →
      requested subs = proposals.map Prod.fst ∧
        ∀ count, validateMultiple context route expiresAt (subs.take count)
          = .ok (proposals.take count) := by
  induction subs with
  | nil =>
    intro proposals h
    cases h
    refine ⟨rfl, fun count => ?_⟩
    rw [List.take_nil, List.take_nil]
    rfl
  | cons sub subs ih =>
    intro proposals h
    unfold validateMultiple at h
    split at h
    · cases h
    rename_i key hkey
    split_ifs at h with hmatch
    split at h
    · cases h
    rename_i keyed hkeyed
    cases h
    obtain ⟨hkeys, htake⟩ := ih hkeyed
    refine ⟨?_, fun count => ?_⟩
    · unfold requested at hkeys ⊢
      rw [List.filterMap_cons, hkey]
      exact congrArg (key :: ·) hkeys
    · cases count with
      | zero => rfl
      | succ count =>
        rw [List.take_succ_cons, List.take_succ_cons, validateMultiple, hkey]
        dsimp only
        rw [if_neg hmatch, htake]

/-- No lifetime has ended and no report's deadline has passed. -/
structure NothingExpired (table : CovTable O) (now : Instant) : Prop where
  entries : ∀ entry ∈ table.subs, isExpired now entry = false
  reports : table.abandoned now = []

theorem NothingExpired.expire_eq (h : table.NothingExpired now) :
    (table.expire now).2 = { table with nextDue := (table.expire now).2.nextDue } := by
  unfold expire
  split_ifs
  · rfl
  · have hended : table.endAbandoned now = table := by
      unfold endAbandoned
      rw [h.reports]
      rfl
    have hlive : table.subs.filter (isExpired now) = [] := by
      rw [List.filter_eq_nil_iff]
      exact fun entry hentry => by rw [h.entries entry hentry]; decide
    unfold purge
    rw [hended]
    dsimp only
    rw [hlive]
    rfl

/-- The room `firstOverflow` starts from. -/
def leftRoom (table : CovTable O) (recipient : CovRecipient) : ℕ :=
  min (table.room recipient).1 (table.room recipient).2

/-- A request whose fields agree with its context. -/
structure Validated (context : MultipleContextKey) (route : SubscriberEndpoint)
    (expiresAt : Instant) (subscriptions : List (CovSubscription O))
    (proposals : List (CovSubscriptionKey × CovSubscription O)) : Prop where
  client : context.recipient.validate = .ok ()
  matched : CovRecipient.fromEndpoint route.mac route.network = context.recipient
  proposals : validateMultiple context route expiresAt subscriptions = .ok proposals

section Requests

variable {context : MultipleContextKey} {route : SubscriberEndpoint} {expiresAt : Instant}
  {maxNotificationDelay : UInt32} {subscriberMaxApdu : Option UInt16}
  {subscriptions : List (CovSubscription O)}
  {proposals : List (CovSubscriptionKey × CovSubscription O)}

theorem Validated.take (h : Validated context route expiresAt subscriptions proposals) (count : ℕ) :
    Validated context route expiresAt (subscriptions.take count) (proposals.take count) :=
  ⟨h.client, h.matched, (requested_eq subscriptions h.proposals).2 count⟩

/-- What a validated request comes to. -/
theorem Validated.call (h : Validated context route expiresAt subscriptions proposals) :
    table.subscribeMultiple context route expiresAt maxNotificationDelay subscriberMaxApdu
        subscriptions now
      = match (table.expire now).2.firstOverflow context.recipient proposals with
        | none => (table.expire now).2.admitMultiple context route expiresAt maxNotificationDelay
            subscriberMaxApdu proposals now
        | some (position, cap) =>
          if position = 0 then
            (.error ⟨.noSpaceToAddListElement, some 0, []⟩, (table.expire now).2.tallied cap)
          else
            let answer := (table.expire now).2.admitMultiple context route expiresAt
              maxNotificationDelay subscriberMaxApdu (proposals.take position) now
            match answer.1 with
            | .error refused => (.error refused, answer.2.tallied cap)
            | .ok accepted =>
              (.error ⟨.noSpaceToAddListElement, some position, accepted⟩,
                answer.2.tallied cap) := by
  unfold subscribeMultiple
  dsimp only
  rw [h.matched, h.client]
  dsimp only
  rw [if_neg (not_not.mpr rfl), h.proposals]
  dsimp only
  cases (table.expire now).2.firstOverflow context.recipient proposals with
  | none => rfl
  | some found =>
    obtain ⟨position, cap⟩ := found
    dsimp only
    rw [refuseNew_snd]
    by_cases hzero : position = 0
    · rw [if_pos hzero, if_pos hzero]
      rfl
    · rw [if_neg hzero, if_neg hzero, admitMultiple_tallied]
      generalize (table.expire now).2.admitMultiple context route expiresAt maxNotificationDelay
        subscriberMaxApdu (proposals.take position) now = answer
      obtain ⟨answer, final⟩ := answer
      cases answer with
      | error refused => rfl
      | ok accepted => rfl

theorem refused_or_validated :
    (∃ error, table.subscribeMultiple context route expiresAt maxNotificationDelay
        subscriberMaxApdu subscriptions now = (.error (.whole error), table)) ∨
      ∃ proposals, Validated context route expiresAt subscriptions proposals := by
  unfold subscribeMultiple
  dsimp only
  cases hclient : context.recipient.validate with
  | error refused => exact .inl ⟨refused, rfl⟩
  | ok =>
    cases hroute : (CovRecipient.fromEndpoint route.mac route.network).validate with
    | error refused => exact .inl ⟨refused, rfl⟩
    | ok =>
      dsimp only
      by_cases hmatch : CovRecipient.fromEndpoint route.mac route.network = context.recipient
      · rw [if_neg (not_not.mpr hmatch)]
        cases hproposals : validateMultiple context route expiresAt subscriptions with
        | error refused => exact .inl ⟨refused, rfl⟩
        | ok proposals => exact .inr ⟨proposals, hclient, hmatch, hproposals⟩
      · rw [if_pos hmatch]
        exact .inl ⟨_, rfl⟩

theorem admitMultiple_error {refusal : MultipleRefusal O}
    (h : (table.admitMultiple context route expiresAt maxNotificationDelay subscriberMaxApdu
      proposals now).1 = .error refusal) :
    refusal.refused = none ∧ refusal.committed = [] ∧
      (table.admitMultiple context route expiresAt maxNotificationDelay subscriberMaxApdu
        proposals now).2 = table.tallied .table := by
  unfold admitMultiple at h ⊢
  unfold reserveGenerations at h ⊢
  dsimp only at h ⊢
  by_cases hzero : (retainFinal proposals).length = 0
  · rw [if_pos hzero] at h
    cases h
  · by_cases hspent : table.generation + (retainFinal proposals).length > maxSerial
    · rw [if_neg hzero, if_pos hspent] at h ⊢
      cases h
      exact ⟨rfl, rfl, rfl⟩
    · rw [if_neg hzero, if_neg hspent] at h
      cases h

theorem firstOverflow_first (recipient : CovRecipient)
    (proposals : List (CovSubscriptionKey × CovSubscription O)) :
    match table.firstOverflow recipient proposals with
    | none => True
    | some (first, _) =>
      table.PastRoom (table.leftRoom recipient) (proposals.map Prod.fst) first ∧
        (∀ position, position < first →
          ¬ table.PastRoom (table.leftRoom recipient) (proposals.map Prod.fst) position) ∧
        table.firstOverflow recipient (proposals.take first) = none := by
  have hnone : table.Added [] [] := ⟨List.nodup_nil, fun key => by simp⟩
  have hscan := overflowFrom_first (capPassed_room table recipient) proposals [] [] hnone
    (Nat.zero_le _)
  have hoverflow : table.firstOverflow recipient proposals
      = table.overflowFrom recipient (table.leftRoom recipient) proposals [] 0 := rfl
  rw [hoverflow]
  unfold leftRoom
  cases hfound : table.overflowFrom recipient
      (min (table.room recipient).1 (table.room recipient).2) proposals [] 0 with
  | none => trivial
  | some found =>
    obtain ⟨first, cap⟩ := found
    rw [List.length_nil, hfound] at hscan
    obtain ⟨-, hpast, hfirst, htake⟩ := hscan
    rw [List.nil_append] at hpast hfirst
    exact ⟨hpast, fun position hlt => hfirst position (Nat.zero_le _) hlt, htake⟩

end Requests

/-- A request refused at a position leaves the table its accepted prefix leaves, with one refusal
counted; refused at its first proposal or as a whole, it leaves the table as it was but for refusals
counted and for the expiry pass's look at what is due next. The position is the first past the
room. -/
theorem refused_prefix_kept (table : CovTable O) (context : MultipleContextKey)
    (route : SubscriberEndpoint) (expiresAt : Instant) (maxNotificationDelay : UInt32)
    (subscriberMaxApdu : Option UInt16) (subscriptions : List (CovSubscription O)) (now : Instant)
    (hnothing : table.NothingExpired now) :
    let call := fun subscriptions => table.subscribeMultiple context route expiresAt
      maxNotificationDelay subscriberMaxApdu subscriptions now
    (∀ error position committed,
      (call subscriptions).1 = .error ⟨error, some position, committed⟩ →
      (table.PastRoom (table.leftRoom context.recipient) (requested subscriptions) position ∧
        ∀ earlier, earlier < position →
          ¬ table.PastRoom (table.leftRoom context.recipient) (requested subscriptions) earlier) ∧
      (0 < position → ∃ cap, (call (subscriptions.take position)).1 = .ok committed ∧
        (call subscriptions).2 = (call (subscriptions.take position)).2.tallied cap)) ∧
    (∀ refusal, (call subscriptions).1 = .error refusal →
      refusal.refused = none ∨ refusal.refused = some 0 →
      refusal.committed = [] ∧ ∃ caps : List Cap, ∃ due,
        (due = table.nextDue ∨ due = (table.expire now).2.nextDue) ∧
        (call subscriptions).2 = caps.foldl tallied { table with nextDue := due }) := by
  intro call
  have hcases : (∃ error, call subscriptions = (.error (.whole error), table)) ∨
      ∃ proposals, Validated context route expiresAt subscriptions proposals := refused_or_validated
  rcases hcases with ⟨error, hrefused⟩ | ⟨proposals, hvalid⟩
  · rw [hrefused]
    refine ⟨fun _ _ _ h => (nomatch h), fun refusal h _ => ?_⟩
    cases h
    exact ⟨rfl, [], table.nextDue, .inl rfl, rfl⟩
  have hcall : call subscriptions = _ := hvalid.call
  obtain ⟨hkeys, -⟩ := requested_eq subscriptions hvalid.proposals
  have hscan := (table.expire now).2.firstOverflow_first context.recipient proposals
  rw [hkeys]
  cases hfound : (table.expire now).2.firstOverflow context.recipient proposals with
  | none =>
    rw [hfound] at hcall
    dsimp only at hcall
    rw [hcall]
    constructor
    · intro error position committed h
      have hwhole := (admitMultiple_error h).1
      cases hwhole
    · intro refusal h _
      obtain ⟨-, hcommitted, hleft⟩ := admitMultiple_error h
      refine ⟨hcommitted, [.table], (table.expire now).2.nextDue, .inr rfl, ?_⟩
      rw [hleft, hnothing.expire_eq]
      rfl
  | some found =>
    obtain ⟨first, cap⟩ := found
    rw [hfound] at hcall hscan
    dsimp only at hcall hscan
    have hexpired : ∀ position, (table.expire now).2.PastRoom
        ((table.expire now).2.leftRoom context.recipient) (proposals.map Prod.fst) position
        = table.PastRoom (table.leftRoom context.recipient) (proposals.map Prod.fst) position := by
      intro position
      rw [hnothing.expire_eq]
      rfl
    obtain ⟨hpast, hfirst, htake⟩ := hscan
    rw [hexpired] at hpast
    simp only [hexpired] at hfirst
    by_cases hzero : first = 0
    · rw [if_pos hzero] at hcall
      rw [hcall]
      constructor
      · intro error position committed h
        cases h
        rw [hzero] at hpast hfirst
        exact ⟨⟨hpast, hfirst⟩, fun h => absurd h (lt_irrefl 0)⟩
      · intro refusal h _
        cases h
        refine ⟨rfl, [cap], (table.expire now).2.nextDue, .inr rfl, ?_⟩
        rw [hnothing.expire_eq]
        rfl
    · rw [if_neg hzero] at hcall
      have hbefore : call (subscriptions.take first) = (table.expire now).2.admitMultiple context
          route expiresAt maxNotificationDelay subscriberMaxApdu (proposals.take first) now := by
        have htaken : call (subscriptions.take first) = _ := (hvalid.take first).call
        rw [htake] at htaken
        exact htaken
      rw [← hbefore] at hcall
      cases hanswer : (call (subscriptions.take first)).1 with
      | error refused =>
        rw [hanswer] at hcall
        dsimp only at hcall
        rw [hcall]
        rw [hbefore] at hanswer
        obtain ⟨hwhole, hcommitted, hleft⟩ := admitMultiple_error hanswer
        constructor
        · intro error position committed h
          cases h
          cases hwhole
        · intro refusal h _
          cases h
          refine ⟨hcommitted, [.table, cap], (table.expire now).2.nextDue, .inr rfl, ?_⟩
          rw [hbefore, hleft, hnothing.expire_eq]
          rfl
      | ok accepted =>
        rw [hanswer] at hcall
        dsimp only at hcall
        rw [hcall]
        constructor
        · intro error position committed h
          cases h
          exact ⟨⟨hpast, hfirst⟩, fun _ => ⟨cap, hanswer, rfl⟩⟩
        · intro refusal h hrefused
          cases h
          rcases hrefused with h | h
          · cases h
          · exact absurd (Option.some.inj h) hzero

/-! ## A request with room for one reference -/

/-- A policy that leaves each recipient one subscription. -/
def onePerPeer : CovPolicy := { CovPolicy.initial with maxSubscriptionsPerPeer := 1 }

/-- A reference of process 1 at the station 5 to a property of the analog value 1. -/
def reference (propertyId : UInt32) : CovSubscription Unit where
  subscriberMac := [5]
  subscriberNetwork := none
  subscriberProcessIdentifier := 1
  monitoredObjectIdentifier := ⟨2, 1, Encoding.analogValue_le, Encoding.instanceOne_le⟩
  issueConfirmedNotifications := false
  expiresAt := some 50
  lastNotifiedObservation := none
  monitoredProperty := some propertyId
  monitoredPropertyArrayIndex := none
  notificationKind := .multiple
  timestamped := false

def whole (expiresAt : Instant) : CovSubscription Unit :=
  { reference 85 with
    expiresAt := some expiresAt
    monitoredProperty := none
    notificationKind := .single }

/-- A repeat of the first reference costs nothing; the second one does not fit. -/
theorem refused_prefix_kept_one :
    let call := fun subscriptions => (new 0 onePerPeer : CovTable Unit).subscribeMultiple
      ⟨.direct [5], 1, false⟩ ⟨[5], none⟩ 50 0 none subscriptions 3
    ∃ cap, (call [reference 85, reference 85, reference 111]).2
      = (call [reference 85, reference 85]).2.tallied cap := by
  intro call
  have hkept := (refused_prefix_kept (new 0 onePerPeer : CovTable Unit) ⟨.direct [5], 1, false⟩
    ⟨[5], none⟩ 50 0 none [reference 85, reference 85, reference 111] 3
    ⟨fun _ h => absurd h List.not_mem_nil, rfl⟩).1
  obtain ⟨cap, -, hleft⟩ := (hkept .noSpaceToAddListElement 2
    (acceptedAll (call [reference 85, reference 85]).1) (by decide +kernel)).2 (by decide)
  exact ⟨cap, hleft⟩

/-- A renewal leaves `next_due` at the old expiry. A request refused at its first proposal then
moves it, though nothing has expired. -/
theorem refused_moves_due :
    let table := (new 0 onePerPeer : CovTable Unit).performAll
      ([.subscribe (whole 10) 0, .subscribe (whole 20) 1] : List (Op Unit Unit Unit))
    let answer := table.subscribeMultiple ⟨.direct [5], 1, false⟩ ⟨[5], none⟩ 50 0 none
      [reference 85] 15
    table.NothingExpired 15 ∧ answer.1 = .error ⟨.noSpaceToAddListElement, some 0, []⟩ ∧
      table.nextDue = some 10 ∧ answer.2.nextDue = some 20 := by
  refine ⟨⟨?_, ?_⟩, ?_, ?_, ?_⟩
  · decide +kernel
  · decide +kernel
  · decide +kernel
  · decide +kernel
  · decide +kernel

end CovTable

end RustyBacnet.Cov
