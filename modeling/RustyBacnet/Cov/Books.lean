import RustyBacnet.Cov.Run

/-!
# The table's books

What the table counts against what it holds. The books look at three things of an entry, its face:
key, recipient and expiry. A step that changes no face and no count keeps the books (`Alike`);
removal and insertion keep them because `countP` over a sorted array follows both. Nothing expires
before `nextDue`, so an expiry pass that is skipped would have found nothing.
-/

namespace RustyBacnet.Cov

open SortedArray (Sorted)

variable {O : Type}

def CovSubscriptionSnapshot.face (entry : CovSubscriptionSnapshot O) :
    CovSubscriptionKey × CovRecipient × Option Instant :=
  (entry.key, entry.recipient, entry.expiresAt)

namespace CovTable

def held (table : CovTable O) (peer : CovRecipient) : ℕ :=
  table.subs.countP fun entry => entry.recipient == peer

def heldIndefinitely (table : CovTable O) (peer : CovRecipient) : ℕ :=
  table.subs.countP fun entry => entry.recipient == peer && entry.expiresAt.isNone

/-- The entries stand in the order of their keys, and none expires before `nextDue`. -/
structure Orderly (table : CovTable O) : Prop where
  sorted : Sorted (·.key) table.subs
  due : ∀ entry ∈ table.subs, ∀ expires, entry.expiresAt = some expires →
    ∃ due, table.nextDue = some due ∧ due ≤ expires

/-- The counts are the true numbers. -/
structure Books (table : CovTable O) : Prop extends Orderly table where
  peersSorted : Sorted Prod.fst table.peerCounts
  indefiniteSorted : Sorted Prod.fst table.peerIndefiniteCounts
  owned : ∀ entry ∈ table.subs, entry.key.recipient = entry.recipient
  contextsEnd : ∀ entry ∈ table.subs, entry.key.multipleContext.isSome = true →
    entry.expiresAt ≠ none
  peers : ∀ peer, table.peerSubscriptionCount peer = table.held peer
  indefinite : ∀ peer, table.peerIndefiniteCount peer = table.heldIndefinitely peer

/-- No recipient is above its quotas, and the table is not above its capacity. -/
structure Within (table : CovTable O) : Prop where
  perPeer : ∀ peer, table.held peer ≤ table.policy.maxSubscriptionsPerPeer
  indefinitePerPeer : ∀ peer, table.heldIndefinitely peer ≤ table.policy.maxIndefinitePerPeer
  global : table.subs.length ≤ table.policy.maxSubscriptionsGlobal

variable (id : ℕ) (policy : CovPolicy) (due : Option Instant)

theorem orderly_new : (new id policy : CovTable O).Orderly where
  sorted := SortedArray.sorted_nil
  due := fun _ h => absurd h List.not_mem_nil

theorem books_new : (new id policy : CovTable O).Books where
  toOrderly := orderly_new id policy
  peersSorted := SortedArray.sorted_nil
  indefiniteSorted := SortedArray.sorted_nil
  owned := fun _ h => absurd h List.not_mem_nil
  contextsEnd := fun _ h => absurd h List.not_mem_nil
  peers := fun _ => rfl
  indefinite := fun _ => rfl

theorem within_new : (new id policy : CovTable O).Within where
  perPeer := fun _ => Nat.zero_le _
  indefinitePerPeer := fun _ => Nat.zero_le _
  global := Nat.zero_le _

/-! ## Steps that change no face -/

/-- `nextDue` moved no later. -/
def DueNoLater (due due' : Option Instant) : Prop :=
  ∀ time, due = some time → ∃ time', due' = some time' ∧ time' ≤ time

theorem DueNoLater.refl : DueNoLater due due :=
  fun time h => ⟨time, h, le_refl _⟩

theorem DueNoLater.trans {due due' due'' : Option Instant} (h : DueNoLater due due')
    (h' : DueNoLater due' due'') : DueNoLater due due'' := by
  intro time htime
  obtain ⟨time', htime', hle⟩ := h time htime
  obtain ⟨time'', htime'', hle'⟩ := h' time' htime'
  exact ⟨time'', htime'', le_trans hle' hle⟩

theorem earliest_le {times : List (Option Instant)} {time : Instant} (h : some time ∈ times) :
    ∃ due, earliest times = some due ∧ due ≤ time := by
  obtain ⟨due, hdue⟩ := Option.isSome_iff_exists.mp (earliest_isSome h)
  exact ⟨due, hdue, (earliest_eq_some.mp hdue).2 time h⟩

theorem dueNoLater_dueBy (table : CovTable O) (time : Option Instant) :
    DueNoLater table.nextDue (table.dueBy time).nextDue := by
  intro due hdue
  apply earliest_le
  rw [hdue]
  exact List.mem_cons_self

/-- The two tables differ in nothing the books are kept on. -/
structure Alike (table table' : CovTable O) : Prop where
  faces : table'.subs.map CovSubscriptionSnapshot.face
    = table.subs.map CovSubscriptionSnapshot.face
  peerCounts : table'.peerCounts = table.peerCounts
  peerIndefiniteCounts : table'.peerIndefiniteCounts = table.peerIndefiniteCounts
  policy : table'.policy = table.policy
  nextDue : DueNoLater table.nextDue table'.nextDue

variable {entry : CovSubscriptionSnapshot O}

namespace Alike

variable {table table' table'' : CovTable O}

theorem refl (table : CovTable O) : Alike table table := ⟨rfl, rfl, rfl, rfl, .refl _⟩

theorem trans (h : Alike table table') (h' : Alike table' table'') : Alike table table'' where
  faces := h'.faces.trans h.faces
  peerCounts := h'.peerCounts.trans h.peerCounts
  peerIndefiniteCounts := h'.peerIndefiniteCounts.trans h.peerIndefiniteCounts
  policy := h'.policy.trans h.policy
  nextDue := h.nextDue.trans h'.nextDue

theorem mem (h : Alike table table') (hentry : entry ∈ table'.subs) :
    ∃ old ∈ table.subs, old.face = entry.face := by
  have hface : entry.face ∈ table'.subs.map CovSubscriptionSnapshot.face :=
    List.mem_map_of_mem hentry
  rw [h.faces] at hface
  exact List.mem_map.mp hface

theorem countP (h : Alike table table') {p : CovSubscriptionSnapshot O → Bool}
    (q : CovSubscriptionKey × CovRecipient × Option Instant → Bool)
    (hp : ∀ entry, p entry = q entry.face) : table'.subs.countP p = table.subs.countP p := by
  have hcount : ∀ entries : List (CovSubscriptionSnapshot O),
      entries.countP p = (entries.map CovSubscriptionSnapshot.face).countP q := by
    intro entries
    rw [List.countP_map]
    congr 1
    funext entry
    exact hp entry
  rw [hcount, hcount, h.faces]

theorem held (h : Alike table table') (peer : CovRecipient) : table'.held peer = table.held peer :=
  h.countP (fun face => face.2.1 == peer) fun _ => rfl

theorem heldIndefinitely (h : Alike table table') (peer : CovRecipient) :
    table'.heldIndefinitely peer = table.heldIndefinitely peer :=
  h.countP (fun face => face.2.1 == peer && face.2.2.isNone) fun _ => rfl

theorem length (h : Alike table table') : table'.subs.length = table.subs.length := by
  have hlength := congrArg List.length h.faces
  rwa [List.length_map, List.length_map] at hlength

theorem orderly (h : Alike table table') (horder : table.Orderly) : table'.Orderly where
  sorted := by
    have hkeys : (table'.subs.map CovSubscriptionSnapshot.face).Pairwise fun a b => a.1 < b.1 := by
      rw [h.faces]
      exact List.pairwise_map.mpr horder.sorted
    have hsorted := List.pairwise_map.mp hkeys
    exact hsorted
  due := by
    intro entry hentry expires hexpires
    obtain ⟨old, hold, hface⟩ := h.mem hentry
    simp only [CovSubscriptionSnapshot.face, Prod.mk.injEq] at hface
    obtain ⟨due, hdue, hle⟩ := horder.due old hold expires (hface.2.2.trans hexpires)
    obtain ⟨due', hdue', hle'⟩ := h.nextDue due hdue
    exact ⟨due', hdue', le_trans hle' hle⟩

theorem books (h : Alike table table') (hbooks : table.Books) : table'.Books where
  toOrderly := h.orderly hbooks.toOrderly
  peersSorted := h.peerCounts ▸ hbooks.peersSorted
  indefiniteSorted := h.peerIndefiniteCounts ▸ hbooks.indefiniteSorted
  owned := by
    intro entry hentry
    obtain ⟨old, hold, hface⟩ := h.mem hentry
    simp only [CovSubscriptionSnapshot.face, Prod.mk.injEq] at hface
    rw [← hface.1, ← hface.2.1]
    exact hbooks.owned old hold
  contextsEnd := by
    intro entry hentry hcontext
    obtain ⟨old, hold, hface⟩ := h.mem hentry
    simp only [CovSubscriptionSnapshot.face, Prod.mk.injEq] at hface
    rw [← hface.2.2]
    exact hbooks.contextsEnd old hold (hface.1 ▸ hcontext)
  peers := by
    intro peer
    rw [h.held, ← hbooks.peers]
    exact congrArg (fun counts => VecMap.tally counts peer) h.peerCounts
  indefinite := by
    intro peer
    rw [h.heldIndefinitely, ← hbooks.indefinite]
    exact congrArg (fun counts => VecMap.tally counts peer) h.peerIndefiniteCounts

theorem within (h : Alike table table') (hwithin : table.Within) : table'.Within where
  perPeer := by
    intro peer
    rw [h.held, h.policy]
    exact hwithin.perPeer peer
  indefinitePerPeer := by
    intro peer
    rw [h.heldIndefinitely, h.policy]
    exact hwithin.indefinitePerPeer peer
  global := by
    rw [h.length, h.policy]
    exact hwithin.global

end Alike

/-! ## Removal -/

/-- Entries were taken away, and the rest is as it was. -/
structure Fewer (table table' : CovTable O) : Prop where
  held : ∀ peer, table'.held peer ≤ table.held peer
  heldIndefinitely : ∀ peer, table'.heldIndefinitely peer ≤ table.heldIndefinitely peer
  length : table'.subs.length ≤ table.subs.length
  policy : table'.policy = table.policy

namespace Fewer

variable {table table' table'' : CovTable O}

theorem refl (table : CovTable O) : Fewer table table :=
  ⟨fun _ => le_refl _, fun _ => le_refl _, le_refl _, rfl⟩

theorem trans (h : Fewer table table') (h' : Fewer table' table'') : Fewer table table'' where
  held peer := le_trans (h'.held peer) (h.held peer)
  heldIndefinitely peer := le_trans (h'.heldIndefinitely peer) (h.heldIndefinitely peer)
  length := le_trans h'.length h.length
  policy := h'.policy.trans h.policy

theorem within (h : Fewer table table') (hwithin : table.Within) : table'.Within where
  perPeer peer := by
    rw [h.policy]
    exact le_trans (h.held peer) (hwithin.perPeer peer)
  indefinitePerPeer peer := by
    rw [h.policy]
    exact le_trans (h.heldIndefinitely peer) (hwithin.indefinitePerPeer peer)
  global := by
    rw [h.policy]
    exact le_trans h.length hwithin.global

end Fewer

theorem Alike.fewer {table table' : CovTable O} (h : Alike table table') : Fewer table table' :=
  ⟨fun peer => le_of_eq (h.held peer), fun peer => le_of_eq (h.heldIndefinitely peer),
    le_of_eq h.length, h.policy⟩

variable {table : CovTable O} {key : CovSubscriptionKey}

theorem removeInternal_some (wasCancelled : Bool) {sub : CovSubscriptionSnapshot O}
    (hsub : SortedArray.entry (·.key) table.subs key = some sub) (horder : table.Orderly) :
    (table.removeInternal key wasCancelled).2.subs
        = (SortedArray.remove (·.key) table.subs key).2 ∧
      (table.removeInternal key wasCancelled).2.peerCounts
        = table.peerCounts.lower sub.recipient 1 ∧
      (table.removeInternal key wasCancelled).2.peerIndefiniteCounts
        = (if sub.expiresAt.isNone then table.peerIndefiniteCounts.lower sub.recipient 1
          else table.peerIndefiniteCounts) ∧
      (table.removeInternal key wasCancelled).2.policy = table.policy ∧
      (table.removeInternal key wasCancelled).2.nextDue = table.nextDue := by
  have hfirst := SortedArray.remove_fst horder.sorted key
  rw [hsub] at hfirst
  unfold removeInternal
  generalize SortedArray.remove (·.key) table.subs key = removed at hfirst ⊢
  obtain ⟨old, rest⟩ := removed
  cases hfirst
  exact ⟨rfl, rfl, rfl, rfl, rfl⟩

variable {wasCancelled : Bool}

theorem removeInternal_none (hsub : SortedArray.entry (·.key) table.subs key = none)
    (horder : table.Orderly) : (table.removeInternal key wasCancelled).2 = table := by
  have hfirst := SortedArray.remove_fst horder.sorted key
  rw [hsub] at hfirst
  unfold removeInternal
  generalize SortedArray.remove (·.key) table.subs key = removed at hfirst ⊢
  obtain ⟨old, rest⟩ := removed
  cases hfirst
  rfl

theorem mem_remove (hsorted : Sorted (·.key) table.subs) :
    entry ∈ (SortedArray.remove (·.key) table.subs key).2 ↔ entry ∈ table.subs ∧ entry.key ≠ key := by
  have hkeys := SortedArray.entry_remove hsorted key entry.key
  have hrest := SortedArray.sorted_remove hsorted key
  constructor
  · intro hentry
    have hread := hrest.entry_of_mem hentry
    rw [hkeys] at hread
    split_ifs at hread with hkey
    exact ⟨(SortedArray.mem_of_entry hread).1, hkey⟩
  · rintro ⟨hentry, hkey⟩
    rw [if_neg hkey, hsorted.entry_of_mem hentry] at hkeys
    exact (SortedArray.mem_of_entry hkeys).1

theorem mem_removeInternal (horder : table.Orderly) :
    entry ∈ (table.removeInternal key wasCancelled).2.subs
      ↔ entry ∈ table.subs ∧ entry.key ≠ key := by
  cases hsub : SortedArray.entry (·.key) table.subs key with
  | some sub =>
    rw [(removeInternal_some wasCancelled hsub horder).1]
    exact mem_remove horder.sorted
  | none =>
    rw [removeInternal_none hsub horder]
    refine ⟨fun hentry => ⟨hentry, ?_⟩, And.left⟩
    rintro rfl
    rw [horder.sorted.entry_of_mem hentry] at hsub
    cases hsub

theorem countP_removeInternal (key : CovSubscriptionKey) (wasCancelled : Bool)
    (horder : table.Orderly) (p : CovSubscriptionSnapshot O → Bool) :
    (table.removeInternal key wasCancelled).2.subs.countP p
        + (SortedArray.entry (·.key) table.subs key).toList.countP p
      = table.subs.countP p := by
  cases hsub : SortedArray.entry (·.key) table.subs key with
  | some sub =>
    rw [(removeInternal_some wasCancelled hsub horder).1, ← hsub]
    exact SortedArray.countP_remove horder.sorted key p
  | none =>
    rw [removeInternal_none hsub horder]
    rfl

theorem fewer_removeInternal (key : CovSubscriptionKey) (wasCancelled : Bool)
    (horder : table.Orderly) : Fewer table (table.removeInternal key wasCancelled).2 where
  held peer := Nat.le.intro (countP_removeInternal key wasCancelled horder _)
  heldIndefinitely peer := Nat.le.intro (countP_removeInternal key wasCancelled horder _)
  length := by
    have hcount := countP_removeInternal key wasCancelled horder fun _ => true
    rw [List.countP_true] at hcount
    exact Nat.le.intro hcount
  policy := by
    cases hsub : SortedArray.entry (·.key) table.subs key with
    | some sub => exact (removeInternal_some wasCancelled hsub horder).2.2.2.1
    | none => rw [removeInternal_none hsub horder]

theorem orderly_removeInternal (key : CovSubscriptionKey) (wasCancelled : Bool)
    (horder : table.Orderly) : (table.removeInternal key wasCancelled).2.Orderly := by
  cases hsub : SortedArray.entry (·.key) table.subs key with
  | none =>
    rw [removeInternal_none hsub horder]
    exact horder
  | some sub =>
    obtain ⟨hsubs, _, _, _, hdue⟩ := removeInternal_some wasCancelled hsub horder
    refine ⟨?_, ?_⟩
    · rw [hsubs]
      exact SortedArray.sorted_remove horder.sorted key
    · intro entry hentry expires hexpires
      rw [hdue]
      exact horder.due entry ((mem_removeInternal horder).mp hentry).1 expires hexpires

/-- Removal keeps the books. -/
theorem books_removeInternal (key : CovSubscriptionKey) (wasCancelled : Bool)
    (hbooks : table.Books) : (table.removeInternal key wasCancelled).2.Books := by
  have horder := hbooks.toOrderly
  cases hsub : SortedArray.entry (·.key) table.subs key with
  | none =>
    rw [removeInternal_none hsub horder]
    exact hbooks
  | some sub =>
    obtain ⟨_, hpeers, hindefinite, _, _⟩ :=
      removeInternal_some wasCancelled hsub horder
    have hmem : ∀ entry ∈ (table.removeInternal key wasCancelled).2.subs, entry ∈ table.subs :=
      fun entry h => ((mem_removeInternal horder).mp h).1
    have hcount := countP_removeInternal key wasCancelled horder
    simp only [hsub, Option.toList_some, List.countP_singleton] at hcount
    refine ⟨orderly_removeInternal key wasCancelled horder, ?_, ?_, ?_, ?_, ?_, ?_⟩
    · rw [hpeers]
      exact VecMap.sorted_lower hbooks.peersSorted _ _
    · rw [hindefinite]
      split_ifs
      · exact VecMap.sorted_lower hbooks.indefiniteSorted _ _
      · exact hbooks.indefiniteSorted
    · exact fun entry h => hbooks.owned entry (hmem entry h)
    · exact fun entry h => hbooks.contextsEnd entry (hmem entry h)
    · intro peer
      have hheld := hcount fun entry => entry.recipient == peer
      have htally := hbooks.peers peer
      unfold peerSubscriptionCount held at *
      rw [hpeers, VecMap.tally_lower hbooks.peersSorted]
      by_cases hpeer : peer = sub.recipient
      · subst hpeer
        rw [if_pos rfl]
        rw [if_pos (beq_self_eq_true _)] at hheld
        omega
      · rw [if_neg hpeer]
        rw [if_neg (by simpa using Ne.symm hpeer)] at hheld
        omega
    · intro peer
      have hheld := hcount fun entry => entry.recipient == peer && entry.expiresAt.isNone
      have htally := hbooks.indefinite peer
      unfold peerIndefiniteCount heldIndefinitely at *
      rw [hindefinite]
      by_cases hnone : sub.expiresAt.isNone = true
      · rw [if_pos hnone, VecMap.tally_lower hbooks.indefiniteSorted]
        by_cases hpeer : peer = sub.recipient
        · subst hpeer
          rw [if_pos rfl]
          rw [if_pos (by simp [hnone])] at hheld
          omega
        · rw [if_neg hpeer]
          rw [if_neg (by simp [Ne.symm hpeer])] at hheld
          omega
      · rw [if_neg hnone]
        rw [if_neg (by simp [hnone])] at hheld
        omega

theorem removeEach_cons (key : CovSubscriptionKey) (keys : List CovSubscriptionKey)
    (wasCancelled : Bool) :
    (table.removeEach wasCancelled (key :: keys)).2
      = ((table.removeInternal key wasCancelled).2.removeEach wasCancelled keys).2 := rfl

theorem orderly_removeEach (wasCancelled : Bool) (keys : List CovSubscriptionKey) :
    ∀ {table : CovTable O}, table.Orderly →
      (table.removeEach wasCancelled keys).2.Orderly ∧
        Fewer table (table.removeEach wasCancelled keys).2 ∧
        ∀ entry, entry ∈ (table.removeEach wasCancelled keys).2.subs
          ↔ entry ∈ table.subs ∧ entry.key ∉ keys := by
  induction keys with
  | nil =>
    intro table horder
    refine ⟨horder, .refl _, fun entry => ?_⟩
    simp [removeEach]
  | cons key keys ih =>
    intro table horder
    obtain ⟨hlast, hfewer, hmem⟩ := ih (orderly_removeInternal key wasCancelled horder)
    rw [removeEach_cons]
    refine ⟨hlast, (fewer_removeInternal key wasCancelled horder).trans hfewer, fun entry => ?_⟩
    rw [hmem, mem_removeInternal horder, List.mem_cons, not_or, and_assoc]

theorem books_removeEach (wasCancelled : Bool) (keys : List CovSubscriptionKey) :
    ∀ {table : CovTable O}, table.Books → (table.removeEach wasCancelled keys).2.Books := by
  induction keys with
  | nil => exact fun hbooks => hbooks
  | cons key keys ih => exact fun hbooks => ih (books_removeInternal key wasCancelled hbooks)

theorem alike_tidyFlight (table : CovTable O) (flights : VecMap ℕ (FlightState O)) (flight : ℕ) :
    Alike table ({ table with flights }.tidyFlight flight) := by
  unfold tidyFlight
  split
  · exact ⟨rfl, rfl, rfl, rfl, .refl _⟩
  · exact ⟨rfl, rfl, rfl, rfl, .refl _⟩

theorem alike_fenceFlight (table : CovTable O) (flight : ℕ) :
    Alike table (table.fenceFlight flight) := by
  unfold fenceFlight
  split
  · exact .refl _
  · exact ⟨rfl, rfl, rfl, rfl, .refl _⟩

theorem alike_abandon (table : CovTable O) (token : Token) : Alike table (table.abandon token) := by
  have htidy := alike_tidyFlight table (table.flights.modify token.flight fun state =>
    { state with ticket := 0, deadline := none, carried := [], completes := [] }) token.flight
  exact ⟨htidy.faces, htidy.peerCounts, htidy.peerIndefiniteCounts, htidy.policy, htidy.nextDue⟩

theorem alike_endAbandoned (table : CovTable O) (now : Instant) :
    Alike table (table.endAbandoned now) := by
  unfold endAbandoned
  generalize table.abandoned now = tokens
  induction tokens generalizing table with
  | nil => exact .refl _
  | cons token tokens ih => exact (alike_abandon table token).trans (ih _)

/-! ## Expiry -/

variable {now : Instant}

theorem isExpired_iff :
    isExpired now entry = true ↔ ∃ expires, entry.expiresAt = some expires ∧ expires ≤ now := by
  unfold isExpired
  cases entry.expiresAt with
  | none => simp
  | some expires => simp

theorem foldl_dueNoLater {α : Type} (f : Option Instant → α → Option Instant)
    (hf : ∀ due a, DueNoLater due (f due a)) (entries : List α) (due : Option Instant) :
    DueNoLater due (entries.foldl f due) := by
  induction entries generalizing due with
  | nil => exact .refl _
  | cons entry entries ih => exact (hf due entry).trans (ih _)

theorem dueNoLater_earliest (time : Option Instant) : DueNoLater due (earliest [due, time]) := by
  intro due' hdue
  apply earliest_le
  rw [hdue]
  exact List.mem_cons_self

theorem foldl_due_le {α : Type} {f : Option Instant → α → Option Instant}
    (hf : ∀ due a, DueNoLater due (f due a)) {entries : List α} {entry : α} (hentry : entry ∈ entries)
    {latest : Instant} (hlatest : ∀ due, ∃ due', f due entry = some due' ∧ due' ≤ latest)
    (due : Option Instant) : ∃ due', entries.foldl f due = some due' ∧ due' ≤ latest := by
  induction entries generalizing due with
  | nil => cases hentry
  | cons old entries ih =>
    rcases List.mem_cons.mp hentry with rfl | hentry
    · obtain ⟨due', hdue', hle⟩ := hlatest due
      obtain ⟨due'', hdue'', hle'⟩ := foldl_dueNoLater f hf entries _ due' hdue'
      exact ⟨due'', hdue'', le_trans hle' hle⟩
    · exact ih hentry _

theorem earliest_pair_le {expires : Instant} (due : Option Instant) :
    ∃ due', earliest [due, some expires] = some due' ∧ due' ≤ expires :=
  earliest_le (by simp)

theorem expiriesDue_le {expires : Instant} (hentry : entry ∈ table.subs)
    (hexpires : entry.expiresAt = some expires) (hstays : isExpired now entry = false) :
    ∃ due, table.expiriesDue now = some due ∧ due ≤ expires := by
  refine foldl_due_le (fun due old => ?_) hentry (fun due => ?_) none
  · split_ifs
    · exact .refl _
    · exact dueNoLater_earliest due _
  · rw [hstays, if_neg (by decide), hexpires]
    exact earliest_pair_le due

theorem dueNoLater_deadlinesDue (table : CovTable O) (due : Option Instant) :
    DueNoLater due (table.deadlinesDue due) :=
  foldl_dueNoLater _ (fun due _ => dueNoLater_earliest due _) _ _

theorem purge_eq (table : CovTable O) (now : Instant) : ∃ counts, (table.purge now).2 =
    { ((table.endAbandoned now).removeEach false
        (((table.endAbandoned now).subs.filter (isExpired now)).map (·.key))).2 with
      counts
      nextDue := ((table.endAbandoned now).removeEach false
        (((table.endAbandoned now).subs.filter (isExpired now)).map (·.key))).2.deadlinesDue
          ((table.endAbandoned now).expiriesDue now) } := ⟨_, rfl⟩

theorem orderly_purge (horder : table.Orderly) :
    (table.purge now).2.Orderly ∧ Fewer table (table.purge now).2 ∧
      ∀ entry ∈ (table.purge now).2.subs, isExpired now entry = false := by
  have halike := alike_endAbandoned table now
  obtain ⟨counts, hpurge⟩ := purge_eq table now
  generalize hkeys : ((table.endAbandoned now).subs.filter (isExpired now)).map (·.key) = keys
    at hpurge
  obtain ⟨hlast, hfewer, hmem⟩ := orderly_removeEach false keys (halike.orderly horder)
  generalize ((table.endAbandoned now).removeEach false keys).2 = last at hpurge hlast hfewer hmem
  have hlive : ∀ entry ∈ last.subs, isExpired now entry = false := by
    intro entry hentry
    obtain ⟨hold, hkey⟩ := (hmem entry).mp hentry
    rw [← hkeys] at hkey
    by_contra hexpired
    apply hkey
    refine List.mem_map_of_mem (f := (·.key)) (List.mem_filter.mpr ⟨hold, ?_⟩)
    simpa using hexpired
  rw [hpurge]
  refine ⟨⟨hlast.sorted, ?_⟩, ?_, hlive⟩
  · intro entry hentry expires hexpires
    obtain ⟨due, hdue, hle⟩ :=
      expiriesDue_le ((hmem entry).mp hentry).1 hexpires (hlive entry hentry)
    obtain ⟨due', hdue', hle'⟩ := dueNoLater_deadlinesDue last _ due hdue
    exact ⟨due', hdue', le_trans hle' hle⟩
  · have htrans := halike.fewer.trans hfewer
    exact ⟨htrans.held, htrans.heldIndefinitely, htrans.length, htrans.policy⟩

/-- `expire` leaves the entries that live. -/
theorem orderly_expire (now : Instant) (horder : table.Orderly) :
    (table.expire now).2.Orderly ∧ Fewer table (table.expire now).2 ∧
      ∀ entry ∈ (table.expire now).2.subs, isExpired now entry = false := by
  unfold expire
  split
  · rename_i hskip
    refine ⟨horder, .refl _, fun entry hentry => ?_⟩
    by_contra hexpired
    obtain ⟨expires, hexpires, hle⟩ := isExpired_iff.mp (by simpa using hexpired)
    obtain ⟨due, hdue, hearly⟩ := horder.due entry hentry expires hexpires
    rw [hdue, Option.all_some, decide_eq_true_eq] at hskip
    exact absurd (lt_of_lt_of_le hskip hearly) (Nat.not_lt.mpr hle)
  · exact orderly_purge horder

/-- `expire` keeps the books. -/
theorem books_expire (now : Instant) (hbooks : table.Books) :
    (table.expire now).2.Books ∧ Fewer table (table.expire now).2 ∧
      ∀ entry ∈ (table.expire now).2.subs, isExpired now entry = false := by
  obtain ⟨horder, hfewer, hlive⟩ := orderly_expire now hbooks.toOrderly
  refine ⟨?_, hfewer, hlive⟩
  unfold expire at horder ⊢
  split
  · exact hbooks
  · rename_i hpass
    rw [if_neg hpass] at horder
    obtain ⟨counts, hpurge⟩ := purge_eq table now
    rw [hpurge] at horder ⊢
    have hlast := books_removeEach false
      (((table.endAbandoned now).subs.filter (isExpired now)).map (·.key))
      ((alike_endAbandoned table now).books hbooks)
    exact ⟨horder, hlast.peersSorted, hlast.indefiniteSorted, hlast.owned, hlast.contextsEnd,
      hlast.peers, hlast.indefinite⟩

end CovTable

end RustyBacnet.Cov
