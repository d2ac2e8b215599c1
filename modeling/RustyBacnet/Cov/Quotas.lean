import Mathlib.Data.List.Nodup
import Mathlib.Data.List.Perm.Subperm
import RustyBacnet.Cov.Books

/-!
# Admissions and the quotas

An insertion keeps the books, and what the caps let through fits them:

1. the caps of one subscription are checked against the true numbers (`checkCaps_none`), and the
   insertion adds what was checked (`within_insert`);
2. a Multiple request's kept proposals add at most the room that was left (`overflowFrom_room`),
   since the entries' keys are distinct and each is an old one or one of those added
   (`countP_le_of_keys`).
-/

namespace RustyBacnet.Cov

open SortedArray (Sorted)

variable {O : Type}

namespace CovTable

variable {table : CovTable O}

/-! ## Insertion -/

def under (table : CovTable O) (key : CovSubscriptionKey) : Option (CovSubscriptionSnapshot O) :=
  SortedArray.entry (·.key) table.subs key

theorem get_eq_under (horder : table.Orderly) (key : CovSubscriptionKey) :
    table.get key = table.under key :=
  SortedArray.get_eq horder.sorted key

variable {entry : CovSubscriptionSnapshot O}

theorem mem_of_under {key : CovSubscriptionKey} (h : table.under key = some entry) :
    entry ∈ table.subs ∧ entry.key = key :=
  SortedArray.mem_of_entry h

/-- What an insertion writes. -/
theorem insert_fields (horder : table.Orderly) (snapshot : CovSubscriptionSnapshot O) :
    (table.insert snapshot).subs = (SortedArray.put (·.key) table.subs snapshot).2 ∧
      (table.insert snapshot).policy = table.policy ∧
      (table.insert snapshot).nextDue = earliest [table.nextDue, snapshot.expiresAt] ∧
      (table.insert snapshot).peerCounts
        = (if (table.under snapshot.key).isSome then table.peerCounts
          else table.peerCounts.raise snapshot.recipient) ∧
      (table.insert snapshot).peerIndefiniteCounts
        = recountIndefinite table.peerIndefiniteCounts snapshot.recipient
          ((table.under snapshot.key).any fun old => old.expiresAt.isNone)
          snapshot.expiresAt.isNone := by
  have hfirst := SortedArray.put_fst horder.sorted snapshot
  have hput : (table.insert snapshot)
      = { table.dueBy snapshot.expiresAt with
          subs := (SortedArray.put CovSubscriptionSnapshot.key table.subs snapshot).2
        }.countPublished snapshot
          (SortedArray.put CovSubscriptionSnapshot.key table.subs snapshot).1 := rfl
  rw [hput]
  change _ = table.under snapshot.key at hfirst
  generalize SortedArray.put CovSubscriptionSnapshot.key table.subs snapshot = written
    at hfirst ⊢
  obtain ⟨old, subs⟩ := written
  rw [hfirst]
  cases hold : table.under snapshot.key with
  | none =>
    refine ⟨rfl, rfl, rfl, rfl, ?_⟩
    unfold countPublished recountIndefinite
    cases snapshot.expiresAt.isNone
    · rfl
    · rfl
  | some old =>
    unfold countPublished
    dsimp only
    split
    · have halike := alike_fenceFlight { table.dueBy snapshot.expiresAt with subs } old.flight
      refine ⟨?_, halike.policy, ?_, halike.peerCounts, ?_⟩
      · unfold fenceFlight
        split
        · rfl
        · rfl
      · unfold fenceFlight
        split
        · rfl
        · rfl
      · rw [halike.peerIndefiniteCounts]
        rfl
    · exact ⟨rfl, rfl, rfl, rfl, rfl⟩

theorem mem_insert (horder : table.Orderly) (snapshot : CovSubscriptionSnapshot O)
    (h : entry ∈ (table.insert snapshot).subs) :
    entry = snapshot ∨ entry ∈ table.subs ∧ entry.key ≠ snapshot.key := by
  rw [(insert_fields horder snapshot).1] at h
  have hread := (SortedArray.sorted_put horder.sorted snapshot).entry_of_mem h
  rw [SortedArray.entry_put horder.sorted] at hread
  split_ifs at hread with hkey
  · exact .inl (Option.some.inj hread).symm
  · exact .inr ⟨(SortedArray.mem_of_entry hread).1, hkey⟩

theorem countP_insert (horder : table.Orderly) (snapshot : CovSubscriptionSnapshot O)
    (p : CovSubscriptionSnapshot O → Bool) :
    (table.insert snapshot).subs.countP p + (table.under snapshot.key).toList.countP p
      = table.subs.countP p + if p snapshot then 1 else 0 := by
  rw [(insert_fields horder snapshot).1]
  exact SortedArray.countP_put horder.sorted snapshot p

variable {counts : VecMap CovRecipient ℕ}

theorem tally_recountIndefinite (hs : Sorted Prod.fst counts) (peer m : CovRecipient)
    (old new : Bool) (hold : old = true → 0 < counts.tally peer) :
    (recountIndefinite counts peer old new).tally m + (if m = peer ∧ old = true then 1 else 0)
      = counts.tally m + if m = peer ∧ new = true then 1 else 0 := by
  unfold recountIndefinite
  by_cases hm : m = peer
  · subst hm
    cases old with
    | false =>
      cases new with
      | false => simp
      | true => simp [VecMap.tally_raise hs]
    | true =>
      have hpos := hold rfl
      cases new with
      | false =>
        simp only [bne_iff_ne, ne_eq, Bool.true_eq_false, not_false_eq_true, if_true,
          Bool.false_eq_true, if_false, VecMap.tally_lower hs, and_self, and_false]
        omega
      | true => simp
  · simp only [hm, false_and, if_false, Nat.add_zero]
    split_ifs
    · rw [VecMap.tally_raise hs, if_neg hm]
    · rw [VecMap.tally_lower hs, if_neg hm]
    · rfl

theorem sorted_recountIndefinite (hs : Sorted Prod.fst counts) (peer : CovRecipient)
    (old new : Bool) : Sorted Prod.fst (recountIndefinite counts peer old new) := by
  unfold recountIndefinite
  split_ifs
  · exact VecMap.sorted_raise hs peer
  · exact VecMap.sorted_lower hs peer 1
  · exact hs

/-- An entry that belongs to the table: its key is its recipient's, and a context's reference
ends. -/
structure Belongs (snapshot : CovSubscriptionSnapshot O) : Prop where
  owned : snapshot.key.recipient = snapshot.recipient
  ends : snapshot.key.multipleContext.isSome = true → snapshot.expiresAt ≠ none

variable {snapshot : CovSubscriptionSnapshot O}

theorem recipient_under (hbooks : table.Books) {old : CovSubscriptionSnapshot O}
    (hbelongs : Belongs snapshot) (hold : table.under snapshot.key = some old) :
    old.recipient = snapshot.recipient := by
  obtain ⟨hmem, hkey⟩ := mem_of_under hold
  rw [← hbooks.owned old hmem, hkey, hbelongs.owned]

theorem held_insert (hbooks : table.Books) (hbelongs : Belongs snapshot) (peer : CovRecipient) :
    (table.insert snapshot).held peer = table.held peer
      + if peer = snapshot.recipient ∧ table.under snapshot.key = none then 1 else 0 := by
  have hcount := countP_insert hbooks.toOrderly snapshot fun entry => entry.recipient == peer
  unfold held
  cases hold : table.under snapshot.key with
  | none =>
    rw [hold] at hcount
    simp only [Option.toList_none, List.countP_nil, Nat.add_zero, beq_iff_eq] at hcount
    rw [hcount]
    simp [eq_comm]
  | some old =>
    have hrecipient := recipient_under hbooks hbelongs hold
    rw [hold] at hcount
    simp only [Option.toList_some, List.countP_singleton, hrecipient] at hcount
    simp only [reduceCtorEq, and_false, if_false]
    omega

theorem heldIndefinitely_insert (hbooks : table.Books) (hbelongs : Belongs snapshot)
    (peer : CovRecipient) :
    (table.insert snapshot).heldIndefinitely peer
        + (if peer = snapshot.recipient ∧
            ((table.under snapshot.key).any fun old => old.expiresAt.isNone) = true then 1 else 0)
      = table.heldIndefinitely peer
        + if peer = snapshot.recipient ∧ snapshot.expiresAt.isNone = true then 1 else 0 := by
  have hcount := countP_insert hbooks.toOrderly snapshot
    fun entry => entry.recipient == peer && entry.expiresAt.isNone
  unfold heldIndefinitely
  have hflip : peer = snapshot.recipient ↔ snapshot.recipient = peer := eq_comm
  simp only [hflip]
  cases hold : table.under snapshot.key with
  | none =>
    rw [hold] at hcount
    simp only [Option.toList_none, List.countP_nil, Bool.and_eq_true, beq_iff_eq] at hcount
    simpa using hcount
  | some old =>
    have hrecipient := recipient_under hbooks hbelongs hold
    rw [hold] at hcount
    simp only [Option.toList_some, List.countP_singleton, hrecipient, Bool.and_eq_true,
      beq_iff_eq] at hcount
    simpa using hcount

theorem length_insert (horder : table.Orderly) (snapshot : CovSubscriptionSnapshot O) :
    (table.insert snapshot).subs.length = table.subs.length
      + if table.under snapshot.key = none then 1 else 0 := by
  have hcount := countP_insert horder snapshot fun _ => true
  rw [List.countP_true] at hcount
  cases hold : table.under snapshot.key with
  | none =>
    rw [hold] at hcount
    simpa using hcount
  | some old =>
    rw [hold] at hcount
    simpa using hcount

theorem orderly_insert (horder : table.Orderly) (snapshot : CovSubscriptionSnapshot O) :
    (table.insert snapshot).Orderly := by
  obtain ⟨hsubs, _, hdue, _⟩ := insert_fields horder snapshot
  refine ⟨?_, ?_⟩
  · rw [hsubs]
    exact SortedArray.sorted_put horder.sorted snapshot
  · intro entry hentry expires hexpires
    rw [hdue]
    rcases mem_insert horder snapshot hentry with rfl | ⟨hentry, _⟩
    · apply earliest_le
      rw [hexpires]
      simp
    · obtain ⟨due, hnext, hle⟩ := horder.due entry hentry expires hexpires
      obtain ⟨due', hdue', hle'⟩ := dueNoLater_earliest table.nextDue snapshot.expiresAt due hnext
      exact ⟨due', hdue', le_trans hle' hle⟩

/-- An insertion keeps the books. -/
theorem books_insert (hbooks : table.Books) (hbelongs : Belongs snapshot) :
    (table.insert snapshot).Books := by
  obtain ⟨_, _, _, hpeers, hindefinite⟩ := insert_fields hbooks.toOrderly snapshot
  refine ⟨orderly_insert hbooks.toOrderly snapshot, ?_, ?_, ?_, ?_, ?_, ?_⟩
  · rw [hpeers]
    split_ifs
    · exact hbooks.peersSorted
    · exact VecMap.sorted_raise hbooks.peersSorted _
  · rw [hindefinite]
    exact sorted_recountIndefinite hbooks.indefiniteSorted _ _ _
  · intro entry hentry
    rcases mem_insert hbooks.toOrderly snapshot hentry with rfl | ⟨hentry, _⟩
    · exact hbelongs.owned
    · exact hbooks.owned entry hentry
  · intro entry hentry
    rcases mem_insert hbooks.toOrderly snapshot hentry with rfl | ⟨hentry, _⟩
    · exact hbelongs.ends
    · exact hbooks.contextsEnd entry hentry
  · intro peer
    rw [held_insert hbooks hbelongs, ← hbooks.peers]
    unfold peerSubscriptionCount
    rw [hpeers]
    cases table.under snapshot.key with
    | some old => simp
    | none =>
      rw [if_neg (by simp), VecMap.tally_raise hbooks.peersSorted]
      by_cases hpeer : peer = snapshot.recipient
      · simp [hpeer]
      · simp [hpeer]
  · intro peer
    have hheld := heldIndefinitely_insert hbooks hbelongs peer
    have htally := tally_recountIndefinite hbooks.indefiniteSorted snapshot.recipient peer
      ((table.under snapshot.key).any fun old => old.expiresAt.isNone) snapshot.expiresAt.isNone ?_
    · have hbefore := hbooks.indefinite peer
      unfold peerIndefiniteCount at hbefore ⊢
      rw [hindefinite]
      omega
    · intro hany
      obtain ⟨old, hold, hnone⟩ := (Option.any_eq_true _ _).mp hany
      have hrecipient := recipient_under hbooks hbelongs hold
      rw [show table.peerIndefiniteCounts.tally snapshot.recipient
        = table.heldIndefinitely snapshot.recipient from hbooks.indefinite _]
      apply List.countP_pos_iff.mpr
      exact ⟨old, (mem_of_under hold).1, by simp [hrecipient, hnone]⟩

theorem policy_insert (horder : table.Orderly) (snapshot : CovSubscriptionSnapshot O) :
    (table.insert snapshot).policy = table.policy :=
  (insert_fields horder snapshot).2.1

/-! ## The caps of one subscription -/

/-- What the caps leave room for, on the true numbers. -/
structure Admits (table : CovTable O) (peer : CovRecipient) (newCount newIndefinite : ℕ) : Prop where
  indefinite : 0 < newIndefinite →
    table.heldIndefinitely peer + newIndefinite ≤ table.policy.maxIndefinitePerPeer
  perPeer : newCount ≤ table.policy.maxSubscriptionsPerPeer - table.held peer
  capacity : newCount ≤ table.policy.capacityFor peer - table.subs.length

variable {peer : CovRecipient} {newCount : ℕ}

theorem capPassed_none (hbooks : table.Books) (h : table.capPassed peer newCount = none) :
    newCount ≤ table.policy.maxSubscriptionsPerPeer - table.held peer ∧
      newCount ≤ table.policy.capacityFor peer - table.subs.length := by
  unfold capPassed room at h
  rw [hbooks.peers] at h
  dsimp only at h
  split_ifs at h with hpeer htable
  exact ⟨Nat.not_lt.mp hpeer, Nat.not_lt.mp htable⟩

/-- The caps are checked after an expiry pass, which is all the check does to the entries. -/
theorem checkCaps_cases (peer : CovRecipient) (newCount newIndefinite : ℕ) (now : Instant)
    (hbooks : table.Books) :
    Alike (table.expire now).2 (table.checkCaps peer newCount newIndefinite now).2 ∧
      ((table.checkCaps peer newCount newIndefinite now).1 = none →
        (table.checkCaps peer newCount newIndefinite now).2 = (table.expire now).2 ∧
          Admits (table.expire now).2 peer newCount newIndefinite) := by
  have hexpired := (books_expire now hbooks).1
  unfold checkCaps
  generalize (table.expire now).2 = expired at hexpired ⊢
  dsimp only
  split
  · exact ⟨⟨rfl, rfl, rfl, rfl, .refl _⟩, fun h => (nomatch h)⟩
  · rename_i hindefinite
    split
    · exact ⟨⟨rfl, rfl, rfl, rfl, .refl _⟩, fun h => (nomatch h)⟩
    · rename_i hcaps
      refine ⟨.refl _, fun _ => ⟨rfl, ?_, (capPassed_none hexpired hcaps).1,
        (capPassed_none hexpired hcaps).2⟩⟩
      intro hnew
      rw [← hexpired.indefinite]
      exact Nat.not_lt.mp fun hpast => hindefinite ⟨hnew, hpast⟩

theorem endAbandoned_subs (table : CovTable O) (now : Instant) :
    (table.endAbandoned now).subs = table.subs := by
  have habandon : ∀ (table : CovTable O) token, (table.abandon token).subs = table.subs := by
    intro table token
    unfold abandon tidyFlight
    dsimp only
    split_ifs
    · rfl
    · rfl
  unfold endAbandoned
  generalize table.abandoned now = tokens
  induction tokens generalizing table with
  | nil => rfl
  | cons token tokens ih => exact (ih _).trans (habandon table token)

variable {now : Instant}

theorem expire_subs_of_live (hlive : ∀ entry ∈ table.subs, isExpired now entry = false) :
    (table.expire now).2.subs = table.subs := by
  unfold expire
  split
  · rfl
  · have hnone : (table.endAbandoned now).subs.filter (isExpired now) = [] := by
      rw [endAbandoned_subs, List.filter_eq_nil_iff]
      intro entry hentry
      rw [hlive entry hentry]
      decide
    unfold purge
    dsimp only
    rw [hnone]
    exact endAbandoned_subs table now

theorem checkAdmission_cases (peer : CovRecipient) (isIndefinite : Bool)
    (existing : Option (CovSubscriptionSnapshot O)) (now : Instant) (hbooks : table.Books)
    (hlive : ∀ entry ∈ table.subs, isExpired now entry = false) :
    (table.checkAdmission peer isIndefinite existing now).2.Books ∧
      Fewer table (table.checkAdmission peer isIndefinite existing now).2 ∧
      ((table.checkAdmission peer isIndefinite existing now).1 = none →
        (table.checkAdmission peer isIndefinite existing now).2.subs = table.subs ∧
          Admits (table.checkAdmission peer isIndefinite existing now).2 peer
            (added isIndefinite existing).1 (added isIndefinite existing).2) := by
  obtain ⟨hexpired, hfewer, hlives⟩ := books_expire now hbooks
  have hsubs := expire_subs_of_live hlive
  unfold checkAdmission
  generalize (table.expire now).2 = expired at hexpired hfewer hlives hsubs ⊢
  dsimp only
  split
  · refine ⟨?_, ?_, fun h => (nomatch h)⟩
    · have halike : Alike expired (expired.refuseIndefinite .valueOutOfRange).2 :=
        ⟨rfl, rfl, rfl, rfl, .refl _⟩
      exact halike.books hexpired
    · exact ⟨hfewer.held, hfewer.heldIndefinitely, hfewer.length, hfewer.policy⟩
  · generalize added isIndefinite existing = counts
    obtain ⟨newCount, newIndefinite⟩ := counts
    obtain ⟨halike, hadmits⟩ := checkCaps_cases peer newCount newIndefinite now hexpired
    obtain ⟨hagain, hfewerAgain, _⟩ := books_expire now hexpired
    refine ⟨halike.books hagain, hfewer.trans (hfewerAgain.trans halike.fewer), fun hnone => ?_⟩
    obtain ⟨htable, hroom⟩ := hadmits hnone
    rw [htable]
    exact ⟨(expire_subs_of_live hlives).trans hsubs, hroom⟩

/-- An admitted insertion stays within the quotas. -/
theorem within_insert (hbooks : table.Books) (hwithin : table.Within) (hbelongs : Belongs snapshot)
    (hadmits : Admits table snapshot.recipient
      (added snapshot.expiresAt.isNone (table.under snapshot.key)).1
      (added snapshot.expiresAt.isNone (table.under snapshot.key)).2) :
    (table.insert snapshot).Within ∧
      (table.under snapshot.key = none →
        (table.insert snapshot).subs.length ≤ table.policy.capacityFor snapshot.recipient) := by
  have hlength := length_insert hbooks.toOrderly snapshot
  have hcapacity : table.under snapshot.key = none →
      (table.insert snapshot).subs.length ≤ table.policy.capacityFor snapshot.recipient := by
    intro hnone
    have hroom := hadmits.capacity
    rw [hnone, if_pos rfl] at hlength
    rw [hnone] at hroom
    dsimp only [added] at hroom
    omega
  refine ⟨⟨?_, ?_, ?_⟩, hcapacity⟩
  · intro peer
    rw [policy_insert hbooks.toOrderly, held_insert hbooks hbelongs]
    split_ifs with hnew
    · have hroom := hadmits.perPeer
      rw [hnew.2] at hroom
      dsimp only [added] at hroom
      rw [hnew.1]
      omega
    · exact hwithin.perPeer peer
  · intro peer
    have hheld := heldIndefinitely_insert hbooks hbelongs peer
    have hbefore := hwithin.indefinitePerPeer peer
    rw [policy_insert hbooks.toOrderly]
    by_cases hnew : peer = snapshot.recipient ∧ snapshot.expiresAt.isNone = true
    · rw [if_pos hnew] at hheld
      have hindefinite := hadmits.indefinite
      rw [← hnew.1, hnew.2] at hindefinite
      cases hold : table.under snapshot.key with
      | none =>
        rw [hold] at hheld hindefinite
        simp only [added, if_true, Nat.zero_lt_one, true_implies] at hindefinite
        simp only [Option.any_none, Bool.false_eq_true, and_false, if_false] at hheld
        omega
      | some old =>
        rw [hold] at hheld hindefinite
        simp only [added, Option.any_some, hnew.1, true_and, Bool.true_and] at hheld hindefinite
        cases hnone : old.expiresAt.isNone with
        | true =>
          rw [hnone, if_pos rfl] at hheld
          rw [← hnew.1] at hheld
          omega
        | false =>
          rw [hnone] at hheld hindefinite
          simp only [Bool.not_false, if_true, Nat.zero_lt_one, true_implies, Bool.false_eq_true,
            if_false] at hheld hindefinite
          rw [hnew.1]
          omega
    · rw [if_neg hnew] at hheld
      omega
  · rw [policy_insert hbooks.toOrderly]
    by_cases hnone : table.under snapshot.key = none
    · exact le_trans (hcapacity hnone) (table.policy.capacityFor_le snapshot.recipient)
    · rw [hlength, if_neg hnone]
      exact hwithin.global

theorem alike_reserveGenerations (table : CovTable O) (count : ℕ) :
    Alike table (table.reserveGenerations count).2 ∧
      (table.reserveGenerations count).2.subs = table.subs := by
  unfold reserveGenerations
  split_ifs
  · exact ⟨.refl _, rfl⟩
  · exact ⟨⟨rfl, rfl, rfl, rfl, .refl _⟩, rfl⟩
  · exact ⟨⟨rfl, rfl, rfl, rfl, .refl _⟩, rfl⟩

variable {table' : CovTable O}

theorem Alike.admits {table : CovTable O} (h : Alike table table') {newIndefinite : ℕ}
    (hadmits : Admits table peer newCount newIndefinite) :
    Admits table' peer newCount newIndefinite where
  indefinite := by
    rw [h.heldIndefinitely, h.policy]
    exact hadmits.indefinite
  perPeer := by
    rw [h.held, h.policy]
    exact hadmits.perPeer
  capacity := by
    rw [h.length, h.policy]
    exact hadmits.capacity

/-- A publication on a flight of its own is an insertion, but for the flight counter. -/
theorem publish_own (table : CovTable O) (key : CovSubscriptionKey) (sub : CovSubscription O)
    (generation : ℕ) : (table.publish key sub generation none none none).2
      = table.newFlight.2.insert
        ⟨key, generation, table.id, 0, table.nextFlight + 1, sub, none, none⟩ := rfl

theorem under_congr {table : CovTable O} (h : table'.subs = table.subs) (key : CovSubscriptionKey) :
    table'.under key = table.under key := by
  unfold under
  rw [h]

/-- What an admission that accepted `accepted` leaves: the books, the quotas, and, where it added an
entry, no more than the capacity its recipient may fill. -/
structure Admitted (table table' : CovTable O) (now : Instant) (recipient : CovRecipient)
    (accepted : List (CovSubscriptionSnapshot O)) : Prop where
  books : table'.Books
  within : table'.Within
  policy : table'.policy = table.policy
  capacity : ∀ snapshot ∈ accepted, (table.expire now).2.contains snapshot.key = false →
    table'.subs.length ≤ table.policy.capacityFor recipient

theorem Admitted.of_fewer {table : CovTable O} {recipient : CovRecipient} (hwithin : table.Within)
    (hbooks' : table'.Books) (hfewer : Fewer table table') :
    Admitted table table' now recipient [] where
  books := hbooks'
  within := hfewer.within hwithin
  policy := hfewer.policy
  capacity := fun _ h => absurd h List.not_mem_nil

def acceptedOne {E : Type} : Except E (CovSubscriptionSnapshot O) → List (CovSubscriptionSnapshot O)
  | .ok snapshot => [snapshot]
  | .error _ => []

/-- An ordinary or Single admission keeps the books and the quotas. -/
theorem admitted_subscribe (sub : CovSubscription O) (now : Instant) (hbooks : table.Books)
    (hwithin : table.Within) :
    Admitted table (table.subscribe sub now).2 now sub.recipient
      (acceptedOne (table.subscribe sub now).1) := by
  unfold subscribe
  split
  · exact .of_fewer hwithin hbooks (.refl _)
  rename_i key hkey
  split
  · exact .of_fewer hwithin hbooks (.refl _)
  rename_i hordinary
  obtain ⟨hexpired, hfewer, hlive⟩ := books_expire now hbooks
  have hcontains : ∀ key, (table.expire now).2.contains key = false →
      (table.expire now).2.under key = none := by
    intro key h
    unfold contains at h
    rwa [get_eq_under hexpired.toOrderly, Option.isSome_eq_false_iff, Option.isNone_iff_eq_none] at h
  dsimp only
  rw [get_eq_under hexpired.toOrderly]
  obtain ⟨hchecked, hfewerAgain, hnone⟩ := checkAdmission_cases sub.recipient sub.expiresAt.isNone
    ((table.expire now).2.under key) now hexpired hlive
  split
  · rename_i refused checked hresult
    rw [hresult] at hchecked hfewerAgain
    exact .of_fewer hwithin hchecked (hfewer.trans hfewerAgain)
  rename_i checked hresult
  rw [hresult] at hchecked hfewerAgain hnone
  obtain ⟨hsubs, hadmits⟩ := hnone rfl
  obtain ⟨halike, hreserved⟩ := alike_reserveGenerations checked 1
  split
  · rename_i refused reserved hresult
    rw [hresult] at halike
    exact .of_fewer hwithin (halike.books hchecked) ((hfewer.trans hfewerAgain).trans halike.fewer)
  rename_i generation reserved hresult
  rw [hresult] at halike hreserved
  have hnext : Alike checked reserved.newFlight.2 :=
    ⟨halike.faces, halike.peerCounts, halike.peerIndefiniteCounts, halike.policy, halike.nextDue⟩
  have hunder : reserved.newFlight.2.under key = (table.expire now).2.under key :=
    under_congr (hreserved.trans hsubs) key
  rw [publish_own]
  set snapshot : CovSubscriptionSnapshot O :=
    ⟨key, generation, reserved.id, 0, reserved.nextFlight + 1, sub, none, none⟩ with hsnapshot
  have hbelongs : Belongs snapshot :=
    ⟨CovSubscription.recipient_of_key hkey, fun hmultiple => absurd hmultiple hordinary⟩
  have hfits : Admits reserved.newFlight.2 snapshot.recipient
      (added snapshot.expiresAt.isNone (reserved.newFlight.2.under snapshot.key)).1
      (added snapshot.expiresAt.isNone (reserved.newFlight.2.under snapshot.key)).2 := by
    rw [show snapshot.key = key from rfl, hunder]
    exact hnext.admits hadmits
  have hpolicy : reserved.newFlight.2.policy = table.policy :=
    ((hfewer.trans hfewerAgain).trans hnext.fewer).policy
  have hwithin' := ((hfewer.trans hfewerAgain).trans hnext.fewer).within hwithin
  obtain ⟨hwithinNext, hcapacity⟩ := within_insert (hnext.books hchecked) hwithin' hbelongs hfits
  refine ⟨books_insert (hnext.books hchecked) hbelongs, hwithinNext, ?_, ?_⟩
  · rw [policy_insert (hnext.books hchecked).toOrderly]
    exact hpolicy
  · intro accepted haccepted habsent
    rw [List.mem_singleton.mp haccepted] at habsent
    rw [← hpolicy]
    exact hcapacity (hunder.trans (hcontains key habsent))

end CovTable

end RustyBacnet.Cov
