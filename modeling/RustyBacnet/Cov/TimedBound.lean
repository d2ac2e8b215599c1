import RustyBacnet.Cov.TimedCounts

/-!
# The bound on pending changes

Eviction takes one change at a time while a context is over its room or its ceiling, never a
reference's newest and never its change in delivery. It ends when the context fits or only those are
left.
-/

namespace RustyBacnet.Cov

namespace TimedHistories

variable {store : TimedHistories} {key : CovSubscriptionKey} {context : MultipleContextKey}

/-! ## What eviction may take -/

variable {history : TimedHistory} {at_ : ℕ}

theorem evictable_some (h : evictable history = some at_) :
    ∃ change, history.entries[at_]? = some change ∧ at_ + 1 < history.entries.length ∧
      change.seq ≠ history.inDelivery := by
  have hmem := List.mem_of_find?_eq_some h
  have hany := List.find?_some h
  rw [List.mem_range] at hmem
  rw [Option.any_eq_true] at hany
  obtain ⟨change, hchange, hseq⟩ := hany
  exact ⟨change, hchange, by omega, by simpa using hseq⟩

/-- Every change is the newest or the one in delivery. -/
def Exempt (history : TimedHistory) : Prop :=
  ∀ change ∈ history.entries, history.entries.getLast? = some change ∨
    change.seq = history.inDelivery

theorem evictable_none (h : evictable history = none) : Exempt history := by
  intro change hchange
  obtain ⟨at_, hat⟩ := List.mem_iff_getElem?.mp hchange
  obtain ⟨hlt, _⟩ := List.getElem?_eq_some_iff.mp hat
  by_cases hlast : at_ + 1 = history.entries.length
  · left
    rw [List.getLast?_eq_getElem?, ← hlast, Nat.add_sub_cancel]
    exact hat
  · right
    have hnone := List.find?_eq_none.mp h at_ (List.mem_range.mpr (by omega))
    rw [hat, Option.any_some] at hnone
    simpa using hnone

variable {candidates : List (CovSubscriptionKey × ℕ × ℕ)}

theorem oldestOf_none (h : oldestOf candidates = none) : candidates = [] := by
  cases candidates with
  | nil => rfl
  | cons candidate candidates =>
    unfold oldestOf at h
    split at h
    · cases h
    · split_ifs at h

theorem oldestOf_mem {found : CovSubscriptionKey × ℕ × ℕ} (h : oldestOf candidates = some found) :
    found ∈ candidates := by
  induction candidates with
  | nil => cases h
  | cons candidate candidates ih =>
    unfold oldestOf at h
    split at h
    · cases h
      exact List.mem_cons_self
    · rename_i other hother
      split_ifs at h
      · cases h
        exact List.mem_cons_of_mem _ (ih hother)
      · cases h
        exact List.mem_cons_self

variable {victim : CovSubscriptionKey}

theorem victim_some (hdistinct : Pairs.Distinct store.histories)
    (hkey : key.multipleContext = some context) (h : store.victim key context = some (victim, at_))
    :
    victim.multipleContext = some context ∧
      ∃ history, Pairs.get store.histories victim = some history ∧
        evictable history = some at_ := by
  unfold TimedHistories.victim at h
  split at h
  · rename_i found hfound
    cases h
    obtain ⟨history, hget, hevictable⟩ := Option.bind_eq_some_iff.mp hfound
    exact ⟨hkey, history, hget, hevictable⟩
  · obtain ⟨found, hfound, hsame⟩ := Option.map_eq_some_iff.mp h
    cases hsame
    have hmem := oldestOf_mem hfound
    obtain ⟨pair, hpair, hmade⟩ := List.mem_filterMap.mp hmem
    obtain ⟨hin, hcontext⟩ := List.mem_filter.mp hpair
    split at hmade
    · cases hmade
    · rename_i at_ hevictable
      obtain ⟨change, _, rfl⟩ := Option.map_eq_some_iff.mp hmade
      exact ⟨of_decide_eq_true hcontext, pair.2, (Pairs.mem_iff_get hdistinct).mp hin, hevictable⟩

theorem victim_none (h : store.victim key context = none) {other : CovSubscriptionKey}
    (hother : other.multipleContext = some context)
    (hget : Pairs.get store.histories other = some history) : Exempt history := by
  unfold TimedHistories.victim at h
  split at h
  · cases h
  · rw [Option.map_eq_none_iff] at h
    have hnone := oldestOf_none h
    cases hevictable : evictable history with
    | none => exact evictable_none hevictable
    | some at_ =>
      obtain ⟨change, hchange, _, _⟩ := evictable_some hevictable
      have hmem : (other, at_, change.seq) ∈ store.candidates context := by
        refine List.mem_filterMap.mpr ⟨(other, history), ?_, ?_⟩
        · exact List.mem_filter.mpr ⟨Pairs.get_eq_some_mem hget, decide_eq_true hother⟩
        · rw [hevictable]
          dsimp only
          rw [hchange]
          rfl
      rw [hnone] at hmem
      exact absurd hmem List.not_mem_nil

/-! ## What eviction spares -/

/-- A history after evictions: its newest and its change in delivery are still there. -/
structure SparesIn (history history' : TimedHistory) : Prop where
  incarnation : history'.incarnation = history.incarnation
  inDelivery : history'.inDelivery = history.inDelivery
  sublist : history'.entries.Sublist history.entries
  newest : history'.entries.getLast? = history.entries.getLast?
  delivering : ∀ change ∈ history.entries, change.seq = history.inDelivery →
    change ∈ history'.entries

theorem SparesIn.refl (history : TimedHistory) : SparesIn history history :=
  ⟨rfl, rfl, List.Sublist.refl _, rfl, fun _ h _ => h⟩

theorem SparesIn.trans {history history' history'' : TimedHistory} (h : SparesIn history history')
    (h' : SparesIn history' history'') : SparesIn history history'' where
  incarnation := h'.incarnation.trans h.incarnation
  inDelivery := h'.inDelivery.trans h.inDelivery
  sublist := h'.sublist.trans h.sublist
  newest := h'.newest.trans h.newest
  delivering := by
    intro change hmem hseq
    exact h'.delivering change (h.delivering change hmem hseq) (hseq.trans h.inDelivery.symm)

/-- No history loses its newest change or its change in delivery. -/
def Spares (store store' : TimedHistories) : Prop :=
  ∀ key history, Pairs.get store.histories key = some history →
    ∃ history', Pairs.get store'.histories key = some history' ∧ SparesIn history history'

theorem Spares.refl (store : TimedHistories) : Spares store store :=
  fun _ history hget => ⟨history, hget, .refl history⟩

theorem Spares.trans {store' store'' : TimedHistories} (h : Spares store store')
    (h' : Spares store' store'') : Spares store store'' := by
  intro key history hget
  obtain ⟨history', hget', hspares⟩ := h key history hget
  obtain ⟨history'', hget'', hspares'⟩ := h' key history' hget'
  exact ⟨history'', hget'', hspares.trans hspares'⟩

theorem sparesIn_eraseIdx (h : evictable history = some at_) :
    SparesIn history { history with entries := history.entries.eraseIdx at_ } := by
  obtain ⟨change, hchange, hlt, hseq⟩ := evictable_some h
  refine ⟨rfl, rfl, List.eraseIdx_sublist _ _, ?_, ?_⟩
  · rw [List.getLast?_eq_getElem?, List.getLast?_eq_getElem?, List.length_eraseIdx,
      if_pos (by omega), List.getElem?_eraseIdx_of_ge (by omega)]
    congr 1
    omega
  · intro other hother hdelivering
    obtain ⟨index, hindex⟩ := List.mem_iff_getElem?.mp hother
    refine List.mem_eraseIdx_iff_getElem?.mpr ⟨index, ?_, hindex⟩
    rintro rfl
    rw [hchange] at hindex
    cases hindex
    exact hseq hdelivering

/-! ## What an operation on one context leaves of the others -/

def sizing (terms : ContextTerms) : ℕ × ℕ × ℕ := (terms.apdu, terms.envelope, terms.reserve)

theorem holds_congr {terms terms' : ContextTerms} (h : sizing terms = sizing terms') (held : Held)
    (local_ : ℕ) : terms.holds held local_ = terms'.holds held local_ := by
  obtain ⟨apdu, envelope, reserve, warned⟩ := terms
  obtain ⟨apdu', envelope', reserve', warned'⟩ := terms'
  cases h
  rfl

/-- The sizes of all contexts are as they were. -/
structure SameSizing (store store' : TimedHistories) : Prop where
  localApdu : store'.localApdu = store.localApdu
  terms : ∀ context, (Pairs.get store'.terms context).map sizing
    = (Pairs.get store.terms context).map sizing

theorem SameSizing.refl (store : TimedHistories) : SameSizing store store := ⟨rfl, fun _ => rfl⟩

theorem SameSizing.trans {store' store'' : TimedHistories} (h : SameSizing store store')
    (h' : SameSizing store' store'') : SameSizing store store'' :=
  ⟨h'.localApdu.trans h.localApdu, fun context => (h'.terms context).trans (h.terms context)⟩

/-- The context's histories and its count are as they were. -/
structure Leaves (store store' : TimedHistories) (context : MultipleContextKey) : Prop where
  histories : ∀ key, key.multipleContext = some context →
    Pairs.get store'.histories key = Pairs.get store.histories key
  held : store'.heldOf context = store.heldOf context

theorem Leaves.refl (store : TimedHistories) (context : MultipleContextKey) :
    Leaves store store context := ⟨fun _ _ => rfl, rfl⟩

theorem Leaves.trans {store' store'' : TimedHistories} (h : Leaves store store' context)
    (h' : Leaves store' store'' context) : Leaves store store'' context :=
  ⟨fun key hkey => (h'.histories key hkey).trans (h.histories key hkey), h'.held.trans h.held⟩

/-- The context fits, or nothing of it may be evicted. -/
def Bounded (store : TimedHistories) (context : MultipleContextKey) : Prop :=
  ∀ terms, Pairs.get store.terms context = some terms →
    terms.holds (store.heldOf context) store.localApdu = true ∨
      ∀ key history, key.multipleContext = some context →
        Pairs.get store.histories key = some history → Exempt history

theorem Bounded.leaves {store' : TimedHistories} (h : Bounded store context)
    (hsizing : SameSizing store store') (hleaves : Leaves store store' context) :
    Bounded store' context := by
  intro terms' hterms'
  have hsame := hsizing.terms context
  rw [hterms', Option.map_some] at hsame
  obtain ⟨terms, hterms, hsize⟩ := Option.map_eq_some_iff.mp hsame.symm
  rcases h terms hterms with hfits | hexempt
  · left
    rw [hleaves.held, hsizing.localApdu, ← holds_congr hsize]
    exact hfits
  · right
    intro key history hkey hget
    rw [hleaves.histories key hkey] at hget
    exact hexempt key history hkey hget

theorem sameSizing_dropped (store : TimedHistories) (key : CovSubscriptionKey) (count : ℕ)
    (reason : DropReason) : SameSizing store (store.dropped key count reason) := by
  refine ⟨rfl, ?_⟩
  intro context
  unfold TimedHistories.dropped
  split
  · rfl
  · rw [Pairs.get_modify]
    split_ifs with hsame
    · subst hsame
      rw [Option.map_map]
      rfl
    · rfl

theorem leaves_dropped (store : TimedHistories) (key : CovSubscriptionKey) (count : ℕ)
    (reason : DropReason) : Leaves store (store.dropped key count reason) context :=
  ⟨fun _ _ => rfl, rfl⟩

theorem sameSizing_release (store : TimedHistories) (key : CovSubscriptionKey) (released : Held) :
    SameSizing store (store.release key released) :=
  ⟨release_localApdu _ _ _, fun context => by rw [release_terms]⟩

theorem leaves_release (released : Held) (hother : key.multipleContext ≠ some context) :
    Leaves store (store.release key released) context := by
  refine ⟨fun other _ => by rw [release_histories], ?_⟩
  unfold TimedHistories.release heldOf
  split
  · rfl
  · rename_i found hfound
    have hne : context ≠ found := by
      rintro rfl
      exact hother hfound
    split
    · rfl
    · dsimp only
      split_ifs
      · rw [Pairs.get_remove, if_neg hne]
      · rw [Pairs.get_insert, if_neg hne]

theorem sameSizing_charge (store : TimedHistories) (key : CovSubscriptionKey) (added : Held) :
    SameSizing store (store.charge key added) := by
  refine ⟨?_, fun context => by rw [charge_terms]⟩
  unfold charge
  split
  · rfl
  · split_ifs
    · rfl
    · rfl

theorem leaves_charge (added : Held) (hother : key.multipleContext ≠ some context) :
    Leaves store (store.charge key added) context := by
  refine ⟨fun other _ => by rw [charge_histories], ?_⟩
  unfold charge
  split
  · rfl
  · rename_i found hfound
    split_ifs
    · rfl
    · rw [heldOf_insert, if_neg]
      rintro rfl
      exact hother hfound

theorem leaves_setHistory (hget : Pairs.get store.histories key = some history)
    (history' : TimedHistory) (hother : key.multipleContext ≠ some context) :
    Leaves store (store.setHistory key history') context := by
  refine ⟨?_, rfl⟩
  intro other hcontext
  rw [get_setHistory hget, if_neg]
  rintro rfl
  exact hother hcontext

/-! ## One eviction -/

theorem pending_setHistory (hdistinct : Pairs.Distinct store.histories)
    (hget : Pairs.get store.histories key = some history) (history' : TimedHistory) :
    (store.setHistory key history').pending + history.entries.length
      = store.pending + history'.entries.length := by
  have hweight := Pairs.weight_modify
    (w := fun (_ : CovSubscriptionKey) (history : TimedHistory) => history.entries.length)
    (k := key) (f := fun _ => history') hdistinct
  unfold Pairs.weightAt at hweight
  rw [hget] at hweight
  exact hweight

/-- What one step of the loop does to the store. -/
structure Evicts (context : MultipleContextKey) (store store' : TimedHistories) : Prop where
  sound : Sound store'
  spares : Spares store store'
  sizing : SameSizing store store'
  leaves : ∀ other, other ≠ context → Leaves store store' other

theorem evict_histories (hget : Pairs.get store.histories victim = some history)
    (hevictable : evictable history = some at_) :
    (store.evict victim at_).histories = (store.setHistory victim
      { history with entries := history.entries.eraseIdx at_ }).histories := by
  obtain ⟨change, hchange, _, _⟩ := evictable_some hevictable
  unfold TimedHistories.evict
  rw [hget]
  dsimp only
  rw [hchange]
  exact release_histories _ _ _

theorem spares_evict (hdistinct : Pairs.Distinct store.histories)
    (hget : Pairs.get store.histories victim = some history)
    (hevictable : evictable history = some at_) :
    Spares store (store.evict victim at_) ∧
      Pairs.Distinct (store.evict victim at_).histories := by
  constructor
  · intro other found hfound
    rw [evict_histories hget hevictable, get_setHistory hget]
    by_cases hsame : other = victim
    · subst hsame
      rw [hget] at hfound
      cases hfound
      rw [if_pos rfl]
      exact ⟨_, rfl, sparesIn_eraseIdx hevictable⟩
    · rw [if_neg hsame]
      exact ⟨found, hfound, .refl found⟩
  · rw [evict_histories hget hevictable]
    exact distinct_setHistory hdistinct _

theorem evicts_evict (h : Sound store) (hvictim : victim.multipleContext = some context)
    (hget : Pairs.get store.histories victim = some history)
    (hevictable : evictable history = some at_) :
    Evicts context store (store.evict victim at_) ∧
      (store.evict victim at_).pending + 1 = store.pending := by
  obtain ⟨change, hchange, hlt, _⟩ := evictable_some hevictable
  set history' : TimedHistory := { history with entries := history.entries.eraseIdx at_ }
    with hhistory'
  have hevict : store.evict victim at_ = ((store.setHistory victim history').release victim
      (Held.of [change])).dropped victim 1 .historyFull := by
    unfold TimedHistories.evict
    rw [hget]
    dsimp only
    rw [hchange]
  have hsplit : ∀ size : TimedChange → ℕ, (history.entries.map size).sum
      = (history'.entries.map size).sum + ([change].map size).sum := by
    intro size
    obtain ⟨hbound, hat⟩ := List.getElem?_eq_some_iff.mp hchange
    have hperm := (List.getElem_cons_eraseIdx_perm hbound).map size
    have hsum := hperm.sum_eq
    rw [hat, List.map_cons, List.sum_cons] at hsum
    rw [List.map_singleton, List.sum_singleton, ← hsum]
    exact Nat.add_comm _ _
  have horder : InOrder history'.entries :=
    List.Pairwise.sublist (List.eraseIdx_sublist _ _) (h.ordered victim history hget)
  rw [hevict]
  refine ⟨⟨?_, ?_, ?_, ?_⟩, ?_⟩
  · exact (h.shrink hget horder hsplit).dropped _ _ _
  · rw [← hevict]
    exact (spares_evict h.distinct hget hevictable).1
  · have hset : SameSizing store (store.setHistory victim history') := ⟨rfl, fun _ => rfl⟩
    exact (hset.trans (sameSizing_release _ _ _)).trans (sameSizing_dropped _ _ _ _)
  · intro other hother
    have hne : victim.multipleContext ≠ some other := by
      rw [hvictim]
      exact fun hsame => hother (Option.some.inj hsame).symm
    exact ((leaves_setHistory hget history' hne).trans (leaves_release _ hne)).trans
      (leaves_dropped _ _ _ _)
  · have hpending := pending_setHistory h.distinct hget history'
    have hlength : history'.entries.length + 1 = history.entries.length := by
      rw [hhistory']
      rw [List.length_eraseIdx, if_pos (by omega)]
      omega
    have hsame : (((store.setHistory victim history').release victim (Held.of [change])).dropped
        victim 1 .historyFull).pending = (store.setHistory victim history').pending := by
      show Pairs.weight _ ((store.setHistory victim history').release victim
        (Held.of [change])).histories = _
      rw [release_histories]
      rfl
    rw [hsame]
    omega

theorem Evicts.refl (h : Sound store) : Evicts context store store :=
  ⟨h, .refl store, .refl store, fun other _ => .refl store other⟩

theorem Evicts.trans {store' store'' : TimedHistories} (h : Evicts context store store')
    (h' : Evicts context store' store'') : Evicts context store store'' where
  sound := h'.sound
  spares := h.spares.trans h'.spares
  sizing := h.sizing.trans h'.sizing
  leaves := fun other hother => (h.leaves other hother).trans (h'.leaves other hother)

/-! ## The loop -/

theorem no_pending {key : CovSubscriptionKey} (h : store.pending = 0)
    (hget : Pairs.get store.histories key = some history) : history.entries = [] := by
  have hle : history.entries.length ≤ store.pending :=
    Pairs.le_weight (w := fun (_ : CovSubscriptionKey) (history : TimedHistory) =>
      history.entries.length) hget
  exact List.eq_nil_of_length_eq_zero (by omega)

/-- The loop ends with the context within its bound, or with nothing left to take. -/
theorem evictFrom_ends {terms : ContextTerms} (hkey : key.multipleContext = some context)
    (left : ℕ) : ∀ {store : TimedHistories}, Sound store → store.pending ≤ left →
      Evicts context store (evictFrom key context terms left store) ∧
        (terms.holds ((evictFrom key context terms left store).heldOf context)
            (evictFrom key context terms left store).localApdu = true ∨
          ∀ other history, other.multipleContext = some context →
            Pairs.get (evictFrom key context terms left store).histories other = some history →
            Exempt history) := by
  induction left with
  | zero =>
    intro store h hpending
    refine ⟨.refl h, .inr ?_⟩
    intro other history _ hget change hchange
    rw [no_pending (Nat.le_zero.mp hpending) hget] at hchange
    exact absurd hchange List.not_mem_nil
  | succ left ih =>
    intro store h hpending
    unfold evictFrom
    by_cases hfits : terms.holds (store.heldOf context) store.localApdu = true
    · rw [if_pos hfits]
      exact ⟨.refl h, .inl hfits⟩
    · rw [if_neg hfits]
      cases hvictim : store.victim key context with
      | none =>
        exact ⟨.refl h, .inr fun other history hother hget => victim_none hvictim hother hget⟩
      | some found =>
        obtain ⟨victim, at_⟩ := found
        obtain ⟨hcontext, history, hget, hevictable⟩ := victim_some h.distinct hkey hvictim
        obtain ⟨hevicts, hless⟩ := evicts_evict h hcontext hget hevictable
        obtain ⟨hrest, hends⟩ := ih hevicts.sound (by omega)
        exact ⟨hevicts.trans hrest, hends⟩

/-- After `enforce_bound` the reference's context is within its bound. -/
theorem evicts_enforceBound (h : Sound store) (hkey : key.multipleContext = some context) :
    Evicts context store (store.enforceBound key) ∧
      ((Pairs.get store.terms context).isSome = true →
        Bounded (store.enforceBound key) context) := by
  unfold enforceBound
  rw [hkey]
  dsimp only
  cases hterms : Pairs.get store.terms context with
  | none => exact ⟨.refl h, fun hsome => absurd hsome (by simp)⟩
  | some terms =>
    dsimp only
    obtain ⟨hevicts, hends⟩ := @evictFrom_ends key context terms hkey store.pending store h
      (le_refl _)
    refine ⟨hevicts, fun _ => ?_⟩
    intro terms' hterms'
    have hsame := hevicts.sizing.terms context
    rw [hterms', hterms, Option.map_some, Option.map_some, Option.some.injEq] at hsame
    rcases hends with hfits | hexempt
    · left
      rw [holds_congr hsame]
      exact hfits
    · exact .inr hexempt

end TimedHistories

end RustyBacnet.Cov
