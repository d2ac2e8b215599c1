import RustyBacnet.Cov.TimedReports
import RustyBacnet.Cov.TimedRuns

/-!
# What keeps pending changes found

`drain` holds a reference's pending changes back while its newest change is not among them, since
that change is then in flight. So pending changes are found once the newest one has an end that
leaves none of them behind. It has one of four (`Settled`): it was delivered, and the older ones
went with it; it is pending itself; a claim holds it, whole or as the part that delivers it; or it
was given up with nothing else of its reference pending or claimed.

`Kept` is that invariant, over the store and the changes its claims hold. A claim that is committed
keeps it: its newest whole change is delivered, and what is older goes.
-/

namespace RustyBacnet.Cov

open TimedHistories

abbrev Parts := List (CovSubscriptionKey × ℕ × List TimedChange)

variable {store store' : TimedHistories} {key : CovSubscriptionKey}
  {history history' : TimedHistory} {parts parts' : Parts}

/-! ## What eviction leaves -/

/-- A history after evictions: nothing but older changes went. -/
structure Trims (history history' : TimedHistory) : Prop where
  same : history' = { history with entries := history'.entries }
  sublist : history'.entries.Sublist history.entries
  newest : history'.entries.getLast? = history.entries.getLast?

theorem Trims.refl (history : TimedHistory) : Trims history history :=
  ⟨rfl, List.Sublist.refl _, rfl⟩

theorem Trims.trans {history'' : TimedHistory} (h : Trims history history')
    (h' : Trims history' history'') : Trims history history'' where
  same := by
    rw [h'.same, h.same]
  sublist := h'.sublist.trans h.sublist
  newest := h'.newest.trans h.newest

/-- Every history of the new store is one of the old store's, trimmed. -/
structure Trimmed (store store' : TimedHistories) : Prop where
  nextSeq : store'.nextSeq = store.nextSeq
  nextIncarnation : store'.nextIncarnation = store.nextIncarnation
  histories : ∀ key history', Pairs.get store'.histories key = some history' →
    ∃ history, Pairs.get store.histories key = some history ∧ Trims history history'

theorem Trimmed.refl (store : TimedHistories) : Trimmed store store :=
  ⟨rfl, rfl, fun _ history hget => ⟨history, hget, .refl history⟩⟩

theorem Trimmed.trans {store'' : TimedHistories} (h : Trimmed store store')
    (h' : Trimmed store' store'') : Trimmed store store'' where
  nextSeq := h'.nextSeq.trans h.nextSeq
  nextIncarnation := h'.nextIncarnation.trans h.nextIncarnation
  histories := by
    intro key history'' hget''
    obtain ⟨history', hget', htrims'⟩ := h'.histories key history'' hget''
    obtain ⟨history, hget, htrims⟩ := h.histories key history' hget'
    exact ⟨history, hget, htrims.trans htrims'⟩

theorem Trimmed.of_eq (hseq : store'.nextSeq = store.nextSeq)
    (hincarnation : store'.nextIncarnation = store.nextIncarnation)
    (hhistories : store'.histories = store.histories) : Trimmed store store' :=
  ⟨hseq, hincarnation, fun _ history hget => ⟨history, hhistories ▸ hget, .refl history⟩⟩

theorem release_next (store : TimedHistories) (key : CovSubscriptionKey) (released : Held) :
    (store.release key released).nextSeq = store.nextSeq ∧
      (store.release key released).nextIncarnation = store.nextIncarnation := by
  unfold TimedHistories.release
  split
  · exact ⟨rfl, rfl⟩
  · split
    · exact ⟨rfl, rfl⟩
    · exact ⟨rfl, rfl⟩

theorem charge_next (store : TimedHistories) (key : CovSubscriptionKey) (added : Held) :
    (store.charge key added).nextSeq = store.nextSeq ∧
      (store.charge key added).nextIncarnation = store.nextIncarnation := by
  unfold TimedHistories.charge
  split
  · exact ⟨rfl, rfl⟩
  · split_ifs
    · exact ⟨rfl, rfl⟩
    · exact ⟨rfl, rfl⟩

theorem trimmed_evict {victim : CovSubscriptionKey} {at_ : ℕ}
    (hget : Pairs.get store.histories victim = some history)
    (hevictable : evictable history = some at_) : Trimmed store (store.evict victim at_) := by
  have hhistories := evict_histories hget hevictable
  obtain ⟨change, hchange, hlt, -⟩ := evictable_some hevictable
  refine ⟨?_, ?_, ?_⟩
  · unfold TimedHistories.evict
    rw [hget]
    dsimp only
    rw [hchange]
    exact (release_next _ _ _).1
  · unfold TimedHistories.evict
    rw [hget]
    dsimp only
    rw [hchange]
    exact (release_next _ _ _).2
  · intro other found hfound
    rw [hhistories, get_setHistory hget] at hfound
    by_cases hsame : other = victim
    · rw [if_pos hsame] at hfound
      cases hfound
      have hspares := sparesIn_eraseIdx hevictable
      exact ⟨history, hsame ▸ hget, rfl, hspares.sublist, hspares.newest⟩
    · rw [if_neg hsame] at hfound
      exact ⟨found, hfound, .refl found⟩

theorem trimmed_evictFrom {context : MultipleContextKey} {terms : ContextTerms}
    (hkey : key.multipleContext = some context) (left : ℕ) : ∀ {store : TimedHistories},
      Sound store → Trimmed store (evictFrom key context terms left store) := by
  induction left with
  | zero => exact fun _ => .refl _
  | succ left ih =>
    intro store h
    unfold evictFrom
    split_ifs
    · exact .refl _
    · split
      · exact .refl _
      · rename_i victim at_ hvictim
        obtain ⟨hcontext, history, hget, hevictable⟩ := victim_some h.distinct hkey hvictim
        exact (trimmed_evict hget hevictable).trans
          (ih (evicts_evict h hcontext hget hevictable).1.sound)

theorem trimmed_enforceBound (h : Sound store) (key : CovSubscriptionKey) :
    Trimmed store (store.enforceBound key) := by
  unfold enforceBound
  split
  · exact .refl _
  · split
    · exact .refl _
    · exact trimmed_evictFrom ‹_› _ h

/-! ## What insertion adds -/

/-- Changes as a history keeps them, none of them a continued part. -/
def Whole (changes : List TimedChange) : Prop := ∀ change ∈ changes, change.continues = false

variable {entries : List TimedChange}

theorem insertOne_seqs (horder : InOrder entries) (hwhole : Whole entries) (change : TimedChange) :
    (∀ seq, seq ∈ (insertOne entries change).2.map TimedChange.seq ↔
        seq = change.seq ∨ seq ∈ entries.map TimedChange.seq) ∧
      Whole (insertOne entries change).2 := by
  rcases insertOne_cases horder change with ⟨front, entry, back, rfl, hsame, hinsert⟩ |
    ⟨front, back, rfl, -, -, hinsert⟩
  · obtain ⟨hseq, -, -⟩ := rejoin_sums entry { change with continues := false }
    rw [hinsert]
    constructor
    · intro seq
      rw [List.map_append, List.map_append, List.map_cons, List.map_cons, hseq, ← hsame]
      constructor
      · exact Or.inr
      · rintro (rfl | hmem)
        · exact List.mem_append_right _ List.mem_cons_self
        · exact hmem
    · intro other hother
      rcases List.mem_append.mp hother with hother | hother
      · exact hwhole other (List.mem_append_left _ hother)
      · rcases List.mem_cons.mp hother with rfl | hother
        · exact hwhole entry (List.mem_append_right _ List.mem_cons_self)
        · exact hwhole other (List.mem_append_right _ (List.mem_cons_of_mem _ hother))
  · rw [hinsert]
    constructor
    · intro seq
      rw [List.map_append, List.map_append, List.map_cons, List.mem_append, List.mem_cons,
        List.mem_append]
      exact or_left_comm
    · intro other hother
      rcases List.mem_append.mp hother with hother | hother
      · exact hwhole other (List.mem_append_left _ hother)
      · rcases List.mem_cons.mp hother with rfl | hother
        · rfl
        · exact hwhole other (List.mem_append_right _ hother)

theorem insertAll_seqs (changes : List TimedChange) : ∀ {entries : List TimedChange} {added : Held},
    InOrder entries → Whole entries →
    (∀ seq, seq ∈ (insertAll added entries changes).2.map TimedChange.seq ↔
        seq ∈ entries.map TimedChange.seq ∨ seq ∈ changes.map TimedChange.seq) ∧
      Whole (insertAll added entries changes).2 := by
  induction changes with
  | nil =>
    intro entries added horder hwhole
    exact ⟨fun seq => (or_iff_left List.not_mem_nil).symm, hwhole⟩
  | cons change changes ih =>
    intro entries added horder hwhole
    obtain ⟨hone, hwholeOne⟩ := insertOne_seqs horder hwhole change
    obtain ⟨hall, hwholeAll⟩ := @ih (insertOne entries change).2
      (added.grow (insertOne entries change).1) (insertOne_sums horder change).1 hwholeOne
    refine ⟨?_, hwholeAll⟩
    intro seq
    unfold insertAll
    rw [hall, hone, List.map_cons, List.mem_cons]
    tauto

/-! ## The invariant -/

/-- What holds of a history between two operations. -/
structure HistoryOk (store : TimedHistories) (history : TimedHistory) : Prop where
  whole : Whole history.entries
  bounds : ∀ change ∈ history.entries,
    history.committed ≤ change.seq ∧ change.seq ≤ history.latest
  committed : history.committed ≤ history.latest
  latest : history.latest < store.nextSeq
  incarnation : 1 ≤ history.incarnation ∧ history.incarnation < store.nextIncarnation

/-- What holds of the changes a claim has of one reference. -/
structure PartOk (store : TimedHistories) (part : CovSubscriptionKey × ℕ × List TimedChange) :
    Prop where
  nonempty : part.2.2 ≠ []
  order : InOrder part.2.2
  shape : Whole part.2.2 ∨ ∃ change, part.2.2 = [change]
  fresh : ∀ change ∈ part.2.2, change.seq < store.nextSeq
  incarnation : part.2.1 < store.nextIncarnation
  live : ∀ history, Pairs.get store.histories part.1 = some history →
    history.incarnation = part.2.1 → ∀ change ∈ part.2.2, change.seq ≤ history.latest

/-- A claim has the change, of the reference's history with that incarnation. -/
def Claimed (parts : Parts) (key : CovSubscriptionKey) (incarnation : ℕ) (change : TimedChange) :
    Prop :=
  ∃ part ∈ parts, part.1 = key ∧ part.2.1 = incarnation ∧ change ∈ part.2.2

/-- No claim has changes of the reference's history with that incarnation. -/
def Unclaimed (parts : Parts) (key : CovSubscriptionKey) (incarnation : ℕ) : Prop :=
  ∀ part ∈ parts, part.1 = key → part.2.1 ≠ incarnation

/-- The end of a reference's newest change leaves no older one behind. -/
inductive Settled (parts : Parts) (key : CovSubscriptionKey) (history : TimedHistory) : Prop where
  | delivered (hcommitted : history.latest ≤ history.committed)
  | pending (change : TimedChange) (hmem : change ∈ history.entries)
      (hnewest : change.seq = history.latest)
  | claimed (change : TimedChange) (hclaimed : Claimed parts key history.incarnation change)
      (hnewest : change.seq = history.latest) (hwhole : change.continues = false)
  | idle (hempty : history.entries = []) (hunclaimed : Unclaimed parts key history.incarnation)

structure Kept (store : TimedHistories) (parts : Parts) : Prop where
  sound : Sound store
  next : 1 ≤ store.nextIncarnation ∧ 1 ≤ store.nextSeq
  histories : ∀ key history, Pairs.get store.histories key = some history → HistoryOk store history
  claims : ∀ part ∈ parts, PartOk store part
  settled : ∀ key history, Pairs.get store.histories key = some history → Settled parts key history

theorem newest_getLast (horder : InOrder entries) {change : TimedChange} (hmem : change ∈ entries) :
    ∃ last, entries.getLast? = some last ∧ last ∈ entries ∧ change.seq ≤ last.seq := by
  have hsome : entries ≠ [] := List.ne_nil_of_mem hmem
  refine ⟨entries.getLast hsome, List.getLast?_eq_some_getLast hsome, List.getLast_mem hsome, ?_⟩
  by_cases hlast : change = entries.getLast hsome
  · rw [← hlast]
  · rw [← List.dropLast_append_getLast hsome] at horder hmem
    rcases List.mem_append.mp hmem with hfront | hback
    · exact ((inOrder_append.mp horder).2.2 change hfront _ (List.mem_singleton_self _)).le
    · exact absurd (List.mem_singleton.mp hback) hlast

theorem HistoryOk.trims (h : HistoryOk store history) (htrims : Trims history history')
    (htrimmed : Trimmed store store') : HistoryOk store' history' := by
  obtain ⟨hwhole, hbounds, hcommitted, hlatest, hincarnation⟩ := h
  rw [htrims.same]
  refine ⟨?_, ?_, hcommitted, ?_, ?_⟩
  · exact fun change hmem => hwhole change (htrims.sublist.subset hmem)
  · exact fun change hmem => hbounds change (htrims.sublist.subset hmem)
  · rw [htrimmed.nextSeq]
    exact hlatest
  · rw [htrimmed.nextIncarnation]
    exact hincarnation

theorem Settled.trims (h : Settled parts key history) (hok : HistoryOk store history)
    (horder : InOrder history.entries) (htrims : Trims history history') :
    Settled parts key history' := by
  rw [htrims.same]
  cases h with
  | delivered hcommitted => exact .delivered hcommitted
  | pending change hmem hnewest =>
    obtain ⟨last, hlast, hmemLast, hle⟩ := newest_getLast horder hmem
    refine .pending last (List.mem_of_getLast? (htrims.newest.trans hlast)) ?_
    have hbound := (hok.bounds last hmemLast).2
    show last.seq = history.latest
    omega
  | claimed change hclaimed hnewest hwhole => exact .claimed change hclaimed hnewest hwhole
  | idle hempty hunclaimed =>
    have hsublist := htrims.sublist
    rw [hempty] at hsublist
    exact .idle (List.sublist_nil.mp hsublist) hunclaimed

theorem Kept.trimmed (h : Kept store parts) (hsound : Sound store')
    (htrimmed : Trimmed store store') : Kept store' parts where
  sound := hsound
  next := by rw [htrimmed.nextIncarnation, htrimmed.nextSeq]; exact h.next
  histories := by
    intro key history' hget'
    obtain ⟨history, hget, htrims⟩ := htrimmed.histories key history' hget'
    exact (h.histories key history hget).trims htrims htrimmed
  claims := by
    intro part hpart
    obtain ⟨hnonempty, horder, hshape, hfresh, hincarnation, hlive⟩ := h.claims part hpart
    refine ⟨hnonempty, horder, hshape, htrimmed.nextSeq ▸ hfresh, htrimmed.nextIncarnation ▸ hincarnation, ?_⟩
    intro history' hget' hsame
    obtain ⟨history, hget, htrims⟩ := htrimmed.histories part.1 history' hget'
    rw [htrims.same] at hsame ⊢
    exact hlive history hget hsame
  settled := by
    intro key history' hget'
    obtain ⟨history, hget, htrims⟩ := htrimmed.histories key history' hget'
    exact (h.settled key history hget).trims (h.histories key history hget)
      (h.sound.ordered key history hget) htrims

/-! ## Writing one history -/

variable {part : CovSubscriptionKey × ℕ × List TimedChange}

theorem PartOk.later (h : PartOk store part) (hseq : store.nextSeq ≤ store'.nextSeq)
    (hincarnation : store.nextIncarnation ≤ store'.nextIncarnation)
    (hlive : ∀ history', Pairs.get store'.histories part.1 = some history' →
      history'.incarnation = part.2.1 → ∃ history, Pairs.get store.histories part.1 = some history ∧
        history.incarnation = part.2.1 ∧ history.latest ≤ history'.latest) :
    PartOk store' part := by
  refine ⟨h.nonempty, h.order, h.shape, ?_, Nat.lt_of_lt_of_le h.incarnation hincarnation, ?_⟩
  · exact fun change hmem => Nat.lt_of_lt_of_le (h.fresh change hmem) hseq
  · intro history' hget' hsame' change hmem
    obtain ⟨history, hget, hsame, hle⟩ := hlive history' hget' hsame'
    exact (h.live history hget hsame change hmem).trans hle

theorem HistoryOk.later (h : HistoryOk store history) (hseq : store.nextSeq ≤ store'.nextSeq)
    (hincarnation : store.nextIncarnation ≤ store'.nextIncarnation) : HistoryOk store' history :=
  ⟨h.whole, h.bounds, h.committed, Nat.lt_of_lt_of_le h.latest hseq, h.incarnation.1,
    Nat.lt_of_lt_of_le h.incarnation.2 hincarnation⟩

theorem Settled.others (h : Settled parts key history)
    (hsame : ∀ part : CovSubscriptionKey × ℕ × List TimedChange, part.1 = key →
      part.2.1 = history.incarnation → (part ∈ parts' ↔ part ∈ parts)) :
    Settled parts' key history := by
  cases h with
  | delivered hcommitted => exact .delivered hcommitted
  | pending change hmem hnewest => exact .pending change hmem hnewest
  | claimed change hclaimed hnewest hwhole =>
    obtain ⟨part, hpart, hkey, hincarnation, hmem⟩ := hclaimed
    exact .claimed change ⟨part, (hsame part hkey hincarnation).mpr hpart, hkey, hincarnation, hmem⟩
      hnewest hwhole
  | idle hempty hunclaimed =>
    refine .idle hempty ?_
    intro part hpart hkey hincarnation
    exact hunclaimed part ((hsame part hkey hincarnation).mp hpart) hkey hincarnation

/-- One history is written anew, and the claims of it may change. -/
theorem Kept.write (h : Kept store parts) (hget : Pairs.get store.histories key = some history)
    (history' : TimedHistory)
    (hsound : Sound store')
    (hhistories : ∀ other, Pairs.get store'.histories other
      = if other = key then some history' else Pairs.get store.histories other)
    (hseq : store.nextSeq ≤ store'.nextSeq)
    (hincarnation : store.nextIncarnation ≤ store'.nextIncarnation)
    (hsame : history'.incarnation = history.incarnation)
    (hlatest : history.latest ≤ history'.latest) (hok : HistoryOk store' history')
    (hclaims : ∀ part ∈ parts', part ∈ parts ∨ PartOk store' part)
    (hothers : ∀ part : CovSubscriptionKey × ℕ × List TimedChange, part.1 ≠ key →
      (part ∈ parts' ↔ part ∈ parts))
    (hsettled : Settled parts' key history') : Kept store' parts' where
  sound := hsound
  next := ⟨h.next.1.trans hincarnation, h.next.2.trans hseq⟩
  histories := by
    intro other found hfound
    rw [hhistories] at hfound
    by_cases hother : other = key
    · rw [if_pos hother] at hfound
      cases hfound
      exact hok
    · rw [if_neg hother] at hfound
      exact (h.histories other found hfound).later hseq hincarnation
  claims := by
    intro part hpart
    rcases hclaims part hpart with hold | hnew
    · refine (h.claims part hold).later hseq hincarnation ?_
      intro found hfound hincarnations
      rw [hhistories] at hfound
      by_cases hother : part.1 = key
      · rw [if_pos hother] at hfound
        cases hfound
        exact ⟨history, hother ▸ hget, hsame.symm.trans hincarnations, hlatest⟩
      · rw [if_neg hother] at hfound
        exact ⟨found, hfound, hincarnations, le_rfl⟩
    · exact hnew
  settled := by
    intro other found hfound
    rw [hhistories] at hfound
    by_cases hother : other = key
    · rw [if_pos hother] at hfound
      cases hfound
      rw [hother]
      exact hsettled
    · rw [if_neg hother] at hfound
      refine (h.settled other found hfound).others ?_
      intro part hkey _
      exact hothers part fun hsame => hother (hkey.symm.trans hsame)

/-! ## The end of a claim's changes -/

variable {incarnation : ℕ}

theorem byIncarnation_iff :
    store.byIncarnation key incarnation = some history ↔
      Pairs.get store.histories key = some history ∧ history.incarnation = incarnation := by
  unfold TimedHistories.byIncarnation
  rw [Option.filter_eq_some_iff, beq_iff_eq]

theorem Kept.forget (h : Kept store (part :: parts))
    (hgone : store.byIncarnation part.1 part.2.1 = none) :
    Kept store parts where
  sound := h.sound
  next := h.next
  histories := h.histories
  claims := fun other hother => h.claims other (List.mem_cons_of_mem _ hother)
  settled := by
    intro key history hget
    refine (h.settled key history hget).others ?_
    rintro other hkey hincarnation
    refine ⟨List.mem_cons_of_mem _, fun hmem => (List.mem_cons.mp hmem).resolve_left ?_⟩
    rintro rfl
    have hlive := byIncarnation_iff.mpr ⟨hkey ▸ hget, hincarnation.symm⟩
    rw [hgone] at hlive
    cases hlive

/-- Changes of a history that lives leave it settled once its newest is, if they had it. -/
theorem Settled.leave (h : Settled (part :: parts) key history) (hkey : part.1 = key)
    (hincarnation : part.2.1 = history.incarnation)
    (hnewest : ∀ change ∈ part.2.2, change.seq = history.latest → change.continues = false →
      Settled parts key history') (hcommitted : history.latest ≤ history.committed →
      Settled parts key history')
    (hpending : ∀ change ∈ history.entries, change.seq = history.latest →
      Settled parts key history')
    (hclaimed : ∀ change, Claimed parts key history.incarnation change →
      change.seq = history.latest → change.continues = false → Settled parts key history') :
    Settled parts key history' := by
  cases h with
  | delivered hdelivered => exact hcommitted hdelivered
  | pending change hmem hseq => exact hpending change hmem hseq
  | claimed change hclaim hseq hwhole =>
    obtain ⟨other, hother, hkey', hincarnation', hmem⟩ := hclaim
    rcases List.mem_cons.mp hother with rfl | hother
    · exact hnewest change hmem hseq hwhole
    · exact hclaimed change ⟨other, hother, hkey', hincarnation', hmem⟩ hseq hwhole
  | idle hempty hunclaimed =>
    exact absurd hincarnation (hunclaimed part List.mem_cons_self hkey)

theorem Kept.fold {f : TimedHistories → CovSubscriptionKey × ℕ × List TimedChange → TimedHistories}
    (hstep : ∀ {store part parts}, Kept store (part :: parts) → Kept (f store part) parts)
    (ended : Parts) : ∀ {store : TimedHistories}, Kept store (ended ++ parts) →
      Kept (ended.foldl f store) parts := by
  induction ended with
  | nil => exact fun h => h
  | cons part ended ih => exact fun h => ih (hstep h)

theorem commit_histories (seq : ℕ) (hlive : store.byIncarnation key incarnation = some history) :
    (store.commit key incarnation seq).histories = (store.setHistory key { history with
        committed := max history.committed seq
        entries := history.entries.dropWhile fun change =>
          change.seq < max history.committed seq }).histories ∧
      (store.commit key incarnation seq).nextSeq = store.nextSeq ∧
      (store.commit key incarnation seq).nextIncarnation = store.nextIncarnation := by
  unfold TimedHistories.commit
  rw [hlive]
  dsimp only
  split_ifs
  · exact ⟨rfl, rfl, rfl⟩
  · exact ⟨release_histories _ _ _, release_next _ _ _⟩

variable {last : TimedChange}

/-- The newest whole change of a claim is delivered, and the older ones with it. -/
theorem Kept.commitSeq (h : Kept store (part :: parts)) (hlast : last ∈ part.2.2)
    (hwhole : ∀ change ∈ part.2.2, change.continues = false → change.seq ≤ last.seq) :
    Kept (store.commit part.1 part.2.1 last.seq) parts := by
  cases hlive : store.byIncarnation part.1 part.2.1 with
  | none =>
    have hsame : store.commit part.1 part.2.1 last.seq = store := by
      unfold TimedHistories.commit
      rw [hlive]
    rw [hsame]
    exact h.forget hlive
  | some history =>
    obtain ⟨hget, hincarnation⟩ := byIncarnation_iff.mp hlive
    obtain ⟨hhistories, hseq, hnext⟩ := commit_histories last.seq hlive
    have hok := h.histories part.1 history hget
    have horder := h.sound.ordered part.1 history hget
    have hnewest := (h.claims part List.mem_cons_self).live history hget hincarnation last hlast
    obtain ⟨-, hkeeps⟩ := split_order horder (max history.committed last.seq)
    have hwritten := get_setHistory hget { history with
      committed := max history.committed last.seq
      entries := history.entries.dropWhile fun change =>
        change.seq < max history.committed last.seq }
    rw [← hhistories] at hwritten
    refine h.write hget _ (sound_commit h.sound _ _ _) hwritten hseq.ge hnext.ge rfl le_rfl
      ⟨?_, ?_, max_le hok.committed hnewest, hseq ▸ hok.latest, hok.incarnation.1,
        hnext ▸ hok.incarnation.2⟩ ?_ ?_ ?_
    · exact fun change hmem => hok.whole change ((List.dropWhile_sublist _).subset hmem)
    · intro change hmem
      exact ⟨hkeeps change hmem, (hok.bounds change ((List.dropWhile_sublist _).subset hmem)).2⟩
    · exact fun other hother => .inl (List.mem_cons_of_mem _ hother)
    · intro other hother
      refine ⟨List.mem_cons_of_mem _, fun hmem => (List.mem_cons.mp hmem).resolve_left ?_⟩
      rintro rfl
      exact hother rfl
    · refine (h.settled part.1 history hget).leave rfl hincarnation.symm ?_ ?_ ?_ ?_
      · intro change hmem hchange hcontinues
        have hle := hwhole change hmem hcontinues
        exact .delivered (by dsimp only; omega)
      · intro hcommitted
        exact .delivered (by dsimp only; omega)
      · intro change hmem hchange
        refine .pending change ?_ hchange
        have hsplit := List.takeWhile_append_dropWhile
          (p := fun change : TimedChange => decide (change.seq < max history.committed last.seq))
          (l := history.entries)
        rw [← hsplit] at hmem
        rcases List.mem_append.mp hmem with hstale | hkept
        · have hbelow := (split_order horder (max history.committed last.seq)).1 change hstale
          have hcommitted := (hok.bounds change ((List.takeWhile_sublist _).subset hstale)).1
          omega
        · exact hkept
      · exact fun change hclaimed hchange hcontinues => .claimed change hclaimed hchange hcontinues

theorem Settled.stamped (h : Settled parts key history) (generation seq : ℕ) :
    Settled parts key { history with generation := generation, inDelivery := seq } := by
  cases h with
  | delivered hcommitted => exact .delivered hcommitted
  | pending change hmem hnewest => exact .pending change hmem hnewest
  | claimed change hclaimed hnewest hwhole => exact .claimed change hclaimed hnewest hwhole
  | idle hempty hunclaimed => exact .idle hempty hunclaimed

theorem Kept.deliverByValue (h : Kept store parts) (key : CovSubscriptionKey)
    (incarnation seq : ℕ) : Kept (store.deliverByValue key incarnation seq) parts := by
  unfold TimedHistories.deliverByValue
  cases hlive : store.byIncarnation key incarnation with
  | none => exact h
  | some history =>
    obtain ⟨hget, -⟩ := byIncarnation_iff.mp hlive
    have hok := h.histories key history hget
    exact h.write hget _ (h.sound.setHistory hget rfl) (get_setHistory hget _) le_rfl le_rfl rfl
      le_rfl ⟨hok.whole, hok.bounds, hok.committed, hok.latest, hok.incarnation⟩ (fun _ hpart => .inl hpart)
      (fun _ _ => Iff.rfl) ((h.settled key history hget).stamped history.generation seq)

theorem Kept.continued (h : Kept store (part :: parts))
    (hnone : ∀ change ∈ part.2.2, change.continues = true) :
    Kept store parts where
  sound := h.sound
  next := h.next
  histories := h.histories
  claims := fun other hother => h.claims other (List.mem_cons_of_mem _ hother)
  settled := by
    intro key history hget
    cases h.settled key history hget with
    | delivered hcommitted => exact .delivered hcommitted
    | pending change hmem hnewest => exact .pending change hmem hnewest
    | claimed change hclaimed hnewest hwhole =>
      obtain ⟨other, hother, hkey, hincarnation, hmem⟩ := hclaimed
      rcases List.mem_cons.mp hother with rfl | hother
      · rw [hnone change hmem] at hwhole
        cases hwhole
      · exact .claimed change ⟨other, hother, hkey, hincarnation, hmem⟩ hnewest hwhole
    | idle hempty hunclaimed =>
      exact .idle hempty fun other hother => hunclaimed other (List.mem_cons_of_mem _ hother)

theorem last_whole {changes : List TimedChange} (horder : InOrder changes)
    (hfound : (changes.reverse.find? fun change => !change.continues) = some last) :
    last ∈ changes ∧ ∀ change ∈ changes, change.continues = false → change.seq ≤ last.seq := by
  obtain ⟨-, after, before, hsplit, hafter⟩ := List.find?_eq_some_iff_append.mp hfound
  have hchanges : changes = before.reverse ++ last :: after.reverse := by
    rw [← List.reverse_reverse changes, hsplit, List.reverse_append, List.reverse_cons,
      List.append_assoc]
    rfl
  refine ⟨hchanges ▸ List.mem_append_right _ List.mem_cons_self, ?_⟩
  intro change hmem hcontinues
  rw [hchanges] at hmem horder
  rcases List.mem_append.mp hmem with hbefore | hrest
  · exact ((inOrder_append.mp horder).2.2 change hbefore last List.mem_cons_self).le
  · rcases List.mem_cons.mp hrest with rfl | hlater
    · exact le_rfl
    · have hcontinued := hafter change (List.mem_reverse.mp hlater)
      rw [hcontinues] at hcontinued
      exact absurd hcontinued (by decide)

theorem Kept.commitClaim {claim : TimedClaim} (h : Kept store (claim.changes ++ parts)) :
    Kept (claim.commit store) parts := by
  refine Kept.fold ?_ claim.changes h
  intro store part parts h
  cases hfound : part.2.2.reverse.find? fun change => !change.continues with
  | some last =>
    obtain ⟨hmem, hwhole⟩ := last_whole (h.claims part List.mem_cons_self).order hfound
    exact h.commitSeq hmem hwhole
  | none =>
    have hnone : ∀ change ∈ part.2.2, change.continues = true := by
      intro change hmem
      have hcontinued := List.find?_eq_none.mp hfound change (List.mem_reverse.mpr hmem)
      rw [Bool.not_eq_true', Bool.not_eq_false] at hcontinued
      exact hcontinued
    cases hpart : part.2.2.getLast? with
    | some change => exact (h.continued hnone).deliverByValue _ _ change.seq
    | none =>
      exact absurd (List.getLast?_eq_none_iff.mp hpart) (h.claims part List.mem_cons_self).nonempty

end RustyBacnet.Cov
