import RustyBacnet.Cov.TimedKept

/-!
# Changes into and out of histories

Returned and captured changes are put into a history, a report takes them out of one, and references
are published and removed: each keeps every pending change found (`Kept`).
-/

namespace RustyBacnet.Cov

open TimedHistories

variable {store store' : TimedHistories} {key : CovSubscriptionKey}
  {history history' : TimedHistory} {parts parts' : Parts}

/-! ## Changes that come back or come in -/

variable {generation : ℕ} {evict : Bool}

/-- Changes put into a history, from a store in which only that history differs. -/
theorem Kept.insert (h : Kept store parts) (hget : Pairs.get store.histories key = some history)
    (history' : TimedHistory) {middle : TimedHistories} (hsound : Sound middle)
    (hmiddle : ∀ other, Pairs.get middle.histories other
      = if other = key then some history' else Pairs.get store.histories other)
    (hseq : store.nextSeq ≤ middle.nextSeq) (hnext : store.nextIncarnation ≤ middle.nextIncarnation)
    (hgeneration : history'.generation = generation)
    (hsame : history'.incarnation = history.incarnation)
    (hlatest : history.latest ≤ history'.latest) (hok : HistoryOk middle history')
    {changes : List TimedChange} (hbounds : ∀ change ∈ changes,
      history'.committed ≤ change.seq ∧ change.seq ≤ history'.latest)
    (hclaims : ∀ part ∈ parts', part ∈ parts)
    (hothers : ∀ part : CovSubscriptionKey × ℕ × List TimedChange, part.1 ≠ key →
      (part ∈ parts' ↔ part ∈ parts))
    (hsettled : ∀ entries, (∀ seq, seq ∈ entries.map TimedChange.seq ↔
        seq ∈ history'.entries.map TimedChange.seq ∨ seq ∈ changes.map TimedChange.seq) →
      Settled parts' key { history' with entries := entries }) :
    Kept (middle.insertOrdered key generation changes evict) parts' := by
  have hgetMiddle : Pairs.get middle.histories key = some history' := by
    rw [hmiddle, if_pos rfl]
  have hhistory : middle.history key generation = some history' := by
    unfold TimedHistories.history
    rw [hgetMiddle]
    exact Option.filter_eq_some_iff.mpr ⟨rfl, beq_iff_eq.mpr hgeneration⟩
  obtain ⟨hseqs, hwhole⟩ := @insertAll_seqs changes history'.entries Held.zero
    (hsound.ordered key history' hgetMiddle) hok.whole
  unfold insertOrdered
  rw [hhistory]
  dsimp only
  generalize hinserted : insertAll Held.zero history'.entries changes = result at hseqs hwhole
  obtain ⟨added, entries⟩ := result
  dsimp only at hseqs hwhole ⊢
  obtain ⟨hseqCharge, hnextCharge⟩ :=
    charge_next (middle.setHistory key { history' with entries := entries }) key added
  have hwritten : Kept
      ((middle.setHistory key { history' with entries := entries }).charge key added) parts' := by
    refine h.write hget { history' with entries := entries }
      (hsound.take hgetMiddle changes hinserted) ?_ (hseqCharge.symm ▸ hseq)
      (hnextCharge.symm ▸ hnext) hsame hlatest ⟨hwhole, ?_, hok.committed,
        hseqCharge.symm ▸ hok.latest, hok.incarnation.1, hnextCharge.symm ▸ hok.incarnation.2⟩
      (fun part hpart => .inl (hclaims part hpart)) hothers (hsettled entries hseqs)
    · intro other
      rw [charge_histories, get_setHistory hgetMiddle, hmiddle]
      by_cases hother : other = key
      · rw [if_pos hother, if_pos hother]
      · rw [if_neg hother, if_neg hother, if_neg hother]
    · intro change hmem
      rcases (hseqs change.seq).mp (List.mem_map_of_mem hmem) with hold | hnew
      · obtain ⟨found, hfound, hfoundSeq⟩ := List.mem_map.mp hold
        rw [← hfoundSeq]
        exact hok.bounds found hfound
      · obtain ⟨found, hfound, hfoundSeq⟩ := List.mem_map.mp hnew
        rw [← hfoundSeq]
        exact hbounds found hfound
  split_ifs
  · exact hwritten.trimmed (inserts_enforceBound hwritten.sound).sound
      (trimmed_enforceBound hwritten.sound key)
  · exact hwritten

theorem Kept.dropped (h : Kept store parts) (key : CovSubscriptionKey) (count : ℕ)
    (reason : DropReason) : Kept (store.dropped key count reason) parts :=
  h.trimmed (h.sound.dropped key count reason) (.of_eq rfl rfl rfl)

variable {part : CovSubscriptionKey × ℕ × List TimedChange}

/-- Returned changes are pending again, or older than what was delivered. -/
theorem Kept.requeue (h : Kept store (part :: parts)) :
    Kept (store.requeue part.1 part.2.1 part.2.2 evict) parts := by
  unfold TimedHistories.requeue
  cases hlive : store.byIncarnation part.1 part.2.1 with
  | none => exact h.forget hlive
  | some history =>
    dsimp only
    obtain ⟨middle, hmiddle⟩ : ∃ middle, middle = if (part.2.2.filter fun change =>
          ¬change.seq > history.committed).isEmpty then store
        else store.dropped part.1 (part.2.2.filter fun change =>
          ¬change.seq > history.committed).length .superseded := ⟨_, rfl⟩
    rw [← hmiddle]
    have hsame : Kept middle (part :: parts) ∧ middle.histories = store.histories := by
      rw [hmiddle]
      split_ifs
      · exact ⟨h, rfl⟩
      · exact ⟨h.dropped _ _ _, rfl⟩
    obtain ⟨hkept, hhistories⟩ := hsame
    obtain ⟨hget, hincarnation⟩ := byIncarnation_iff.mp hlive
    rw [← hhistories] at hget
    have hlive := (hkept.claims part List.mem_cons_self).live history hget hincarnation
    refine hkept.insert hget _ hkept.sound ?_ le_rfl le_rfl rfl rfl le_rfl
      (hkept.histories part.1 history hget) ?_ ?_ ?_ ?_
    · intro other
      by_cases hother : other = part.1
      · rw [if_pos hother, hother, hget]
      · rw [if_neg hother]
    · intro change hmem
      obtain ⟨hmem, hnewer⟩ := List.mem_filter.mp hmem
      exact ⟨(of_decide_eq_true hnewer).le, hlive change hmem⟩
    · exact fun other hother => List.mem_cons_of_mem _ hother
    · intro other hother
      refine ⟨List.mem_cons_of_mem _, fun hmem => (List.mem_cons.mp hmem).resolve_left ?_⟩
      rintro rfl
      exact hother rfl
    · intro entries hseqs
      -- the newest change's sequence among the entries is the newest change pending
      have hpending : history.latest ∈ entries.map TimedChange.seq →
          Settled parts part.1 { history with entries := entries } := by
        intro hmem
        obtain ⟨change, hchange, hseq⟩ := List.mem_map.mp hmem
        exact .pending change hchange hseq
      refine (hkept.settled part.1 history hget).leave rfl hincarnation.symm ?_ ?_ ?_ ?_
      · intro change hmem hseq _
        by_cases hcommitted : history.latest ≤ history.committed
        · exact .delivered hcommitted
        · refine hpending ((hseqs _).mpr (.inr (List.mem_map.mpr ⟨change, ?_, hseq⟩)))
          exact List.mem_filter.mpr ⟨hmem, decide_eq_true (by omega)⟩
      · exact fun hcommitted => .delivered hcommitted
      · intro change hmem hseq
        exact hpending ((hseqs _).mpr (.inl (List.mem_map.mpr ⟨change, hmem, hseq⟩)))
      · exact fun change hclaimed hseq hwhole => .claimed change hclaimed hseq hwhole

theorem Kept.dropClaim {claim : TimedClaim} (h : Kept store (claim.changes ++ parts)) :
    Kept (claim.drop store) parts := by
  exact Kept.fold (fun h => h.requeue) claim.changes h

theorem Kept.goingOut (h : Kept store parts) (claim : TimedClaim) :
    Kept (claim.goingOut store) parts := by
  refine Runs.invariant (fun store => Kept store parts) ?_ claim.changes h
  intro store part h
  split
  · exact h.deliverByValue _ _ _
  · exact h

theorem adopt_live (change : TimedChange) (hlive : store.history key generation = some history) :
    store.adopt key generation change = ({ change with seq := store.nextSeq },
      TimedHistories.setHistory { store with nextSeq := store.nextSeq + 1 } key
        { history with latest := store.nextSeq }) := by
  unfold TimedHistories.adopt
  dsimp only
  rw [show TimedHistories.history { store with nextSeq := store.nextSeq + 1 } key generation
    = some history from hlive]

theorem HistoryOk.adopted (h : HistoryOk store history) {entries : List TimedChange}
    (hentries : ∀ change ∈ entries, change ∈ history.entries)
    (hseq : store'.nextSeq = store.nextSeq + 1)
    (hnext : store'.nextIncarnation = store.nextIncarnation) :
    HistoryOk store' { history with latest := store.nextSeq, entries := entries } := by
  refine ⟨?_, ?_, (h.committed.trans_lt h.latest).le, hseq ▸ Nat.lt_succ_self _,
    hnext ▸ h.incarnation⟩
  · exact fun change hmem => h.whole change (hentries change hmem)
  · intro change hmem
    have hbounds := h.bounds change (hentries change hmem)
    exact ⟨hbounds.1, (hbounds.2.trans_lt h.latest).le⟩

theorem Kept.push (h : Kept store parts) (key : CovSubscriptionKey) (generation : ℕ)
    (change : TimedChange) : Kept (store.push key generation change).2 parts := by
  unfold TimedHistories.push
  cases hhistory : store.history key generation with
  | none => exact h
  | some history =>
    have hget := history_get hhistory
    have hgeneration := (Option.filter_eq_some_iff.mp hhistory).2
    have hok := h.histories key history hget
    have hadopted := sound_adopt h.sound key generation change
    rw [adopt_live change hhistory] at hadopted
    dsimp only
    rw [adopt_live change hhistory]
    refine h.insert hget { history with latest := store.nextSeq } hadopted ?_
      (Nat.le_succ _) le_rfl (beq_iff_eq.mp hgeneration) rfl hok.latest.le
      (hok.adopted (fun _ hmem => hmem) rfl rfl) ?_ (fun _ hpart => hpart) (fun _ _ => Iff.rfl) ?_
    · exact @get_setHistory { store with nextSeq := store.nextSeq + 1 } _ _ hget _
    · intro found hfound
      rw [List.mem_singleton.mp hfound]
      exact ⟨(hok.committed.trans_lt hok.latest).le, le_rfl⟩
    · intro entries hseqs
      have hmem : store.nextSeq ∈ entries.map TimedChange.seq :=
        (hseqs _).mpr (.inr (List.mem_singleton_self _))
      obtain ⟨found, hfound, hseq⟩ := List.mem_map.mp hmem
      exact .pending found hfound hseq

/-! ## Draining into a claim -/

theorem drain_live (hlive : store.history key generation = some history) :
    (∃ newest, history.entries.getLast? = some newest ∧ newest.seq < history.latest ∧
      store.drain key generation = ((history.incarnation, []), store)) ∨
    ((∀ newest, history.entries.getLast? = some newest → history.latest ≤ newest.seq) ∧
      store.drain key generation = ((history.incarnation, history.entries),
        (store.setHistory key { history with entries := [] }).release key
          (Held.of history.entries))) := by
  unfold TimedHistories.drain
  rw [hlive]
  dsimp only
  cases hlast : history.entries.getLast? with
  | none =>
    refine .inr ⟨?_, ?_⟩
    · intro newest hnewest
      cases hnewest
    · rw [Option.any_none, if_neg Bool.false_ne_true]
  | some newest =>
    rw [Option.any_some]
    by_cases hheld : newest.seq < history.latest
    · rw [decide_eq_true hheld, if_pos rfl]
      exact .inl ⟨newest, rfl, hheld, rfl⟩
    · rw [decide_eq_false hheld, if_neg Bool.false_ne_true]
      refine .inr ⟨?_, rfl⟩
      intro found hfound
      cases hfound
      exact Nat.le_of_not_lt hheld

/-- What a report takes of a reference goes into a claim. -/
def takenParts (key : CovSubscriptionKey) (taken : ℕ × List TimedChange) : Parts :=
  if taken.2.isEmpty then [] else [(key, taken.1, taken.2)]

theorem takenParts_mem {taken : ℕ × List TimedChange} :
    part ∈ takenParts key taken ↔ part = (key, taken) ∧ taken.2 ≠ [] := by
  unfold takenParts
  by_cases hempty : taken.2 = []
  · rw [if_pos (List.isEmpty_iff.mpr hempty)]
    exact ⟨fun h => absurd h List.not_mem_nil, fun h => absurd hempty h.2⟩
  · rw [if_neg (by rwa [List.isEmpty_iff]), List.mem_singleton]
    exact ⟨fun h => ⟨h, hempty⟩, fun h => h.1⟩

theorem Kept.later (h : Kept store parts) (hsound : Sound store')
    (hhistories : store'.histories = store.histories) (hseq : store.nextSeq ≤ store'.nextSeq)
    (hnext : store.nextIncarnation ≤ store'.nextIncarnation) : Kept store' parts where
  sound := hsound
  next := ⟨h.next.1.trans hnext, h.next.2.trans hseq⟩
  histories := by
    intro key history hget
    rw [hhistories] at hget
    exact (h.histories key history hget).later hseq hnext
  claims := by
    intro part hpart
    refine (h.claims part hpart).later hseq hnext ?_
    intro history hget hsame
    rw [hhistories] at hget
    exact ⟨history, hget, hsame, le_rfl⟩
  settled := by
    intro key history hget
    rw [hhistories] at hget
    exact h.settled key history hget

theorem Kept.stray (h : Kept store parts) (hpart : PartOk store part)
    (hstray : ∀ history, Pairs.get store.histories part.1 = some history →
      history.incarnation ≠ part.2.1) : Kept store (part :: parts) where
  sound := h.sound
  next := h.next
  histories := h.histories
  claims := by
    intro other hother
    rcases List.mem_cons.mp hother with rfl | hother
    · exact hpart
    · exact h.claims other hother
  settled := by
    intro key history hget
    refine (h.settled key history hget).others ?_
    intro other hkey hincarnation
    refine ⟨fun hmem => (List.mem_cons.mp hmem).resolve_left ?_, List.mem_cons_of_mem _⟩
    rintro rfl
    exact hstray history (hkey ▸ hget) hincarnation.symm

/-- A reference's changes go into a claim: all of them, with the newest, or none. -/
theorem Kept.drain (h : Kept store parts) (key : CovSubscriptionKey) (generation : ℕ) :
    Kept (store.drain key generation).2
      (takenParts key (store.drain key generation).1 ++ parts) := by
  cases hhistory : store.history key generation with
  | none =>
    have hdrain : store.drain key generation = ((0, []), store) := by
      unfold TimedHistories.drain
      rw [hhistory]
    rw [hdrain]
    exact h
  | some history =>
    have hget := history_get hhistory
    have hok := h.histories key history hget
    have hsound := sound_drain h.sound key generation
    rcases drain_live hhistory with ⟨newest, -, -, hdrain⟩ | ⟨-, hdrain⟩
    · rw [hdrain]
      exact h
    · rw [hdrain] at hsound ⊢
      obtain ⟨hseq, hnext⟩ := release_next (store.setHistory key { history with entries := [] }) key
        (Held.of history.entries)
      have horder := h.sound.ordered key history hget
      refine h.write hget { history with entries := [] } hsound ?_ hseq.ge hnext.ge
        rfl le_rfl ⟨fun _ hmem => absurd hmem List.not_mem_nil,
          fun _ hmem => absurd hmem List.not_mem_nil, hok.committed, hseq.symm ▸ hok.latest,
          hok.incarnation.1, hnext.symm ▸ hok.incarnation.2⟩ ?_ ?_ ?_
      · intro other
        rw [release_histories, get_setHistory hget]
      · intro part hpart
        rcases List.mem_append.mp hpart with htaken | hold
        · obtain ⟨rfl, hnonempty⟩ := takenParts_mem.mp htaken
          refine .inr ⟨hnonempty, horder, .inl hok.whole, ?_, hnext.symm ▸ hok.incarnation.2, ?_⟩
          · intro change hmem
            rw [hseq]
            exact (hok.bounds change hmem).2.trans_lt hok.latest
          · intro found hfound _ change hmem
            rw [release_histories, get_setHistory hget, if_pos rfl] at hfound
            cases hfound
            exact (hok.bounds change hmem).2
        · exact .inl hold
      · intro part hother
        rw [List.mem_append, takenParts_mem]
        refine or_iff_right ?_
        rintro ⟨rfl, -⟩
        exact hother rfl
      · cases h.settled key history hget with
        | delivered hcommitted => exact .delivered hcommitted
        | pending change hmem hnewest =>
          refine .claimed change ⟨_, List.mem_append_left _ (takenParts_mem.mpr ⟨rfl, ?_⟩), rfl, rfl,
            hmem⟩ hnewest (hok.whole change hmem)
          exact List.ne_nil_of_mem hmem
        | claimed change hclaimed hnewest hwhole =>
          obtain ⟨part, hpart, hkey, hincarnation, hmem⟩ := hclaimed
          exact .claimed change ⟨part, List.mem_append_right _ hpart, hkey, hincarnation, hmem⟩
            hnewest hwhole
        | idle hempty hunclaimed =>
          refine .idle rfl ?_
          rw [hempty]
          exact hunclaimed

theorem drain_taken (hlive : store.history key generation = some history) :
    ∃ changes history', (store.drain key generation).1 = (history.incarnation, changes) ∧
      (∀ change ∈ changes, change ∈ history.entries) ∧ changes.Sublist history.entries ∧
      (store.drain key generation).2.history key generation = some history' ∧
      history'.incarnation = history.incarnation ∧ history'.latest = history.latest := by
  have hget := history_get hlive
  rcases drain_live hlive with ⟨newest, -, -, hdrain⟩ | ⟨-, hdrain⟩
  · rw [hdrain]
    exact ⟨[], history, rfl, fun _ hmem => absurd hmem List.not_mem_nil, List.nil_sublist _, hlive,
      rfl, rfl⟩
  · rw [hdrain]
    refine ⟨history.entries, { history with entries := [] }, rfl, fun _ hmem => hmem,
      List.Sublist.refl _, ?_, rfl, rfl⟩
    unfold TimedHistories.history at hlive ⊢
    rw [release_histories, get_setHistory hget, if_pos rfl]
    exact Option.filter_eq_some_iff.mpr ⟨rfl, (Option.filter_eq_some_iff.mp hlive).2⟩

/-- A report's own change of the current state joins what it drained. -/
theorem Kept.takeChanges (h : Kept store parts) (key : CovSubscriptionKey) (generation : ℕ)
    (current : Option Captured) : Kept (store.takeChanges key generation current).2
      (takenParts key (store.takeChanges key generation current).1 ++ parts) := by
  have hdrained := h.drain key generation
  unfold TimedHistories.takeChanges
  cases current with
  | none => exact hdrained
  | some captured =>
    have hadoptedSound := sound_adopt hdrained.sound key generation captured.change
    cases hhistory : store.history key generation with
    | none =>
      have hdrain : store.drain key generation = ((0, []), store) := by
        unfold TimedHistories.drain
        rw [hhistory]
      have hadopt : store.adopt key generation captured.change
          = ({ captured.change with seq := store.nextSeq },
            { store with nextSeq := store.nextSeq + 1 }) := by
        unfold TimedHistories.adopt
        dsimp only
        rw [show TimedHistories.history { store with nextSeq := store.nextSeq + 1 } key generation
          = none from hhistory]
      rw [hdrain] at hadoptedSound
      rw [hadopt] at hadoptedSound
      rw [hdrain]
      dsimp only
      rw [hadopt]
      have hlater : Kept { store with nextSeq := store.nextSeq + 1 } parts :=
        h.later hadoptedSound rfl (Nat.le_succ _) le_rfl
      have hpositive : ∀ history,
          Pairs.get store.histories key = some history → history.incarnation ≠ 0 :=
        fun history hget => Nat.one_le_iff_ne_zero.mp (h.histories key history hget).incarnation.1
      refine hlater.stray ⟨?_, List.pairwise_singleton _ _, .inr ⟨_, rfl⟩, ?_, hlater.next.1, ?_⟩ ?_
      · exact List.cons_ne_nil _ _
      · intro change hmem
        rw [List.mem_singleton.mp hmem]
        exact Nat.lt_succ_self _
      · exact fun history hget hzero => absurd hzero (hpositive history hget)
      · exact hpositive
    | some history =>
      have hok := h.histories key history (history_get hhistory)
      have horder := h.sound.ordered key history (history_get hhistory)
      obtain ⟨changes, history', htaken, hentries, hsublist, hlive, hsame, hlatest⟩ :=
        drain_taken hhistory
      obtain ⟨taken, middle, hdrain⟩ : ∃ taken middle,
          store.drain key generation = (taken, middle) := ⟨_, _, rfl⟩
      rw [hdrain] at hdrained hadoptedSound htaken hlive ⊢
      subst htaken
      dsimp only
      have hget := history_get hlive
      have hok' := hdrained.histories key history' hget
      rw [adopt_live captured.change hlive] at hadoptedSound ⊢
      refine hdrained.write hget { history' with latest := middle.nextSeq }
        hadoptedSound (@get_setHistory { middle with nextSeq := middle.nextSeq + 1 } _ _ hget _)
        (Nat.le_succ _) le_rfl rfl hok'.latest.le (hok'.adopted (fun _ hmem => hmem) rfl rfl) ?_ ?_ ?_
      · intro part hpart
        rcases List.mem_append.mp hpart with hnew | hold
        · obtain ⟨rfl, hnonempty⟩ := takenParts_mem.mp hnew
          have hbelow : ∀ change ∈ changes, change.seq < middle.nextSeq := by
            intro change hmem
            have hle := (hok.bounds change (hentries change hmem)).2
            rw [← hlatest] at hle
            exact hle.trans_lt hok'.latest
          refine .inr ⟨hnonempty, ?_, .inl ?_, ?_, hsame ▸ hok'.incarnation.2, ?_⟩
          · refine inOrder_append.mpr ⟨List.Pairwise.sublist hsublist horder,
              List.pairwise_singleton _ _, ?_⟩
            intro change hmem last hlast
            rw [List.mem_singleton.mp hlast]
            exact hbelow change hmem
          · intro change hmem
            rcases List.mem_append.mp hmem with hmem | hmem
            · exact hok.whole change (hentries change hmem)
            · rw [List.mem_singleton.mp hmem]
              rfl
          · intro change hmem
            rcases List.mem_append.mp hmem with hmem | hmem
            · exact (hbelow change hmem).trans (Nat.lt_succ_self _)
            · rw [List.mem_singleton.mp hmem]
              exact Nat.lt_succ_self _
          · intro found hfound _ change hmem
            rw [@get_setHistory { middle with nextSeq := middle.nextSeq + 1 } _ _ hget,
              if_pos rfl] at hfound
            cases hfound
            rcases List.mem_append.mp hmem with hmem | hmem
            · exact (hbelow change hmem).le
            · rw [List.mem_singleton.mp hmem]
        · exact .inl (List.mem_append_right _ hold)
      · intro part hother
        rw [List.mem_append, List.mem_append, takenParts_mem, takenParts_mem]
        have hno : ∀ taken, ¬(part = (key, taken) ∧ taken.2 ≠ []) := by
          rintro taken ⟨rfl, -⟩
          exact hother rfl
        rw [or_iff_right (hno _), or_iff_right (hno _)]
      · refine .claimed { captured.change with seq := middle.nextSeq } ⟨_,
          List.mem_append_left _ (takenParts_mem.mpr ⟨rfl, ?_⟩), rfl, hsame.symm, ?_⟩ rfl rfl
        · exact List.append_ne_nil_of_right_ne_nil _ (List.cons_ne_nil _ _)
        · exact List.mem_append_right _ (List.mem_singleton_self _)

/-! ## References that come and go -/

theorem Kept.remove (h : Kept store parts) (key : CovSubscriptionKey) :
    Kept (store.remove key) parts := by
  have hsame : ∀ history, Pairs.get store.histories key = some history →
      (store.removeHistory key).histories = Pairs.remove store.histories key ∧
        (store.removeHistory key).nextSeq = store.nextSeq ∧
        (store.removeHistory key).nextIncarnation = store.nextIncarnation := by
    intro history hget
    unfold removeHistory
    rw [hget]
    exact ⟨release_histories _ _ _, release_next _ _ _⟩
  have hremoved : Trimmed store (store.removeHistory key) := by
    cases hget : Pairs.get store.histories key with
    | none =>
      unfold removeHistory
      rw [hget]
      exact .refl store
    | some history =>
      obtain ⟨hhistories, hseq, hnext⟩ := hsame history hget
      refine ⟨hseq, hnext, ?_⟩
      intro other found hfound
      rw [hhistories, Pairs.get_remove] at hfound
      by_cases hother : other = key
      · rw [if_pos hother] at hfound
        cases hfound
      · rw [if_neg hother] at hfound
        exact ⟨found, hfound, .refl found⟩
  refine h.trimmed (sound_remove h.sound key) (hremoved.trans ?_)
  unfold TimedHistories.remove
  dsimp only
  split
  · exact .refl _
  · split_ifs
    · exact .of_eq rfl rfl rfl
    · exact .of_eq rfl rfl rfl

/-- A renewal keeps the changes; a new reference has none. -/
theorem Kept.reset (h : Kept store parts) (key : CovSubscriptionKey) (generation : ℕ) :
    Kept (store.reset key generation) parts := by
  have hsound := sound_reset h.sound key generation
  unfold TimedHistories.reset at hsound ⊢
  dsimp only at hsound ⊢
  cases hget : Pairs.get store.histories key with
  | some history =>
    rw [hget] at hsound
    have hok := h.histories key history hget
    exact h.write hget _ hsound
      (@get_setHistory { store with terms := store.admitTerms key } _ _ hget _)
      le_rfl le_rfl rfl le_rfl ⟨hok.whole, hok.bounds, hok.committed, hok.latest, hok.incarnation⟩
      (fun _ hpart => .inl hpart) (fun _ _ => Iff.rfl)
      ((h.settled key history hget).stamped generation history.inDelivery)
  | none =>
    rw [hget] at hsound
    have hseq := h.next.2
    refine ⟨hsound, ⟨Nat.le_succ_of_le h.next.1, hseq⟩, ?_, ?_, ?_⟩
    · intro other found hfound
      rw [Pairs.get_insert] at hfound
      by_cases hother : other = key
      · rw [if_pos hother] at hfound
        cases hfound
        exact ⟨fun _ hmem => absurd hmem List.not_mem_nil,
          fun _ hmem => absurd hmem List.not_mem_nil, le_rfl, hseq, h.next.1, Nat.lt_succ_self _⟩
      · rw [if_neg hother] at hfound
        exact (h.histories other found hfound).later le_rfl (Nat.le_succ _)
    · intro part hpart
      refine (h.claims part hpart).later le_rfl (Nat.le_succ _) ?_
      intro found hfound hsame
      rw [Pairs.get_insert] at hfound
      by_cases hother : part.1 = key
      · rw [if_pos hother] at hfound
        cases hfound
        have hold := (h.claims part hpart).incarnation
        rw [← hsame] at hold
        exact absurd hold (lt_irrefl _)
      · rw [if_neg hother] at hfound
        exact ⟨found, hfound, hsame, le_rfl⟩
    · intro other found hfound
      rw [Pairs.get_insert] at hfound
      by_cases hother : other = key
      · rw [if_pos hother] at hfound
        cases hfound
        exact .delivered le_rfl
      · rw [if_neg hother] at hfound
        exact h.settled other found hfound

end RustyBacnet.Cov
