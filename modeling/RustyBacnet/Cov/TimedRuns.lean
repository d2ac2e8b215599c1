import RustyBacnet.Cov.TimedBound
import RustyBacnet.Lib.Runs

/-!
# Runs of timestamped histories

Every operation of the store and of a claim keeps the store sound, and those that apply the bound
leave the context within it.
-/

namespace RustyBacnet.Cov

variable {incarnation : ℕ}

namespace TimedHistories

variable {store : TimedHistories} {key : CovSubscriptionKey} {context : MultipleContextKey}
  {history : TimedHistory} {generation : ℕ}

theorem history_get (h : store.history key generation = some history) :
    Pairs.get store.histories key = some history := by
  exact (Option.filter_eq_some_iff.mp h).1

theorem byIncarnation_get (h : store.byIncarnation key incarnation = some history) :
    Pairs.get store.histories key = some history := by
  exact (Option.filter_eq_some_iff.mp h).1

/-- No history went or came back as another. -/
def Alive (store store' : TimedHistories) : Prop :=
  ∀ key history, Pairs.get store.histories key = some history →
    ∃ history', Pairs.get store'.histories key = some history' ∧
      history'.incarnation = history.incarnation

theorem Alive.refl (store : TimedHistories) : Alive store store :=
  fun _ history hget => ⟨history, hget, rfl⟩

theorem Alive.trans {store' store'' : TimedHistories} (h : Alive store store')
    (h' : Alive store' store'') : Alive store store'' := by
  intro key history hget
  obtain ⟨history', hget', hsame⟩ := h key history hget
  obtain ⟨history'', hget'', hsame'⟩ := h' key history' hget'
  exact ⟨history'', hget'', hsame'.trans hsame⟩

variable {store' : TimedHistories}

theorem Spares.alive (h : Spares store store') : Alive store store' := by
  intro key history hget
  obtain ⟨history', hget', hspares⟩ := h key history hget
  exact ⟨history', hget', hspares.incarnation⟩

theorem alive_setHistory (hget : Pairs.get store.histories key = some history)
    {history' : TimedHistory} (hsame : history'.incarnation = history.incarnation) :
    Alive store (store.setHistory key history') := by
  intro other found hfound
  rw [get_setHistory hget]
  by_cases hother : other = key
  · subst hother
    rw [hget] at hfound
    cases hfound
    rw [if_pos rfl]
    exact ⟨history', rfl, hsame⟩
  · rw [if_neg hother]
    exact ⟨found, hfound, rfl⟩

theorem alive_charge (store : TimedHistories) (key : CovSubscriptionKey) (added : Held) :
    Alive store (store.charge key added) := by
  intro other found hfound
  rw [charge_histories]
  exact ⟨found, hfound, rfl⟩

theorem Alive.byIncarnation (h : Alive store store')
    (hlive : store.byIncarnation key incarnation = some history) :
    ∃ history', store'.byIncarnation key incarnation = some history' := by
  unfold TimedHistories.byIncarnation at hlive ⊢
  obtain ⟨hget, hincarnation⟩ := Option.filter_eq_some_iff.mp hlive
  obtain ⟨history', hget', hsame⟩ := h key history hget
  refine ⟨history', ?_⟩
  rw [hget']
  refine Option.filter_eq_some_iff.mpr ⟨rfl, ?_⟩
  rw [hsame]
  exact hincarnation

/-- What returning or capturing changes does. -/
structure Inserts (key : CovSubscriptionKey) (store store' : TimedHistories) : Prop where
  sound : Sound store'
  sizing : SameSizing store store'
  leaves : ∀ other, key.multipleContext ≠ some other → Leaves store store' other
  alive : Alive store store'

theorem Inserts.refl (h : Sound store) : Inserts key store store :=
  ⟨h, .refl store, fun other _ => .refl store other, .refl store⟩

theorem Inserts.trans {store' store'' : TimedHistories} (h : Inserts key store store')
    (h' : Inserts key store' store'') : Inserts key store store'' :=
  ⟨h'.sound, h.sizing.trans h'.sizing,
    fun other hother => (h.leaves other hother).trans (h'.leaves other hother),
    h.alive.trans h'.alive⟩

theorem inserts_enforceBound (h : Sound store) : Inserts key store (store.enforceBound key) := by
  cases hkey : key.multipleContext with
  | none =>
    have hsame : store.enforceBound key = store := by
      unfold enforceBound
      rw [hkey]
    rw [hsame]
    exact .refl h
  | some context =>
    obtain ⟨hevicts, _⟩ := evicts_enforceBound h hkey
    refine ⟨hevicts.sound, hevicts.sizing, ?_, hevicts.spares.alive⟩
    intro other hother
    rw [hkey] at hother
    exact hevicts.leaves other fun hsame => hother (congrArg some hsame.symm)

theorem inserts_insertOrdered (h : Sound store) (generation : ℕ) (changes : List TimedChange)
    (evict : Bool) : Inserts key store (store.insertOrdered key generation changes evict) := by
  unfold insertOrdered
  cases hhistory : store.history key generation with
  | none => exact .refl h
  | some history =>
    have hget := history_get hhistory
    dsimp only
    generalize hinserted : insertAll Held.zero history.entries changes = result
    obtain ⟨added, entries⟩ := result
    dsimp only
    have hset : SameSizing store (store.setHistory key { history with entries := entries }) :=
      ⟨rfl, fun _ => rfl⟩
    have halive : Alive store (store.setHistory key { history with entries := entries }) :=
      alive_setHistory hget rfl
    have htaken : Inserts key store
        ((store.setHistory key { history with entries := entries }).charge key added) :=
      ⟨h.take hget changes hinserted, hset.trans (sameSizing_charge _ _ _),
        fun other hother => (leaves_setHistory hget _ hother).trans (leaves_charge _ hother),
        halive.trans (alive_charge _ _ _)⟩
    split_ifs
    · exact htaken.trans (inserts_enforceBound htaken.sound)
    · exact htaken

theorem bounded_insertOrdered (h : Sound store) (changes : List TimedChange)
    (hlive : store.history key generation = some history)
    (hkey : key.multipleContext = some context) :
    Bounded (store.insertOrdered key generation changes true) context := by
  have hget := history_get hlive
  unfold insertOrdered
  rw [hlive]
  dsimp only
  generalize hinserted : insertAll Held.zero history.entries changes = result
  obtain ⟨added, entries⟩ := result
  dsimp only
  rw [if_pos rfl]
  refine (evicts_enforceBound (h.take hget changes hinserted) hkey).2 ?_
  rw [charge_terms]
  exact h.terms key history context hget hkey

/-! ## The store's operations -/

theorem Sound.retermed (h : Sound store) {terms : List (MultipleContextKey × ContextTerms)}
    (hterms : ∀ key history context, Pairs.get store.histories key = some history →
      key.multipleContext = some context → (Pairs.get terms context).isSome = true) :
    Sound { store with terms := terms } where
  distinct := h.distinct
  ordered := h.ordered
  terms := hterms
  counted := ⟨h.counted.octets, h.counted.memory, h.counted.nonzero⟩
  intact := h.intact

theorem sound_setSizing (h : Sound store) (context : MultipleContextKey)
    (subscriber : Option UInt16) (timeRemaining : UInt32) :
    Sound (store.setSizing context subscriber timeRemaining) :=
  h.withTerms fun other hsome => isSome_modify _ _ other hsome

theorem sound_noteReserve (h : Sound store) (context : MultipleContextKey) (octets : ℕ) :
    Sound (store.noteReserve context octets) :=
  h.withTerms fun other hsome => isSome_modify _ _ other hsome

theorem admitTerms_isSome (store : TimedHistories) (key : CovSubscriptionKey) :
    (∀ context, (Pairs.get store.terms context).isSome = true →
      (Pairs.get (store.admitTerms key) context).isSome = true) ∧
    ∀ context, key.multipleContext = some context →
      (Pairs.get (store.admitTerms key) context).isSome = true := by
  unfold admitTerms
  cases hkey : key.multipleContext with
  | none => exact ⟨fun _ h => h, fun _ h => absurd h (by simp)⟩
  | some context =>
    have hinsert : ∀ terms other, (Pairs.get (Pairs.insert store.terms context terms) other).isSome
        = (decide (other = context) || (Pairs.get store.terms other).isSome) := by
      intro terms other
      rw [Pairs.get_insert]
      by_cases hsame : other = context
      · rw [if_pos hsame, decide_eq_true hsame]
        rfl
      · rw [if_neg hsame, decide_eq_false hsame, Bool.false_or]
    dsimp only
    split
    · refine ⟨fun other h => ?_, ?_⟩
      · rw [hinsert, h, Bool.or_true]
      · rintro other hsame
        cases hsame
        rw [hinsert, decide_eq_true rfl, Bool.true_or]
    · refine ⟨fun other h => ?_, ?_⟩
      · rw [hinsert, h, Bool.or_true]
      · rintro other hsame
        cases hsame
        rw [hinsert, decide_eq_true rfl, Bool.true_or]

theorem sound_reset (h : Sound store) (key : CovSubscriptionKey) (generation : ℕ) :
    Sound (store.reset key generation) := by
  obtain ⟨hkept, hown⟩ := admitTerms_isSome store key
  have hadmitted : Sound { store with terms := store.admitTerms key } := h.withTerms hkept
  unfold TimedHistories.reset
  dsimp only
  cases hget : Pairs.get store.histories key with
  | some history => exact hadmitted.setHistory hget rfl
  | none =>
    have hsize : ∀ (size : TimedChange → ℕ) context, Pairs.weight (weigh size context)
        (Pairs.insert store.histories key ⟨store.nextIncarnation, generation, 0, 0, 0, []⟩)
          = sizeIn size store context := by
      intro size context
      have hweight := Pairs.weight_insert (w := weigh size context) (k := key)
        (a := ⟨store.nextIncarnation, generation, 0, 0, 0, []⟩) h.distinct
      unfold Pairs.weightAt at hweight
      rw [hget] at hweight
      have hempty : weigh size context key ⟨store.nextIncarnation, generation, 0, 0, 0, []⟩ = 0 := by
        unfold weigh
        split_ifs
        · rfl
        · rfl
      rw [hempty] at hweight
      exact hweight
    refine ⟨Pairs.distinct_insert h.distinct, ?_, ?_, ⟨?_, ?_, h.counted.nonzero⟩, h.intact⟩
    · intro other found hfound
      dsimp only at hfound
      rw [Pairs.get_insert] at hfound
      split_ifs at hfound
      · cases hfound
        exact List.Pairwise.nil
      · exact h.ordered other found hfound
    · intro other found context hfound hcontext
      dsimp only at hfound ⊢
      rw [Pairs.get_insert] at hfound
      split_ifs at hfound with hsame
      · subst hsame
        exact hown context hcontext
      · exact hkept context (h.terms other found context hfound hcontext)
    · intro context
      exact (h.counted.octets context).trans (hsize _ context).symm
    · intro context
      exact (h.counted.memory context).trans (hsize _ context).symm

/-- Taking a history out of the table releases its changes. -/
theorem sound_removed (h : Sound store) (hget : Pairs.get store.histories key = some history) :
    Sound (({ store with histories := Pairs.remove store.histories key }).release key
      (Held.of history.entries)) := by
  have hsize : ∀ (size : TimedChange → ℕ) context, sizeIn size store context
      = Pairs.weight (weigh size context) (Pairs.remove store.histories key)
        + share key context (history.entries.map size).sum := by
    intro size context
    have hweight := Pairs.weight_remove (w := weigh size context) (k := key) h.distinct
    unfold Pairs.weightAt at hweight
    rw [hget] at hweight
    exact hweight
  have hoff : Off { store with histories := Pairs.remove store.histories key } key
      (Held.of history.entries) := by
    rw [held_of]
    refine ⟨?_, ?_, h.counted.nonzero⟩
    · intro context
      exact (h.counted.octets context).trans (hsize _ context)
    · intro context
      exact (h.counted.memory context).trans (hsize _ context)
  obtain ⟨hcounted, hintact⟩ := hoff.release
  have hfound : ∀ {other found}, Pairs.get (({ store with
      histories := Pairs.remove store.histories key }).release key
        (Held.of history.entries)).histories other = some found →
      Pairs.get store.histories other = some found := by
    intro other found hfound
    rw [release_histories] at hfound
    rw [Pairs.get_remove] at hfound
    split_ifs at hfound
    exact hfound
  refine ⟨?_, ?_, ?_, hcounted, hintact.trans h.intact⟩
  · rw [release_histories]
    exact Pairs.distinct_remove h.distinct
  · intro other found hget
    exact h.ordered other found (hfound hget)
  · intro other found context hget hcontext
    rw [release_terms]
    exact h.terms other found context (hfound hget) hcontext

theorem sound_remove (h : Sound store) (key : CovSubscriptionKey) : Sound (store.remove key) := by
  have hremoved : Sound (store.removeHistory key) := by
    unfold removeHistory
    split
    · exact h
    · rename_i history hget
      exact sound_removed h hget
  unfold TimedHistories.remove
  dsimp only
  generalize store.removeHistory key = removed at hremoved ⊢
  split
  · exact hremoved
  · rename_i context hkey
    split_ifs with hany
    · exact hremoved.withTerms fun other hsome => isSome_modify _ _ other hsome
    · refine hremoved.retermed ?_
      intro other found context' hget hcontext
      rw [Pairs.get_remove, if_neg]
      · exact hremoved.terms other found context' hget hcontext
      · rintro rfl
        apply hany
        rw [List.any_eq_true]
        exact ⟨_, Pairs.get_eq_some_mem hget, decide_eq_true hcontext⟩

theorem sound_adopt (h : Sound store) (key : CovSubscriptionKey) (generation : ℕ)
    (change : TimedChange) : Sound (store.adopt key generation change).2 := by
  have hnext : Sound { store with nextSeq := store.nextSeq + 1 } :=
    ⟨h.distinct, h.ordered, h.terms, ⟨h.counted.octets, h.counted.memory, h.counted.nonzero⟩,
      h.intact⟩
  unfold adopt
  dsimp only
  split
  · exact hnext
  · rename_i history hhistory
    exact hnext.setHistory (history_get hhistory) rfl

theorem sound_push (h : Sound store) (key : CovSubscriptionKey) (generation : ℕ)
    (change : TimedChange) : Sound (store.push key generation change).2 := by
  unfold push
  split
  · exact h
  · dsimp only
    exact (inserts_insertOrdered (sound_adopt h key generation change) _ _ _).sound

theorem adopt_history (change : TimedChange) (hlive : store.history key generation = some history) :
    (store.adopt key generation change).2.history key generation
      = some { history with latest := store.nextSeq } := by
  have hgeneration := (Option.filter_eq_some_iff.mp hlive).2
  have hget := history_get hlive
  unfold adopt
  dsimp only
  rw [show TimedHistories.history { store with nextSeq := store.nextSeq + 1 } key generation
    = some history from hlive]
  have hget' : Pairs.get (TimedHistories.histories { store with nextSeq := store.nextSeq + 1 })
      key = some history := hget
  unfold TimedHistories.history
  rw [get_setHistory hget', if_pos rfl]
  exact Option.filter_eq_some_iff.mpr ⟨rfl, hgeneration⟩

/-- A captured change leaves its context within the bound and its reference's history there. -/
theorem bounded_push (h : Sound store) (change : TimedChange)
    (hlive : store.history key generation = some history)
    (hkey : key.multipleContext = some context) :
    Bounded (store.push key generation change).2 context ∧
      ∃ history', Pairs.get (store.push key generation change).2.histories key
        = some history' := by
  have hadopted := sound_adopt h key generation change
  have hlive' := adopt_history change hlive
  unfold push
  rw [hlive]
  constructor
  · exact bounded_insertOrdered hadopted _ hlive' hkey
  · have hinserts : Inserts key _ _ := inserts_insertOrdered hadopted generation
      [(store.adopt key generation change).1] true
    obtain ⟨history', hget', -⟩ := hinserts.alive key _ (history_get hlive')
    exact ⟨history', hget'⟩

theorem sound_drain (h : Sound store) (key : CovSubscriptionKey) (generation : ℕ) :
    Sound (store.drain key generation).2 := by
  unfold drain
  split
  · exact h
  · rename_i history hhistory
    split_ifs
    · exact h
    · have horder : InOrder (TimedHistory.entries { history with entries := [] }) :=
        List.Pairwise.nil
      refine h.shrink (history_get hhistory) horder ?_
      intro size
      exact (Nat.zero_add _).symm

theorem sound_commit (h : Sound store) (key : CovSubscriptionKey) (incarnation seq : ℕ) :
    Sound (store.commit key incarnation seq) := by
  unfold TimedHistories.commit
  split
  · exact h
  rename_i history hhistory
  have hget := byIncarnation_get hhistory
  dsimp only
  set committed := max history.committed seq
  have hsplit := List.takeWhile_append_dropWhile
    (p := fun change : TimedChange => decide (change.seq < committed)) (l := history.entries)
  have horder : InOrder (history.entries.dropWhile fun change => change.seq < committed) :=
    List.Pairwise.sublist (List.dropWhile_sublist _) (h.ordered key history hget)
  split_ifs with hempty
  · refine h.setHistory hget ?_
    rw [List.isEmpty_iff] at hempty
    rw [hempty, List.nil_append] at hsplit
    exact hsplit
  · refine (h.shrink hget horder ?_).dropped _ _ _
    intro size
    have hsum := congrArg (fun entries => (entries.map size).sum) hsplit
    rw [List.map_append, List.sum_append] at hsum
    dsimp only
    omega

theorem sound_deliverByValue (h : Sound store) (key : CovSubscriptionKey) (incarnation seq : ℕ) :
    Sound (store.deliverByValue key incarnation seq) := by
  unfold deliverByValue
  split
  · exact h
  · rename_i history hhistory
    exact h.setHistory (byIncarnation_get hhistory) rfl

theorem inserts_dropped (h : Sound store) (count : ℕ) (reason : DropReason) :
    Inserts key store (store.dropped key count reason) :=
  ⟨h.dropped _ _ _, sameSizing_dropped _ _ _ _, fun _ _ => leaves_dropped _ _ _ _,
    fun _ history hget => ⟨history, hget, rfl⟩⟩

theorem inserts_requeue (h : Sound store) (incarnation : ℕ) (changes : List TimedChange)
    (evict : Bool) : Inserts key store (store.requeue key incarnation changes evict) := by
  unfold requeue
  split
  · exact .refl h
  · dsimp only
    split_ifs
    · exact inserts_insertOrdered h _ _ _
    · exact (inserts_dropped h _ _).trans (inserts_insertOrdered (h.dropped _ _ _) _ _ _)

theorem bounded_requeue (h : Sound store) (changes : List TimedChange)
    (hlive : store.byIncarnation key incarnation = some history)
    (hkey : key.multipleContext = some context) :
    Bounded (store.requeue key incarnation changes true) context := by
  have hhistory : store.history key history.generation = some history := by
    unfold TimedHistories.history
    rw [byIncarnation_get hlive]
    exact Option.filter_eq_some_iff.mpr ⟨rfl, beq_self_eq_true _⟩
  unfold requeue
  rw [hlive]
  dsimp only
  split_ifs
  · exact bounded_insertOrdered h _ hhistory hkey
  · exact bounded_insertOrdered (h.dropped _ _ _) _ hhistory hkey

end TimedHistories

/-! ## Claims -/

open TimedHistories

namespace TimedClaim

variable {store : TimedHistories}

theorem sound_commit (h : Sound store) (claim : TimedClaim) : Sound (claim.commit store) := by
  refine Runs.invariant Sound ?_ claim.changes h
  intro store part h
  split
  · exact TimedHistories.sound_commit h _ _ _
  · split
    · exact sound_deliverByValue h _ _ _
    · exact h

theorem sound_goingOut (h : Sound store) (claim : TimedClaim) : Sound (claim.goingOut store) := by
  refine Runs.invariant Sound ?_ claim.changes h
  intro store part h
  split
  · exact sound_deliverByValue h _ _ _
  · exact h

theorem returns_drop (h : Sound store) (claim : TimedClaim) :
    Sound (claim.drop store) ∧ Alive store (claim.drop store) := by
  refine Runs.invariant (fun store' => Sound store' ∧ Alive store store') ?_ claim.changes
    ⟨h, .refl store⟩
  rintro store' part ⟨h', halive⟩
  have hinserts : Inserts part.1 store' (store'.requeue part.1 part.2.1 part.2.2 claim.evict) :=
    inserts_requeue h' part.2.1 part.2.2 claim.evict
  exact ⟨hinserts.sound, halive.trans hinserts.alive⟩

theorem sound_drop (h : Sound store) (claim : TimedClaim) : Sound (claim.drop store) :=
  (claim.returns_drop h).1

theorem alive_drop (h : Sound store) (claim : TimedClaim) : Alive store (claim.drop store) :=
  (claim.returns_drop h).2

theorem bounded_requeue_keeps {key : CovSubscriptionKey} {context : MultipleContextKey}
    (h : Sound store) (hbounded : Bounded store context) (incarnation : ℕ)
    (changes : List TimedChange) :
    Bounded (store.requeue key incarnation changes true) context := by
  have hinserts : Inserts key store (store.requeue key incarnation changes true) :=
    inserts_requeue h incarnation changes true
  by_cases hkey : key.multipleContext = some context
  · cases hlive : store.byIncarnation key incarnation with
    | none =>
      have hsame : store.requeue key incarnation changes true = store := by
        unfold requeue
        rw [hlive]
      rw [hsame]
      exact hbounded
    | some history => exact bounded_requeue h changes hlive hkey
  · exact hbounded.leaves hinserts.sizing (hinserts.leaves context hkey)

theorem bounded_returned (parts : List (CovSubscriptionKey × ℕ × List TimedChange))
    {context : MultipleContextKey} : ∀ {store : TimedHistories}, Sound store →
      (Bounded store context ∨ ∃ key incarnation changes history,
        (key, incarnation, changes) ∈ parts ∧ key.multipleContext = some context ∧
          store.byIncarnation key incarnation = some history) →
      Bounded (parts.foldl (fun store part => store.requeue part.1 part.2.1 part.2.2 true) store)
        context := by
  induction parts with
  | nil =>
    rintro store _ (hbounded | ⟨_, _, _, _, hmem, _⟩)
    · exact hbounded
    · exact absurd hmem List.not_mem_nil
  | cons part parts ih =>
    intro store h hreturns
    rw [List.foldl_cons]
    have hinserts : Inserts part.1 store (store.requeue part.1 part.2.1 part.2.2 true) :=
      inserts_requeue h part.2.1 part.2.2 true
    refine ih hinserts.sound ?_
    rcases hreturns with hbounded | ⟨key, incarnation, changes, history, hmem, hkey, hlive⟩
    · exact .inl (bounded_requeue_keeps h hbounded _ _)
    · rcases List.mem_cons.mp hmem with rfl | hmem
      · exact .inl (bounded_requeue h changes hlive hkey)
      · obtain ⟨history', hlive'⟩ := hinserts.alive.byIncarnation hlive
        exact .inr ⟨key, incarnation, changes, history', hmem, hkey, hlive'⟩

/-- A claim that returns changes to a live reference leaves its context within the bound. -/
theorem bounded_drop (h : Sound store) {claim : TimedClaim} (hevict : claim.evict = true)
    {key : CovSubscriptionKey} {changes : List TimedChange} {history : TimedHistory}
    {context : MultipleContextKey} (hmem : (key, incarnation, changes) ∈ claim.changes)
    (hkey : key.multipleContext = some context)
    (hlive : store.byIncarnation key incarnation = some history) :
    Bounded (claim.drop store) context := by
  unfold TimedClaim.drop
  rw [hevict]
  exact bounded_returned claim.changes h (.inr ⟨key, incarnation, changes, history, hmem, hkey, hlive⟩)

end TimedClaim

/-! ## Runs -/

namespace TimedRun

theorem sound_perform (run : TimedRun) (op : TimedOp) (h : Sound run.store) :
    Sound (run.perform op).store := by
  have hclaim : ∀ index (f : TimedClaim → TimedRun), (∀ claim, Sound (f claim).store) →
      Sound (run.withClaim index f).store := by
    intro index f hf
    unfold withClaim
    split
    · exact h
    · exact hf _
  cases op with
  | reset key generation => exact sound_reset h key generation
  | remove key => exact sound_remove h key
  | setSizing context subscriber timeRemaining =>
    exact sound_setSizing h context subscriber timeRemaining
  | noteReserve context octets => exact sound_noteReserve h context octets
  | push key generation change => exact sound_push h key generation change
  | adopt key generation change => exact sound_adopt h key generation change
  | drain key generation => exact sound_drain h key generation
  | commit key incarnation seq => exact TimedHistories.sound_commit h key incarnation seq
  | newClaim => exact h
  | add index key incarnation changes => exact hclaim index _ fun _ => h
  | withoutEviction index => exact hclaim index _ fun _ => h
  | splitOldest index count => exact hclaim index _ fun _ => h
  | splitValues index fit =>
    refine hclaim index _ fun claim => ?_
    refine Runs.invariant Sound ?_ _ h
    exact fun store key h => h.dropped key 1 .tooLarge
  | goingOut index => exact hclaim index _ fun claim => claim.sound_goingOut h
  | commitClaim index => exact hclaim index _ fun claim => claim.sound_commit h
  | dropClaim index => exact hclaim index _ fun claim => claim.sound_drop h

theorem sound_performAll (localApdu : ℕ) (ops : List TimedOp) :
    Sound ((new localApdu).performAll ops).store :=
  Runs.invariant (fun run : TimedRun => Sound run.store)
    (fun run op h => sound_perform run op h) ops (sound_new localApdu)

end TimedRun

namespace TimedHistories

variable {store : TimedHistories} {key : CovSubscriptionKey} {history : TimedHistory}
  {context : MultipleContextKey}

def changesOf (store : TimedHistories) (context : MultipleContextKey) : List TimedChange :=
  (store.histories.filter fun pair => pair.1.multipleContext = some context).flatMap
    fun pair => pair.2.entries

theorem sizeIn_eq (size : TimedChange → ℕ) (store : TimedHistories) (context : MultipleContextKey) :
    sizeIn size store context = ((store.changesOf context).map size).sum := by
  unfold sizeIn changesOf
  induction store.histories with
  | nil => rfl
  | cons pair histories ih =>
    rw [Pairs.weight_cons, ih]
    unfold weigh
    by_cases hkey : pair.1.multipleContext = some context
    · rw [if_pos hkey, List.filter_cons_of_pos (by simpa using hkey), List.flatMap_cons,
        List.map_append, List.sum_append]
    · rw [if_neg hkey, List.filter_cons_of_neg (by simpa using hkey), Nat.zero_add]

theorem Sound.heldOf_eq (h : Sound store) (context : MultipleContextKey) :
    store.heldOf context = Held.of (store.changesOf context) := by
  have hoctets := h.counted.octets context
  have hmemory := h.counted.memory context
  rw [sizeIn_eq] at hoctets hmemory
  rw [held_of, ← hoctets, ← hmemory]

theorem Sound.no_record_iff (h : Sound store) (context : MultipleContextKey) :
    Pairs.get store.contextHeld context = none ↔ store.changesOf context = [] := by
  have hheld := h.heldOf_eq context
  constructor
  · intro hnone
    have hzero : Held.zero = Held.of (store.changesOf context) := by
      rw [← hheld]
      unfold heldOf
      rw [hnone]
      rfl
    cases hchanges : store.changesOf context with
    | nil => rfl
    | cons change changes =>
      rw [hchanges, held_of, List.map_cons, List.map_cons, List.sum_cons, List.sum_cons] at hzero
      have hmemory := congrArg Held.memory hzero
      dsimp only [Held.zero, TimedChange.memory, CHANGE_MEMORY] at hmemory
      omega
  · intro hchanges
    rw [hchanges] at hheld
    cases hrecord : Pairs.get store.contextHeld context with
    | none => rfl
    | some held =>
      unfold heldOf at hheld
      rw [hrecord] at hheld
      exact absurd hheld (h.counted.nonzero context held hrecord)

theorem spares_evictFrom {terms : ContextTerms} (hkey : key.multipleContext = some context)
    (left : ℕ) : ∀ {store : TimedHistories}, Pairs.Distinct store.histories →
      Spares store (evictFrom key context terms left store) := by
  induction left with
  | zero => exact fun _ => .refl _
  | succ left ih =>
    intro store hdistinct
    unfold evictFrom
    split_ifs
    · exact .refl _
    split
    · exact .refl _
    · rename_i victim at_ hvictim
      obtain ⟨_, history, hget, hevictable⟩ := victim_some hdistinct hkey hvictim
      obtain ⟨hspares, hdistinct'⟩ := spares_evict hdistinct hget hevictable
      exact hspares.trans (ih hdistinct')

theorem spares_enforceBound (hdistinct : Pairs.Distinct store.histories)
    (key : CovSubscriptionKey) : Spares store (store.enforceBound key) := by
  unfold enforceBound
  split
  · exact .refl _
  · rename_i context hkey
    split
    · exact .refl _
    · exact spares_evictFrom hkey _ hdistinct

/-- The context's pending changes fit its room and its ceiling, or each one left is its reference's
newest or its change in delivery. -/
def WithinBound (store : TimedHistories) (context : MultipleContextKey) : Prop :=
  ∃ terms, Pairs.get store.terms context = some terms ∧
    (terms.holds (Held.of (store.changesOf context)) store.localApdu = true ∨
      ∀ key history, Pairs.get store.histories key = some history →
        key.multipleContext = some context → Exempt history)

theorem withinBound_of (h : Sound store) (hbounded : Bounded store context)
    (hget : Pairs.get store.histories key = some history)
    (hkey : key.multipleContext = some context) : WithinBound store context := by
  obtain ⟨terms, hterms⟩ := Option.isSome_iff_exists.mp (h.terms key history context hget hkey)
  refine ⟨terms, hterms, ?_⟩
  rcases hbounded terms hterms with hfits | hexempt
  · left
    rw [← h.heldOf_eq]
    exact hfits
  · right
    exact fun other found hfound hother => hexempt other found hother hfound

end TimedHistories

/-- What holds of the store and its claims after every run. -/
structure TimedLaws (run : TimedRun) : Prop where
  /-- Each history's changes strictly increase in sequence. -/
  ordered : ∀ key history, Pairs.get run.store.histories key = some history →
    history.entries.Pairwise fun a b => a.seq < b.seq
  /-- Every context with a history has terms. -/
  terms : ∀ key history context, Pairs.get run.store.histories key = some history →
    key.multipleContext = some context → ∃ terms, Pairs.get run.store.terms context = some terms
  /-- What is held of a context is what its pending changes take. -/
  held : ∀ context, run.store.heldOf context = Held.of (run.store.changesOf context)
  /-- There is no record exactly when nothing is pending. -/
  record : ∀ context, Pairs.get run.store.contextHeld context = none ↔
    run.store.changesOf context = []
  /-- No debug assertion of `release` failed. -/
  intact : run.store.intact = true
  /-- A captured change leaves its context within the bound. -/
  push : ∀ key generation change context, (run.store.history key generation).isSome = true →
    key.multipleContext = some context →
    WithinBound (run.store.push key generation change).2 context
  /-- So does a returning claim that applies the bound. -/
  drop : ∀ claim ∈ run.claims, claim.evict = true → ∀ key incarnation changes context,
    (key, incarnation, changes) ∈ claim.changes → key.multipleContext = some context →
    (run.store.byIncarnation key incarnation).isSome = true →
    WithinBound (claim.drop run.store) context
  /-- Eviction takes no reference's newest change and no change in delivery. -/
  eviction : ∀ store key, Pairs.Distinct store.histories → Spares store (store.enforceBound key)

/-- **Timed COV history bound.** The laws hold after every run of store and claim operations. -/
theorem timed_history_bound (localApdu : ℕ) (ops : List TimedOp) :
    TimedLaws ((TimedRun.new localApdu).performAll ops) := by
  have h := TimedRun.sound_performAll localApdu ops
  generalize (TimedRun.new localApdu).performAll ops = run at h
  refine ⟨h.ordered, ?_, h.heldOf_eq, h.no_record_iff, h.intact, ?_, ?_, ?_⟩
  · intro key history context hget hkey
    exact Option.isSome_iff_exists.mp (h.terms key history context hget hkey)
  · intro key generation change context hlive hkey
    obtain ⟨history, hhistory⟩ := Option.isSome_iff_exists.mp hlive
    obtain ⟨hbounded, history', hget'⟩ := bounded_push h change hhistory hkey
    exact withinBound_of (sound_push h key generation change) hbounded hget' hkey
  · intro claim _ hevict key incarnation changes context hmem hkey hlive
    obtain ⟨history, hhistory⟩ := Option.isSome_iff_exists.mp hlive
    have hbounded := claim.bounded_drop h hevict hmem hkey hhistory
    obtain ⟨history', hget', -⟩ := claim.alive_drop h key history (byIncarnation_get hhistory)
    exact withinBound_of (claim.sound_drop h) hbounded hget' hkey
  · exact fun store key hdistinct => spares_enforceBound hdistinct key

end RustyBacnet.Cov
