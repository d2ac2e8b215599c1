import Mathlib.Algebra.BigOperators.Group.List.Lemmas
import RustyBacnet.Cov.TimedClaims

/-!
# The counts of pending changes

A store is sound when each history's changes run in capture order, each context with a history has
terms, and what is held of each context is the sum over its pending changes. A write to a history puts
the sum off by the changes it adds or takes; `charge` and `release` put it right again.
-/

namespace RustyBacnet.Cov

namespace TimedHistories

/-! ## Sums -/

/-- The size of a history's changes, if it is one of the context's. -/
def weigh (size : TimedChange → ℕ) (context : MultipleContextKey) (key : CovSubscriptionKey)
    (history : TimedHistory) : ℕ :=
  if key.multipleContext = some context then (history.entries.map size).sum else 0

def sizeIn (size : TimedChange → ℕ) (store : TimedHistories) (context : MultipleContextKey) : ℕ :=
  Pairs.weight (weigh size context) store.histories

/-- `n` for the context of `key`, nothing for the others. -/
def share (key : CovSubscriptionKey) (context : MultipleContextKey) (n : ℕ) : ℕ :=
  if key.multipleContext = some context then n else 0

section Share

variable {key : CovSubscriptionKey} {context other : MultipleContextKey} {n : ℕ}

theorem share_self (hkey : key.multipleContext = some context) : share key context n = n := by
  exact if_pos hkey

theorem share_other (hkey : key.multipleContext = some context) (hother : other ≠ context) :
    share key other n = 0 := by
  unfold share
  rw [if_neg]
  rintro hsame
  rw [hkey] at hsame
  exact hother (Option.some.inj hsame).symm

theorem share_none (hkey : key.multipleContext = none) : share key context n = 0 := by
  unfold share
  rw [if_neg]
  rw [hkey]
  exact (Option.some_ne_none _).symm

theorem share_zero : share key context 0 = 0 := by
  exact ite_self 0

end Share

theorem held_of (changes : List TimedChange) :
    Held.of changes = ⟨(changes.map (·.octets)).sum, (changes.map (·.memory)).sum⟩ := by
  have hfold : ∀ held : Held, changes.foldl (fun held change =>
      ⟨held.octets + change.octets, held.memory + change.memory⟩) held
        = ⟨held.octets + (changes.map (·.octets)).sum,
          held.memory + (changes.map (·.memory)).sum⟩ := by
    induction changes with
    | nil => exact fun held => rfl
    | cons change changes ih =>
      intro held
      rw [List.foldl_cons, ih]
      simp only [List.map_cons, List.sum_cons]
      congr 1
      · omega
      · omega
  unfold Held.of
  rw [hfold]
  simp only [Held.zero, Nat.zero_add]

/-- What is held is `extra` of `key` more than what is pending, and no record is of nothing. -/
structure Off (store : TimedHistories) (key : CovSubscriptionKey) (extra : Held) : Prop where
  octets : ∀ context, (store.heldOf context).octets
    = sizeIn TimedChange.octets store context + share key context extra.octets
  memory : ∀ context, (store.heldOf context).memory
    = sizeIn TimedChange.memory store context + share key context extra.memory
  nonzero : ∀ context held, Pairs.get store.contextHeld context = some held → held ≠ Held.zero

/-- What is held is what is pending. -/
structure Counted (store : TimedHistories) : Prop where
  octets : ∀ context, (store.heldOf context).octets = sizeIn TimedChange.octets store context
  memory : ∀ context, (store.heldOf context).memory = sizeIn TimedChange.memory store context
  nonzero : ∀ context held, Pairs.get store.contextHeld context = some held → held ≠ Held.zero

variable {store : TimedHistories} {key : CovSubscriptionKey} {history history' : TimedHistory}

theorem heldOf_insert (context other : MultipleContextKey) (held : Held) :
    heldOf { store with contextHeld := Pairs.insert store.contextHeld context held } other
      = if other = context then held else store.heldOf other := by
  unfold heldOf
  rw [Pairs.get_insert]
  split_ifs
  · rfl
  · rfl

/-- Releasing what the count is off by sets it right, and the debug assertions hold. -/
theorem Off.release {extra : Held} (h : Off store key extra) :
    Counted (store.release key extra) ∧ (store.release key extra).intact = store.intact := by
  unfold TimedHistories.release
  cases hkey : key.multipleContext with
  | none =>
    refine ⟨⟨?_, ?_, h.nonzero⟩, rfl⟩
    · intro context
      rw [h.octets, share_none hkey, Nat.add_zero]
    · intro context
      rw [h.memory, share_none hkey, Nat.add_zero]
  | some context =>
    have hoctets := h.octets context
    have hmemory := h.memory context
    rw [share_self hkey] at hoctets hmemory
    dsimp only
    cases hheld : Pairs.get store.contextHeld context with
    | none =>
      have hzero : store.heldOf context = Held.zero := by
        unfold heldOf
        rw [hheld]
        rfl
      rw [hzero] at hoctets hmemory
      have hextra : extra = Held.zero := by
        obtain ⟨octets, memory⟩ := extra
        dsimp only [Held.zero] at hoctets hmemory ⊢
        congr 1
        · omega
        · omega
      dsimp only
      refine ⟨⟨?_, ?_, h.nonzero⟩, ?_⟩
      · intro other
        have hall := h.octets other
        rw [hextra] at hall
        exact hall.trans (congrArg _ share_zero)
      · intro other
        have hall := h.memory other
        rw [hextra] at hall
        exact hall.trans (congrArg _ share_zero)
      · rw [decide_eq_true hextra, Bool.and_true]
    | some held =>
      have hsome : store.heldOf context = held := by
        unfold heldOf
        rw [hheld]
        rfl
      rw [hsome] at hoctets hmemory
      have hcovered : held.octets ≥ extra.octets ∧ held.memory ≥ extra.memory := by omega
      dsimp only
      rw [decide_eq_true hcovered, Bool.and_true]
      have hget : ∀ other, Pairs.get (if (⟨held.octets - extra.octets, held.memory - extra.memory⟩
            : Held) = Held.zero then Pairs.remove store.contextHeld context
          else Pairs.insert store.contextHeld context
            ⟨held.octets - extra.octets, held.memory - extra.memory⟩) other
          = if other = context then
              if (⟨held.octets - extra.octets, held.memory - extra.memory⟩ : Held) = Held.zero
              then none
              else some ⟨held.octets - extra.octets, held.memory - extra.memory⟩
            else Pairs.get store.contextHeld other := by
        intro other
        split_ifs with hzero hsame hsame
        · rw [Pairs.get_remove, if_pos hsame]
        · rw [Pairs.get_remove, if_neg hsame]
        · rw [Pairs.get_insert, if_pos hsame]
        · rw [Pairs.get_insert, if_neg hsame]
      have hleft : ∀ other, ((if other = context then
              if (⟨held.octets - extra.octets, held.memory - extra.memory⟩ : Held) = Held.zero
              then none
              else some ⟨held.octets - extra.octets, held.memory - extra.memory⟩
            else Pairs.get store.contextHeld other).getD Held.zero)
          = if other = context then
              ⟨held.octets - extra.octets, held.memory - extra.memory⟩
            else store.heldOf other := by
        intro other
        split_ifs with hsame hzero
        · exact hzero.symm
        · rfl
        · rfl
      refine ⟨⟨?_, ?_, ?_⟩, rfl⟩
      · intro other
        unfold heldOf
        rw [hget, hleft]
        show _ = sizeIn TimedChange.octets store other
        split_ifs with hsame
        · rw [hsame]
          dsimp only
          omega
        · rw [h.octets, share_other hkey hsame, Nat.add_zero]
      · intro other
        unfold heldOf
        rw [hget, hleft]
        show _ = sizeIn TimedChange.memory store other
        split_ifs with hsame
        · rw [hsame]
          dsimp only
          omega
        · rw [h.memory, share_other hkey hsame, Nat.add_zero]
      · intro other found hfound
        rw [hget] at hfound
        split_ifs at hfound with hsame hzero
        · cases hfound
          exact hzero
        · exact h.nonzero other found hfound

/-! ## Writing a history -/

theorem sizeIn_setHistory (size : TimedChange → ℕ) (hdistinct : Pairs.Distinct store.histories)
    (hget : Pairs.get store.histories key = some history) (history' : TimedHistory)
    (context : MultipleContextKey) :
    sizeIn size (store.setHistory key history') context
        + share key context (history.entries.map size).sum
      = sizeIn size store context + share key context (history'.entries.map size).sum := by
  have hweight := Pairs.weight_modify (w := weigh size context) (k := key)
    (f := fun _ => history') hdistinct
  unfold Pairs.weightAt at hweight
  rw [hget] at hweight
  exact hweight

variable {released : List TimedChange}

theorem Counted.off_setHistory (h : Counted store) (hdistinct : Pairs.Distinct store.histories)
    (hget : Pairs.get store.histories key = some history)
    (hsplit : ∀ size : TimedChange → ℕ, (history.entries.map size).sum
      = (history'.entries.map size).sum + (released.map size).sum) :
    Off (store.setHistory key history') key (Held.of released) := by
  have hsize : ∀ (size : TimedChange → ℕ) context, sizeIn size store context
      = sizeIn size (store.setHistory key history') context
        + share key context (released.map size).sum := by
    intro size context
    have hwritten := sizeIn_setHistory size hdistinct hget history' context
    have hsum := hsplit size
    unfold share at hwritten ⊢
    split_ifs at hwritten ⊢ with hkey
    · omega
    · omega
  rw [held_of]
  refine ⟨?_, ?_, h.nonzero⟩
  · intro context
    rw [← hsize]
    exact h.octets context
  · intro context
    rw [← hsize]
    exact h.memory context

variable {added : Held}

/-- A history that takes changes is right once they are charged. -/
theorem Counted.charge_setHistory (h : Counted store) (hdistinct : Pairs.Distinct store.histories)
    (hget : Pairs.get store.histories key = some history)
    (hoctets : (history'.entries.map (·.octets)).sum
      = (history.entries.map (·.octets)).sum + added.octets)
    (hmemory : (history'.entries.map (·.memory)).sum
      = (history.entries.map (·.memory)).sum + added.memory) :
    Counted ((store.setHistory key history').charge key added) := by
  have hsize : ∀ (size : TimedChange → ℕ) (more : ℕ), (history'.entries.map size).sum
      = (history.entries.map size).sum + more → ∀ context,
      sizeIn size (store.setHistory key history') context
        = sizeIn size store context + share key context more := by
    intro size more hsum context
    have hwritten := sizeIn_setHistory size hdistinct hget history' context
    unfold share at hwritten ⊢
    split_ifs at hwritten ⊢ with hkey
    · omega
    · omega
  unfold charge
  cases hkey : key.multipleContext with
  | none =>
    refine ⟨?_, ?_, h.nonzero⟩
    · intro context
      rw [hsize _ _ hoctets, share_none hkey, Nat.add_zero]
      exact h.octets context
    · intro context
      rw [hsize _ _ hmemory, share_none hkey, Nat.add_zero]
      exact h.memory context
  | some context =>
    split_ifs with hzero
    · subst hzero
      refine ⟨?_, ?_, h.nonzero⟩
      · intro other
        rw [hsize _ _ hoctets, show share key other Held.zero.octets = 0 from share_zero, Nat.add_zero]
        exact h.octets other
      · intro other
        rw [hsize _ _ hmemory, show share key other Held.zero.memory = 0 from share_zero, Nat.add_zero]
        exact h.memory other
    · refine ⟨?_, ?_, ?_⟩
      · intro other
        rw [heldOf_insert]
        show _ = sizeIn TimedChange.octets (store.setHistory key history') other
        rw [hsize _ _ hoctets]
        by_cases hsame : other = context
        · subst hsame
          rw [if_pos rfl, share_self hkey]
          exact congrArg (· + added.octets) (h.octets other)
        · rw [if_neg hsame, share_other hkey hsame, Nat.add_zero]
          exact h.octets other
      · intro other
        rw [heldOf_insert]
        show _ = sizeIn TimedChange.memory (store.setHistory key history') other
        rw [hsize _ _ hmemory]
        by_cases hsame : other = context
        · subst hsame
          rw [if_pos rfl, share_self hkey]
          exact congrArg (· + added.memory) (h.memory other)
        · rw [if_neg hsame, share_other hkey hsame, Nat.add_zero]
          exact h.memory other
      · intro other found hfound
        rw [Pairs.get_insert] at hfound
        split_ifs at hfound with hsame
        · cases hfound
          intro hnothing
          apply hzero
          have hoctets' := congrArg Held.octets hnothing
          have hmemory' := congrArg Held.memory hnothing
          obtain ⟨octets, memory⟩ := added
          dsimp only [Held.grow, Held.zero] at hoctets' hmemory' ⊢
          congr 1
          · omega
          · omega
        · exact h.nonzero other found hfound

/-! ## Inserting changes -/

/-- Changes in capture order. -/
def InOrder (entries : List TimedChange) : Prop := entries.Pairwise fun a b => a.seq < b.seq

theorem rejoin_sums (change other : TimedChange) :
    (change.rejoin other).2.seq = change.seq ∧
      (change.rejoin other).2.octets = change.octets + (change.rejoin other).1 ∧
      change.memory ≤ (change.rejoin other).2.memory := by
  have hperm : (change.rejoin other).2.values.Perm (change.values ++ other.values) := by
    have hmerged : (change.merged other).Perm
        (change.positions.zip change.values ++ other.positions.zip other.values) :=
      List.mergeSort_perm _ _
    show (change.merged other).unzip.2.Perm _
    rw [List.unzip_eq_map]
    refine (hmerged.map Prod.snd).trans ?_
    rw [List.map_append, List.map_snd_zip (le_of_eq change.positions_length.symm),
      List.map_snd_zip (le_of_eq other.positions_length.symm)]
  have hitems : itemOctets (change.rejoin other).2.values
      = change.octets + (other.values.map valueLen).sum := by
    unfold itemOctets
    rw [(hperm.map valueLen).sum_eq, List.map_append, List.sum_append, change.octets_eq]
    unfold itemOctets
    omega
  refine ⟨rfl, ?_, ?_⟩
  · show itemOctets (change.rejoin other).2.values
      = change.octets + (itemOctets (change.rejoin other).2.values - change.octets)
    rw [hitems]
    omega
  · unfold TimedChange.memory
    rw [(hperm.map _).sum_eq, List.map_append, List.sum_append]
    omega

variable {entries : List TimedChange}

theorem split_order (horder : InOrder entries) (seq : ℕ) :
    (∀ entry ∈ entries.takeWhile fun entry => entry.seq < seq, entry.seq < seq) ∧
      ∀ entry ∈ entries.dropWhile fun entry => entry.seq < seq, seq ≤ entry.seq := by
  induction entries with
  | nil => exact ⟨fun _ h => absurd h List.not_mem_nil, fun _ h => absurd h List.not_mem_nil⟩
  | cons first rest ih =>
    obtain ⟨hfirst, hrest⟩ := List.pairwise_cons.mp horder
    by_cases hlt : first.seq < seq
    · rw [List.takeWhile_cons_of_pos (by simpa using hlt),
        List.dropWhile_cons_of_pos (by simpa using hlt)]
      refine ⟨?_, (ih hrest).2⟩
      intro entry hentry
      rcases List.mem_cons.mp hentry with rfl | hentry
      · exact hlt
      · exact (ih hrest).1 entry hentry
    · rw [List.takeWhile_cons_of_neg (by simpa using hlt),
        List.dropWhile_cons_of_neg (by simpa using hlt)]
      refine ⟨fun _ h => absurd h List.not_mem_nil, ?_⟩
      intro entry hentry
      rcases List.mem_cons.mp hentry with rfl | hentry
      · omega
      · have := hfirst entry hentry
        omega

theorem inOrder_append {front back : List TimedChange} :
    InOrder (front ++ back) ↔ InOrder front ∧ InOrder back ∧
      ∀ a ∈ front, ∀ b ∈ back, a.seq < b.seq :=
  List.pairwise_append

theorem insertIdx_length_append (front back : List TimedChange) (change : TimedChange) :
    (front ++ back).insertIdx front.length change = front ++ change :: back := by
  induction front with
  | nil => rfl
  | cons first front ih =>
    rw [List.cons_append, List.length_cons, List.insertIdx_succ_cons, ih, List.cons_append]

/-- A change goes between the older and the newer ones, or joins the part it was split from. -/
theorem insertOne_cases (horder : InOrder entries) (change : TimedChange) :
    (∃ front entry back, entries = front ++ entry :: back ∧ entry.seq = change.seq ∧
      insertOne entries change
        = (⟨(entry.rejoin { change with continues := false }).1,
            (entry.rejoin { change with continues := false }).2.memory - entry.memory⟩,
          front ++ (entry.rejoin { change with continues := false }).2 :: back)) ∨
    ∃ front back, entries = front ++ back ∧ (∀ entry ∈ front, entry.seq < change.seq) ∧
      (∀ entry ∈ back, change.seq < entry.seq) ∧
      insertOne entries change
        = (⟨change.octets, change.memory⟩, front ++ { change with continues := false } :: back) := by
  obtain ⟨hfront, hback⟩ := split_order horder change.seq
  have hsplit := List.takeWhile_append_dropWhile
    (p := fun entry : TimedChange => decide (entry.seq < change.seq)) (l := entries)
  unfold insertOne
  dsimp only
  generalize entries.takeWhile (fun entry => decide (entry.seq < change.seq)) = front
    at hfront hsplit ⊢
  generalize entries.dropWhile (fun entry => decide (entry.seq < change.seq)) = back
    at hback hsplit
  subst hsplit
  rw [List.getElem?_append_right (le_refl _), Nat.sub_self]
  cases back with
  | nil =>
    refine .inr ⟨front, [], rfl, hfront, fun _ h => absurd h List.not_mem_nil, ?_⟩
    dsimp only [List.getElem?_nil, Option.filter_none]
    rw [insertIdx_length_append]
    rfl
  | cons entry rest =>
    rw [List.getElem?_cons_zero, Option.filter_some]
    by_cases hsame : entry.seq = change.seq
    · refine .inl ⟨front, entry, rest, rfl, hsame, ?_⟩
      rw [if_pos (beq_iff_eq.mpr hsame)]
      dsimp only
      rw [List.set_append_right _ _ (le_refl _), Nat.sub_self, List.set_cons_zero]
    · refine .inr ⟨front, entry :: rest, rfl, hfront, ?_, ?_⟩
      · have hfirst := hback entry List.mem_cons_self
        intro later hlater
        rcases List.mem_cons.mp hlater with rfl | hlater
        · omega
        · have := (List.pairwise_cons.mp (inOrder_append.mp horder).2.1).1 later hlater
          omega
      · rw [if_neg (by simpa using hsame), insertIdx_length_append]
        rfl

/-- One more change keeps the order and adds its size. -/
theorem insertOne_sums (horder : InOrder entries) (change : TimedChange) :
    InOrder (insertOne entries change).2 ∧
      ((insertOne entries change).2.map (·.octets)).sum
        = (entries.map (·.octets)).sum + (insertOne entries change).1.octets ∧
      ((insertOne entries change).2.map (·.memory)).sum
        = (entries.map (·.memory)).sum + (insertOne entries change).1.memory := by
  rcases insertOne_cases horder change with ⟨front, entry, back, rfl, hsame, hinsert⟩ |
    ⟨front, back, rfl, hfront, hback, hinsert⟩
  · obtain ⟨hseq, hoctets, hmemory⟩ := rejoin_sums entry { change with continues := false }
    obtain ⟨hfrontOrder, hbackOrder, hacross⟩ := inOrder_append.mp horder
    obtain ⟨hentry, hrestOrder⟩ := List.pairwise_cons.mp hbackOrder
    rw [hinsert]
    refine ⟨inOrder_append.mpr ⟨hfrontOrder, List.pairwise_cons.mpr ⟨?_, hrestOrder⟩, ?_⟩, ?_, ?_⟩
    · intro later hlater
      rw [hseq]
      exact hentry later hlater
    · intro a ha b hb
      rcases List.mem_cons.mp hb with rfl | hb
      · rw [hseq]
        exact hacross a ha entry List.mem_cons_self
      · exact hacross a ha b (List.mem_cons_of_mem _ hb)
    · simp only [List.map_append, List.sum_append, List.map_cons, List.sum_cons]
      omega
    · simp only [List.map_append, List.sum_append, List.map_cons, List.sum_cons]
      omega
  · obtain ⟨hfrontOrder, hbackOrder, hacross⟩ := inOrder_append.mp horder
    rw [hinsert]
    refine ⟨inOrder_append.mpr ⟨hfrontOrder, List.pairwise_cons.mpr ⟨hback, hbackOrder⟩, ?_⟩, ?_, ?_⟩
    · intro a ha b hb
      rcases List.mem_cons.mp hb with rfl | hb
      · exact hfront a ha
      · exact hacross a ha b hb
    · simp only [List.map_append, List.sum_append, List.map_cons, List.sum_cons]
      omega
    · simp only [List.map_append, List.sum_append, List.map_cons, List.sum_cons]
      rw [show TimedChange.memory { change with continues := false } = change.memory from rfl]
      omega

theorem insertAll_sums (changes : List TimedChange) : ∀ {entries : List TimedChange} {added : Held},
    InOrder entries → ∃ more : Held, insertAll added entries changes
        = (added.grow more, (insertAll added entries changes).2) ∧
      InOrder (insertAll added entries changes).2 ∧
      ((insertAll added entries changes).2.map (·.octets)).sum
        = (entries.map (·.octets)).sum + more.octets ∧
      ((insertAll added entries changes).2.map (·.memory)).sum
        = (entries.map (·.memory)).sum + more.memory := by
  induction changes with
  | nil => exact fun horder => ⟨Held.zero, rfl, horder, rfl, rfl⟩
  | cons change changes ih =>
    intro entries added horder
    obtain ⟨horderOne, hoctets, hmemory⟩ := insertOne_sums horder change
    unfold insertAll
    dsimp only
    obtain ⟨more, hadded, horderAll, hoctetsAll, hmemoryAll⟩ :=
      @ih (insertOne entries change).2 (added.grow (insertOne entries change).1) horderOne
    refine ⟨(insertOne entries change).1.grow more, ?_, horderAll, ?_, ?_⟩
    · rw [hadded]
      dsimp only [Held.grow]
      rw [Nat.add_assoc, Nat.add_assoc]
    · rw [hoctetsAll, hoctets]
      exact Nat.add_assoc _ _ _
    · rw [hmemoryAll, hmemory]
      exact Nat.add_assoc _ _ _

/-! ## Sound stores -/

/-- The invariant of the store. -/
structure Sound (store : TimedHistories) : Prop where
  distinct : Pairs.Distinct store.histories
  ordered : ∀ key history, Pairs.get store.histories key = some history →
    InOrder history.entries
  terms : ∀ key history context, Pairs.get store.histories key = some history →
    key.multipleContext = some context → (Pairs.get store.terms context).isSome = true
  counted : Counted store
  intact : store.intact = true

theorem sound_new (localApdu : ℕ) : Sound (new localApdu) where
  distinct := Pairs.distinct_nil
  ordered := fun _ _ h => absurd h (by simp [new])
  terms := fun _ _ _ h => absurd h (by simp [new])
  counted := ⟨fun _ => rfl, fun _ => rfl, fun _ _ h => absurd h (by simp [new])⟩
  intact := rfl

variable {terms : List (MultipleContextKey × ContextTerms)}

theorem Sound.withTerms (h : Sound store)
    (hterms : ∀ context, (Pairs.get store.terms context).isSome = true →
      (Pairs.get terms context).isSome = true) : Sound { store with terms := terms } where
  distinct := h.distinct
  ordered := h.ordered
  terms := fun key history context hget hkey => hterms context (h.terms key history context hget hkey)
  counted := ⟨h.counted.octets, h.counted.memory, h.counted.nonzero⟩
  intact := h.intact

theorem isSome_modify (context : MultipleContextKey) (f : ContextTerms → ContextTerms)
    (other : MultipleContextKey) (h : (Pairs.get terms other).isSome = true) :
    (Pairs.get (Pairs.modify terms context f) other).isSome = true := by
  rw [Pairs.get_modify]
  split_ifs with hsame
  · subst hsame
    rw [Option.isSome_map]
    exact h
  · exact h

theorem Sound.dropped (h : Sound store) (key : CovSubscriptionKey) (count : ℕ)
    (reason : DropReason) : Sound (store.dropped key count reason) := by
  have hterms : Sound { store with terms := (store.dropped key count reason).terms } := by
    refine h.withTerms ?_
    intro context hsome
    unfold TimedHistories.dropped
    dsimp only
    split
    · exact hsome
    · exact isSome_modify _ _ _ hsome
  exact ⟨hterms.distinct, hterms.ordered, hterms.terms,
    ⟨hterms.counted.octets, hterms.counted.memory, hterms.counted.nonzero⟩, hterms.intact⟩

/-! ## What an operation leaves alone -/

@[simp] theorem release_histories (store : TimedHistories) (key : CovSubscriptionKey)
    (released : Held) : (store.release key released).histories = store.histories := by
  unfold TimedHistories.release
  split
  · rfl
  · split
    · rfl
    · rfl

@[simp] theorem release_terms (store : TimedHistories) (key : CovSubscriptionKey)
    (released : Held) : (store.release key released).terms = store.terms := by
  unfold TimedHistories.release
  split
  · rfl
  · split
    · rfl
    · rfl

@[simp] theorem release_localApdu (store : TimedHistories) (key : CovSubscriptionKey)
    (released : Held) : (store.release key released).localApdu = store.localApdu := by
  unfold TimedHistories.release
  split
  · rfl
  · split
    · rfl
    · rfl

@[simp] theorem charge_histories (store : TimedHistories) (key : CovSubscriptionKey)
    (added : Held) : (store.charge key added).histories = store.histories := by
  unfold charge
  split
  · rfl
  · split_ifs
    · rfl
    · rfl

@[simp] theorem charge_terms (store : TimedHistories) (key : CovSubscriptionKey)
    (added : Held) : (store.charge key added).terms = store.terms := by
  unfold charge
  split
  · rfl
  · split_ifs
    · rfl
    · rfl

@[simp] theorem charge_intact (store : TimedHistories) (key : CovSubscriptionKey)
    (added : Held) : (store.charge key added).intact = store.intact := by
  unfold charge
  split
  · rfl
  · split_ifs
    · rfl
    · rfl

theorem get_setHistory (hget : Pairs.get store.histories key = some history)
    (history' : TimedHistory) (other : CovSubscriptionKey) :
    Pairs.get (store.setHistory key history').histories other
      = if other = key then some history' else Pairs.get store.histories other := by
  unfold setHistory
  rw [Pairs.get_modify, hget]
  rfl

theorem distinct_setHistory (h : Pairs.Distinct store.histories) (history' : TimedHistory) :
    Pairs.Distinct (store.setHistory key history').histories := by
  show Pairs.Distinct (Pairs.modify store.histories key fun _ => history')
  exact Pairs.distinct_modify h

theorem Sound.written (h : Sound store) (hget : Pairs.get store.histories key = some history)
    (horder : InOrder history'.entries) {store' : TimedHistories}
    (hhistories : store'.histories = (store.setHistory key history').histories)
    (hterms : store'.terms = store.terms) (hcounted : Counted store')
    (hintact : store'.intact = true) : Sound store' where
  distinct := by
    rw [hhistories]
    exact distinct_setHistory h.distinct history'
  ordered := by
    intro other found hfound
    rw [hhistories, get_setHistory hget] at hfound
    split_ifs at hfound with hsame
    · cases hfound
      exact horder
    · exact h.ordered other found hfound
  terms := by
    intro other found context hfound hcontext
    rw [hhistories, get_setHistory hget] at hfound
    rw [hterms]
    split_ifs at hfound with hsame
    · subst hsame
      exact h.terms other history context hget hcontext
    · exact h.terms other found context hfound hcontext
  counted := hcounted
  intact := hintact

theorem Sound.setHistory (h : Sound store) (hget : Pairs.get store.histories key = some history)
    (hsame : history'.entries = history.entries) : Sound (store.setHistory key history') := by
  have hsize : ∀ (size : TimedChange → ℕ) context,
      sizeIn size (store.setHistory key history') context = sizeIn size store context := by
    intro size context
    have hwritten := sizeIn_setHistory size h.distinct hget history' context
    rw [hsame] at hwritten
    exact Nat.add_right_cancel hwritten
  refine h.written hget (hsame ▸ h.ordered key history hget) rfl rfl ⟨?_, ?_, ?_⟩ h.intact
  · intro context
    rw [hsize]
    exact h.counted.octets context
  · intro context
    rw [hsize]
    exact h.counted.memory context
  · exact h.counted.nonzero

theorem Sound.shrink (h : Sound store) (hget : Pairs.get store.histories key = some history)
    (horder : InOrder history'.entries)
    (hsplit : ∀ size : TimedChange → ℕ, (history.entries.map size).sum
      = (history'.entries.map size).sum + (released.map size).sum) :
    Sound ((store.setHistory key history').release key (Held.of released)) := by
  have hoff := h.counted.off_setHistory h.distinct hget hsplit
  obtain ⟨hcounted, hintact⟩ := hoff.release
  refine h.written hget horder (release_histories _ _ _) (release_terms _ _ _) hcounted ?_
  rw [hintact]
  exact h.intact

theorem Sound.take (h : Sound store) (hget : Pairs.get store.histories key = some history)
    (changes : List TimedChange)
    (hinserted : insertAll Held.zero history.entries changes = (added, entries)) :
    Sound ((store.setHistory key { history with entries := entries }).charge key added) := by
  obtain ⟨more, hadded, horder, hoctets, hmemory⟩ :=
    @insertAll_sums changes history.entries Held.zero (h.ordered key history hget)
  rw [hinserted] at hadded horder hoctets hmemory
  have hmore : added = more := by
    have hfirst := congrArg Prod.fst hadded
    dsimp only [Held.grow, Held.zero] at hfirst
    rw [hfirst, Nat.zero_add, Nat.zero_add]
  subst hmore
  refine h.written hget horder (charge_histories _ _ _) (charge_terms _ _ _) ?_ ?_
  · exact h.counted.charge_setHistory h.distinct hget hoctets hmemory
  · rw [charge_intact]
    exact h.intact

end TimedHistories

end RustyBacnet.Cov
