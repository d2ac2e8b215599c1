import RustyBacnet.Cov.TimedReturns

/-!
# Pending changes are found

A claim is split by its oldest changes, which loses none of them, or by the values of a change, of
which those too large for any notification are given up. When every value of a reference's newest
change is, nothing is left of that change, and older ones that are pending or claimed then wait for
an end that does not come. Every other run keeps pending changes found.
-/

namespace RustyBacnet.Cov

open TimedHistories

variable {store store' : TimedHistories} {key : CovSubscriptionKey}
  {history history' : TimedHistory} {parts parts' : Parts}

/-! ## Claims that are split -/

theorem Kept.reparts (h : Kept store parts) (hclaims : ∀ part ∈ parts', PartOk store part)
    (hsettled : ∀ key history, Pairs.get store.histories key = some history →
      Settled parts key history → Settled parts' key history) : Kept store parts' :=
  ⟨h.sound, h.next, h.histories, hclaims,
    fun key history hget => hsettled key history hget (h.settled key history hget)⟩

theorem Kept.congr (h : Kept store parts) (hsame : ∀ part, part ∈ parts' ↔ part ∈ parts) :
    Kept store parts' :=
  h.reparts (fun part hpart => h.claims part ((hsame part).mp hpart))
    fun _ _ _ hsettled => hsettled.others fun part _ _ => hsame part

variable {part : CovSubscriptionKey × ℕ × List TimedChange}

theorem PartOk.some (h : PartOk store part) {changes : List TimedChange}
    (hsublist : changes.Sublist part.2.2) (hnonempty : changes ≠ []) :
    PartOk store (part.1, part.2.1, changes) where
  nonempty := hnonempty
  order := h.order.sublist hsublist
  shape := by
    rcases h.shape with hwhole | ⟨change, hsingle⟩
    · exact .inl fun change hmem => hwhole change (hsublist.subset hmem)
    · rw [hsingle] at hsublist
      refine .inr ⟨change, ?_⟩
      exact (List.sublist_singleton.mp hsublist).resolve_left hnonempty
  fresh := fun change hmem => h.fresh change (hsublist.subset hmem)
  incarnation := h.incarnation
  live := fun history hget hsame change hmem =>
    h.live history hget hsame change (hsublist.subset hmem)

/-- A split claim's parts are parts of its own, and no change is lost. -/
theorem splitOldest_parts (claim : TimedClaim) (count : ℕ)
    (hnonempty : ∀ part ∈ claim.changes, part.2.2 ≠ []) :
    (∀ part ∈ (claim.splitOldest count).2.changes ++ (claim.splitOldest count).1.changes,
      ∃ whole ∈ claim.changes, part.1 = whole.1 ∧ part.2.1 = whole.2.1 ∧
        part.2.2.Sublist whole.2.2 ∧ part.2.2 ≠ []) ∧
    ∀ whole ∈ claim.changes, ∀ change ∈ whole.2.2,
      ∃ part ∈ (claim.splitOldest count).2.changes ++ (claim.splitOldest count).1.changes,
        part.1 = whole.1 ∧ part.2.1 = whole.2.1 ∧ change ∈ part.2.2 := by
  unfold TimedClaim.splitOldest
  dsimp only
  cases hlast : (claim.inOrder.take (min count claim.inOrder.length)).getLast? with
  | none =>
    dsimp only
    rw [List.append_nil]
    exact ⟨fun part hpart => ⟨part, hpart, rfl, rfl, List.Sublist.refl _, hnonempty part hpart⟩,
      fun whole hwhole change hmem => ⟨whole, hwhole, rfl, rfl, hmem⟩⟩
  | some last =>
    dsimp only
    have hpiece : ∀ (f : List TimedChange → List TimedChange),
        (∀ changes, (f changes).Sublist changes) → ∀ part ∈ (claim.changes.map fun part =>
          (part.1, part.2.1, f part.2.2)).filter fun part => !part.2.2.isEmpty,
        ∃ whole ∈ claim.changes, part.1 = whole.1 ∧ part.2.1 = whole.2.1 ∧
          part.2.2.Sublist whole.2.2 ∧ part.2.2 ≠ [] := by
      intro f hf part hpart
      obtain ⟨hmem, hkept⟩ := List.mem_filter.mp hpart
      obtain ⟨whole, hwhole, rfl⟩ := List.mem_map.mp hmem
      refine ⟨whole, hwhole, rfl, rfl, hf _, ?_⟩
      intro hempty
      rw [hempty] at hkept
      exact Bool.false_ne_true hkept
    have hfound : ∀ (f : List TimedChange → List TimedChange), ∀ whole ∈ claim.changes,
        ∀ change ∈ f whole.2.2, (whole.1, whole.2.1, f whole.2.2) ∈ (claim.changes.map fun part =>
          (part.1, part.2.1, f part.2.2)).filter fun part => !part.2.2.isEmpty := by
      intro f whole hwhole change hmem
      refine List.mem_filter.mpr ⟨List.mem_map_of_mem hwhole, ?_⟩
      rw [Bool.not_eq_true', ← Bool.not_eq_true, List.isEmpty_iff]
      exact List.ne_nil_of_mem hmem
    constructor
    · intro part hpart
      rcases List.mem_append.mp hpart with hkept | hmoved
      · exact hpiece (fun changes => changes.dropWhile fun change => change.seq ≤ last.2.2.seq)
          (fun _ => List.dropWhile_sublist _) part hkept
      · exact hpiece (fun changes => changes.takeWhile fun change => change.seq ≤ last.2.2.seq)
          (fun _ => List.takeWhile_sublist _) part hmoved
    · intro whole hwhole change hmem
      have hsplit := List.takeWhile_append_dropWhile
        (p := fun change : TimedChange => decide (change.seq ≤ last.2.2.seq)) (l := whole.2.2)
      rw [← hsplit] at hmem
      rcases List.mem_append.mp hmem with hmoved | hkept
      · exact ⟨_, List.mem_append_right _ (hfound (fun changes => changes.takeWhile fun change =>
          change.seq ≤ last.2.2.seq) whole hwhole change hmoved), rfl, rfl, hmoved⟩
      · exact ⟨_, List.mem_append_left _ (hfound (fun changes => changes.dropWhile fun change =>
          change.seq ≤ last.2.2.seq) whole hwhole change hkept), rfl, rfl, hkept⟩

/-- Changes of a claim shared out anew leave a history settled, if its newest change among them
does. -/
theorem Settled.reparted {wholes pieces : Parts} (h : Settled (wholes ++ parts) key history)
    (hpieces : ∀ piece ∈ pieces, ∃ whole ∈ wholes, whole.1 = piece.1 ∧ whole.2.1 = piece.2.1)
    (hclaimed : ∀ change, Claimed wholes key history.incarnation change →
      change.seq = history.latest → change.continues = false →
      Settled (pieces ++ parts) key history) :
    Settled (pieces ++ parts) key history := by
  cases h with
  | delivered hcommitted => exact .delivered hcommitted
  | pending change hmem hnewest => exact .pending change hmem hnewest
  | claimed change hheld hnewest hwhole =>
    obtain ⟨part, hpart, hkey, hincarnation, hmem⟩ := hheld
    rcases List.mem_append.mp hpart with hclaim | hold
    · exact hclaimed change ⟨part, hclaim, hkey, hincarnation, hmem⟩ hnewest hwhole
    · exact .claimed change ⟨part, List.mem_append_right _ hold, hkey, hincarnation, hmem⟩ hnewest
        hwhole
  | idle hempty hunclaimed =>
    refine .idle hempty ?_
    intro part hpart hkey hincarnation
    rcases List.mem_append.mp hpart with hpiece | hold
    · obtain ⟨whole, hwhole, hkey', hincarnation'⟩ := hpieces part hpiece
      exact hunclaimed whole (List.mem_append_left _ hwhole) (hkey'.trans hkey)
        (hincarnation'.trans hincarnation)
    · exact hunclaimed part (List.mem_append_right _ hold) hkey hincarnation

theorem Kept.splitOldest {claim : TimedClaim} (h : Kept store (claim.changes ++ parts))
    (count : ℕ) : Kept store ((claim.splitOldest count).2.changes
      ++ (claim.splitOldest count).1.changes ++ parts) := by
  obtain ⟨hpieces, hfound⟩ := splitOldest_parts claim count fun part hpart =>
    (h.claims part (List.mem_append_left _ hpart)).nonempty
  refine h.reparts ?_ ?_
  · intro part hpart
    rcases List.mem_append.mp hpart with hpiece | hold
    · obtain ⟨whole, hwhole, hkey, hincarnation, hsublist, hnonempty⟩ := hpieces part hpiece
      have hsome := (h.claims whole (List.mem_append_left _ hwhole)).some hsublist hnonempty
      rw [← hkey, ← hincarnation] at hsome
      exact hsome
    · exact h.claims part (List.mem_append_right _ hold)
  · intro key history _ hsettled
    refine hsettled.reparted (fun piece hpiece => ?_) fun change hclaimed hnewest hwhole => ?_
    · obtain ⟨whole, hmem, hkey, hincarnation, -, -⟩ := hpieces piece hpiece
      exact ⟨whole, hmem, hkey.symm, hincarnation.symm⟩
    · obtain ⟨part, hclaim, hkey, hincarnation, hmem⟩ := hclaimed
      obtain ⟨piece, hpiece, hkey', hincarnation', hmem'⟩ := hfound part hclaim change hmem
      exact .claimed change ⟨piece, List.mem_append_left _ hpiece, hkey'.trans hkey,
        hincarnation'.trans hincarnation, hmem'⟩ hnewest hwhole

/-- The values kept of a change are parts of it, and the last one delivers it. -/
theorem keptValues_spec (fit : CovSubscriptionKey → TimedChange → ValueFit)
    (key : CovSubscriptionKey) (change : TimedChange) :
    (∀ value ∈ TimedClaim.keptValues fit key change, value.seq = change.seq) ∧
      (TimedClaim.keptValues fit key change ≠ [] →
        ∃ value ∈ TimedClaim.keptValues fit key change, value.continues = false) := by
  unfold TimedClaim.keptValues
  generalize hkept : (change.intoValues.filter fun value => fit key value = .fits) = kept
  have hseq : ∀ value ∈ kept, value.seq = change.seq := by
    intro value hmem
    rw [← hkept] at hmem
    obtain ⟨hmem, -⟩ := List.mem_filter.mp hmem
    obtain ⟨pair, -, rfl⟩ := List.mem_map.mp hmem
    rfl
  constructor
  · intro value hmem
    obtain ⟨at_, hat, rfl⟩ := List.mem_mapIdx.mp hmem
    have hvalue := hseq _ (List.getElem_mem hat)
    by_cases hlast : at_ + 1 = kept.length
    · rw [if_pos hlast]
      exact hvalue
    · rw [if_neg hlast]
      exact hvalue
  · intro hsome
    have hlength : kept.length - 1 < kept.length := by
      have hpositive : 0 < kept.length := by
        refine List.length_pos_iff.mpr ?_
        rintro rfl
        exact hsome rfl
      omega
    refine ⟨_, List.mem_mapIdx.mpr ⟨kept.length - 1, hlength, rfl⟩, ?_⟩
    rw [if_pos (by omega)]

theorem mem_inOrder {claim : TimedClaim} {found : CovSubscriptionKey × ℕ × TimedChange} :
    found ∈ claim.inOrder ↔
      ∃ part ∈ claim.changes, found.1 = part.1 ∧ found.2.1 = part.2.1 ∧ found.2.2 ∈ part.2.2 := by
  unfold TimedClaim.inOrder
  rw [(List.mergeSort_perm _ _).mem_iff, List.mem_flatMap]
  constructor
  · rintro ⟨part, hpart, hmem⟩
    obtain ⟨change, hchange, rfl⟩ := List.mem_map.mp hmem
    exact ⟨part, hpart, rfl, rfl, hchange⟩
  · rintro ⟨part, hpart, hkey, hincarnation, hmem⟩
    refine ⟨part, hpart, List.mem_map.mpr ⟨found.2.2, hmem, ?_⟩⟩
    rw [← hkey, ← hincarnation]

def valueParts (claim : TimedClaim) (fit : CovSubscriptionKey → TimedChange → ValueFit) : Parts :=
  (claim.splitValues fit).1.flatMap TimedClaim.changes

theorem mem_valueParts {claim : TimedClaim} {fit : CovSubscriptionKey → TimedChange → ValueFit} :
    part ∈ valueParts claim fit ↔ ∃ found ∈ claim.inOrder,
      ∃ value ∈ TimedClaim.keptValues fit found.1 found.2.2,
        part = (found.1, found.2.1, [value]) := by
  unfold valueParts TimedClaim.splitValues
  rw [List.mem_flatMap]
  constructor
  · rintro ⟨claim', hclaim', hmem⟩
    obtain ⟨found, hfound, hvalues⟩ := List.mem_flatMap.mp hclaim'
    obtain ⟨value, hvalue, rfl⟩ := List.mem_map.mp hvalues
    exact ⟨found, hfound, value, hvalue, List.mem_singleton.mp hmem⟩
  · rintro ⟨found, hfound, value, hvalue, rfl⟩
    exact ⟨_, List.mem_flatMap.mpr ⟨found, hfound, List.mem_map_of_mem hvalue⟩,
      List.mem_singleton_self _⟩

/-- A claim's newest change of a reference of which no value is kept. -/
def GivesUp (claim : TimedClaim) (fit : CovSubscriptionKey → TimedChange → ValueFit)
    (key : CovSubscriptionKey) (history : TimedHistory) : Prop :=
  ∃ change, Claimed claim.changes key history.incarnation change ∧ change.seq = history.latest ∧
    TimedClaim.keptValues fit key change = []

/-- A claim is split by value, and no newest change is given up before the older ones. -/
theorem Kept.splitValues {claim : TimedClaim} (h : Kept store (claim.changes ++ parts))
    (fit : CovSubscriptionKey → TimedChange → ValueFit)
    (hspares : ∀ key history, Pairs.get store.histories key = some history →
      GivesUp claim fit key history →
      history.entries = [] ∧ Unclaimed (valueParts claim fit ++ parts) key history.incarnation) :
    Kept store (valueParts claim fit ++ parts) := by
  have horigin : ∀ part ∈ valueParts claim fit, ∃ whole ∈ claim.changes, ∃ change ∈ whole.2.2,
      ∃ value, part = (whole.1, whole.2.1, [value]) ∧ value.seq = change.seq := by
    intro part hpart
    obtain ⟨found, hfound, value, hvalue, rfl⟩ := mem_valueParts.mp hpart
    obtain ⟨whole, hwhole, hkey, hincarnation, hmem⟩ := mem_inOrder.mp hfound
    refine ⟨whole, hwhole, found.2.2, hmem, value, ?_, (keptValues_spec fit _ _).1 value hvalue⟩
    rw [hkey, hincarnation]
  refine h.reparts ?_ ?_
  · intro part hpart
    rcases List.mem_append.mp hpart with hnew | hold
    · obtain ⟨whole, hwhole, change, hmem, value, rfl, hseq⟩ := horigin part hnew
      have hok := h.claims whole (List.mem_append_left _ hwhole)
      refine ⟨List.cons_ne_nil _ _, List.pairwise_singleton _ _, .inr ⟨value, rfl⟩, ?_,
        hok.incarnation, ?_⟩
      · intro found hfound
        rw [List.mem_singleton.mp hfound, hseq]
        exact hok.fresh change hmem
      · intro history hget hsame found hfound
        rw [List.mem_singleton.mp hfound, hseq]
        exact hok.live history hget hsame change hmem
    · exact h.claims part (List.mem_append_right _ hold)
  · intro key history hget hsettled
    refine hsettled.reparted (fun piece hpiece => ?_) fun change hclaimed hnewest _ => ?_
    · obtain ⟨whole, hwhole, change, -, value, rfl, -⟩ := horigin piece hpiece
      exact ⟨whole, hwhole, rfl, rfl⟩
    · by_cases hkept : TimedClaim.keptValues fit key change = []
      · obtain ⟨hempty, hunclaimed⟩ := hspares key history hget ⟨change, hclaimed, hnewest, hkept⟩
        exact .idle hempty hunclaimed
      · obtain ⟨part, hclaim, hkey, hincarnation, hmem⟩ := hclaimed
        obtain ⟨hseqs, hlast⟩ := keptValues_spec fit key change
        obtain ⟨value, hvalue, hcontinues⟩ := hlast hkept
        refine .claimed value ⟨(key, history.incarnation, [value]), ?_, rfl, rfl,
          List.mem_singleton_self _⟩ ((hseqs value hvalue).trans hnewest) hcontinues
        refine List.mem_append_left _ (mem_valueParts.mpr
          ⟨(key, history.incarnation, change), ?_, value, hvalue, rfl⟩)
        exact mem_inOrder.mpr ⟨part, hclaim, hkey.symm, hincarnation.symm, hmem⟩

/-! ## Runs -/

/-- The condition on one step: a claim that is split by value gives up no reference's newest change
while older ones of it are pending or claimed. -/
def SparesOlder (run : TimedRun) (op : ReportOp) : Prop :=
  ∀ index fit claim, op = .splitValues index fit → run.claims[index]? = some claim →
    ∀ key history, Pairs.get run.store.histories key = some history →
      GivesUp claim fit key history →
      history.entries = [] ∧ Unclaimed (run.report op).parts key history.incarnation

variable {run : TimedRun} {index : ℕ} {claim : TimedClaim}

theorem mem_parts (hclaim : run.claims[index]? = some claim) :
    part ∈ run.parts ↔
      part ∈ claim.changes ++ (run.claims.eraseIdx index).flatMap TimedClaim.changes := by
  obtain ⟨hindex, rfl⟩ := List.getElem?_eq_some_iff.mp hclaim
  rw [← List.flatMap_cons]
  exact ((List.getElem_cons_eraseIdx_perm hindex).flatMap_right _).mem_iff.symm

theorem mem_parts_set (hclaim : run.claims[index]? = some claim) (claim' : TimedClaim) :
    part ∈ (run.claims.set index claim').flatMap TimedClaim.changes ↔
      part ∈ claim'.changes ++ (run.claims.eraseIdx index).flatMap TimedClaim.changes := by
  obtain ⟨hindex, -⟩ := List.getElem?_eq_some_iff.mp hclaim
  rw [← List.flatMap_cons]
  exact ((List.set_perm_cons_eraseIdx hindex claim').flatMap_right _).mem_iff

/-- Every step keeps what is found, under the condition. -/
theorem kept_report (op : ReportOp) (h : Kept run.store run.parts) (hspares : SparesOlder run op) :
    Kept (run.report op).store (run.report op).parts := by
  have hwith : ∀ index (f : TimedClaim → TimedRun),
      (∀ claim, run.claims[index]? = some claim → Kept run.store
        (claim.changes ++ (run.claims.eraseIdx index).flatMap TimedClaim.changes) →
        Kept (f claim).store (f claim).parts) →
      Kept (run.withClaim index f).store (run.withClaim index f).parts := by
    intro index f hf
    unfold TimedRun.withClaim
    cases hclaim : run.claims[index]? with
    | none => exact h
    | some claim => exact hf claim hclaim (h.congr fun part => (mem_parts hclaim).symm)
  cases op with
  | reset key generation => exact h.reset key generation
  | remove key => exact h.remove key
  | setSizing context subscriber timeRemaining =>
    exact h.trimmed (sound_setSizing h.sound context subscriber timeRemaining) (.of_eq rfl rfl rfl)
  | noteReserve context octets =>
    exact h.trimmed (sound_noteReserve h.sound context octets) (.of_eq rfl rfl rfl)
  | fieldTime =>
    have hsound : Sound { run.store with nextSeq := run.store.nextSeq + 1 } :=
      ⟨h.sound.distinct, h.sound.ordered, h.sound.terms, ⟨h.sound.counted.octets,
        h.sound.counted.memory, h.sound.counted.nonzero⟩, h.sound.intact⟩
    exact h.later hsound rfl (Nat.le_succ _) le_rfl
  | push key generation captured => exact h.push key generation captured.change
  | newClaim =>
    refine h.congr fun part => ?_
    show part ∈ (run.claims ++ [TimedClaim.new]).flatMap TimedClaim.changes ↔ _
    rw [List.flatMap_append, List.flatMap_singleton]
    exact (List.append_nil _).symm ▸ Iff.rfl
  | take index key generation current =>
    refine hwith index _ fun claim hclaim hkept => ?_
    refine (hkept.takeChanges key generation current).congr fun part => ?_
    refine (mem_parts_set hclaim _).trans ?_
    unfold TimedClaim.add takenParts
    split_ifs
    · exact Iff.rfl
    · rw [List.append_assoc, List.mem_append, List.mem_append, List.mem_append, List.mem_append]
      exact or_left_comm
  | withoutEviction index =>
    refine hwith index _ fun claim hclaim hkept => ?_
    exact hkept.congr fun part => mem_parts_set hclaim _
  | splitOldest index count =>
    refine hwith index _ fun claim hclaim hkept => ?_
    refine (hkept.splitOldest count).congr fun part => ?_
    show part ∈ (run.claims.set index (claim.splitOldest count).2
      ++ [(claim.splitOldest count).1]).flatMap TimedClaim.changes ↔ _
    rw [List.flatMap_append, List.flatMap_singleton, List.mem_append, mem_parts_set hclaim,
      List.mem_append, List.mem_append, List.mem_append]
    exact or_right_comm
  | splitValues index fit =>
    refine hwith index _ fun claim hclaim hkept => ?_
    have hparts : ∀ part, part ∈ TimedRun.parts
        ⟨(claim.splitValues fit).2.foldl (fun store key => store.dropped key 1 .tooLarge) run.store,
          run.claims.eraseIdx index ++ (claim.splitValues fit).1⟩ ↔
        part ∈ valueParts claim fit
          ++ (run.claims.eraseIdx index).flatMap TimedClaim.changes := by
      intro part
      unfold TimedRun.parts valueParts
      rw [List.flatMap_append, List.mem_append, List.mem_append]
      exact Or.comm
    have hsplit : Kept run.store (valueParts claim fit
        ++ (run.claims.eraseIdx index).flatMap TimedClaim.changes) := by
      refine hkept.splitValues fit fun key history hget hgives => ?_
      obtain ⟨hempty, hunclaimed⟩ := hspares index fit claim rfl hclaim key history hget hgives
      refine ⟨hempty, fun part hpart => hunclaimed part ?_⟩
      have hsome : run.report (.splitValues index fit) = ⟨(claim.splitValues fit).2.foldl
          (fun store key => store.dropped key 1 .tooLarge) run.store,
          run.claims.eraseIdx index ++ (claim.splitValues fit).1⟩ := by
        show run.withClaim index _ = _
        unfold TimedRun.withClaim
        rw [hclaim]
      rw [hsome]
      exact (hparts part).mpr hpart
    refine Kept.congr ?_ hparts
    refine Runs.invariant (fun store => Kept store _) ?_ _ hsplit
    exact fun store key h => h.dropped key 1 .tooLarge
  | goingOut index => exact hwith index _ fun claim _ _ => h.goingOut claim
  | commitClaim index => exact hwith index _ fun claim _ hkept => hkept.commitClaim
  | dropClaim index => exact hwith index _ fun claim _ hkept => hkept.dropClaim

/-- The condition on a whole run. -/
def SparesOlderRun (localApdu : ℕ) (ops : List ReportOp) : Prop :=
  ∀ before op after, ops = before ++ op :: after →
    SparesOlder ((TimedRun.new localApdu).reports before) op

def ReportOp.splits : ReportOp → Bool
  | .splitValues _ _ => true
  | _ => false

theorem sparesOlderRun_append {localApdu : ℕ} {before after : List ReportOp} {op : ReportOp}
    (hbefore : ∀ op ∈ before, op.splits = false) (hafter : ∀ op ∈ after, op.splits = false)
    (h : SparesOlder ((TimedRun.new localApdu).reports before) op) :
    SparesOlderRun localApdu (before ++ op :: after) := by
  intro first found last hsplit
  cases hsplits : found.splits with
  | false =>
    intro index fit claim hfound
    rw [hfound] at hsplits
    cases hsplits
  | true =>
    rcases List.append_eq_append_iff.mp hsplit with
      ⟨_ | ⟨_, rest⟩, hfirst, hlast⟩ | ⟨_ | ⟨_, rest⟩, hfirst, hlast⟩
    · obtain ⟨rfl, -⟩ := List.cons.inj hlast
      rwa [hfirst, List.append_nil]
    · refine absurd (hafter found ?_) (by rw [hsplits]; decide)
      rw [(List.cons.inj hlast).2]
      exact List.mem_append_right _ List.mem_cons_self
    · obtain ⟨rfl, -⟩ := List.cons.inj hlast
      rwa [hfirst, List.append_nil] at h
    · refine absurd (hbefore found ?_) (by rw [hsplits]; decide)
      rw [hfirst, (List.cons.inj hlast).1]
      exact List.mem_append_right _ List.mem_cons_self

theorem kept_reports (localApdu : ℕ) (ops : List ReportOp) (hspares : SparesOlderRun localApdu ops) :
    Kept ((TimedRun.new localApdu).reports ops).store
      ((TimedRun.new localApdu).reports ops).parts := by
  induction ops using List.reverseRecOn with
  | nil =>
    refine ⟨sound_new localApdu, ⟨le_rfl, le_rfl⟩, ?_, ?_, ?_⟩
    · exact fun key history hget => nomatch hget
    · exact fun part hpart => absurd hpart List.not_mem_nil
    · exact fun key history hget => nomatch hget
  | append_singleton ops op ih =>
    unfold TimedRun.reports at ih ⊢
    rw [List.foldl_append]
    refine kept_report op (ih ?_) (hspares ops op [] rfl)
    intro before op' after hsplit
    refine hspares before op' (after ++ [op]) ?_
    rw [hsplit, List.append_assoc]
    rfl

theorem Kept.found (h : Kept store parts) (hget : Pairs.get store.histories key = some history)
    (hunclaimed : Unclaimed parts key history.incarnation) :
    (store.drain key history.generation).1 = (history.incarnation, history.entries) := by
  have hok := h.histories key history hget
  have hlive : store.history key history.generation = some history := by
    unfold TimedHistories.history
    rw [hget]
    exact Option.filter_eq_some_iff.mpr ⟨rfl, beq_self_eq_true _⟩
  rcases drain_live hlive with ⟨newest, hnewest, hheld, -⟩ | ⟨-, hdrain⟩
  · have hmem := List.mem_of_getLast? hnewest
    cases h.settled key history hget with
    | delivered hcommitted =>
      have hbounds := hok.bounds newest hmem
      omega
    | pending change hchange hseq =>
      obtain ⟨last, hlast, -, hle⟩ := newest_getLast (h.sound.ordered key history hget) hchange
      rw [hnewest, Option.some.injEq] at hlast
      rw [← hlast] at hle
      omega
    | claimed change hclaimed _ _ =>
      obtain ⟨part, hpart, hkey, hincarnation, -⟩ := hclaimed
      exact absurd hincarnation (hunclaimed part hpart hkey)
    | idle hempty _ =>
      rw [hempty] at hmem
      exact absurd hmem List.not_mem_nil
  · rw [hdrain]

/-- Pending changes without a claim outstanding are found, by a drain and by the report of a due
context, in every run that gives up no newest change before the older ones. -/
theorem pending_changes_found (localApdu : ℕ) (ops : List ReportOp)
    (hspares : SparesOlderRun localApdu ops) (key : CovSubscriptionKey) (history : TimedHistory)
    (hget : Pairs.get ((TimedRun.new localApdu).reports ops).store.histories key = some history)
    (hunclaimed : Unclaimed ((TimedRun.new localApdu).reports ops).parts key history.incarnation) :
    (((TimedRun.new localApdu).reports ops).store.drain key history.generation).1
        = (history.incarnation, history.entries) ∧
      ∀ deadlines now,
        key ∈ (((TimedRun.new localApdu).reports ops).store.takeDue deadlines now).1.1 →
        (((TimedRun.new localApdu).reports ops).store.drain key history.generation).1.2 ≠ [] := by
  have hkept := kept_reports localApdu ops hspares
  have hfound := hkept.found hget hunclaimed
  refine ⟨hfound, ?_⟩
  intro deadlines now hdue
  obtain ⟨found, hgetFound, hpending⟩ := takeDue_pending hkept.sound.distinct hdue
  rw [hget, Option.some.injEq] at hgetFound
  rw [hfound, hgetFound]
  exact hpending

/-! ## A newest change that fits no notification -/

/-- An unconfirmed context of a subscriber at station 5. -/
def stationFive : MultipleContextKey := ⟨.direct [5], 1, false⟩

def characterString : CovSubscriptionKey :=
  .multiple stationFive ⟨40, 1, by decide, Encoding.instanceOne_le⟩ 85 none

def text (octets : ℕ) : Captured :=
  ⟨⟨⟨126, 6, 1, 1⟩, ⟨12, 0, 0, 0⟩⟩, [⟨85, none, List.replicate octets 0x41, none⟩]⟩

/-- A subscriber whose notifications have room for 40 octets of items. -/
def smallNotification (_ : CovSubscriptionKey) (value : TimedChange) : ValueFit :=
  if value.octets ≤ 40 then .fits else .tooLarge

/-- A report takes a change of 4 octets, and a newest one. -/
def takeBoth (newest : Captured) : List ReportOp :=
  [.reset characterString 1, .push characterString 1 (text 4), .push characterString 1 newest,
    .newClaim, .take 0 characterString 1 none]

/-- A change of two values, of which one is too large. -/
def mixed : Captured := ⟨(text 20).frame, (text 20).values ++ (text 60).values⟩

theorem takeBoth_claims : ((TimedRun.new 1476).reports (takeBoth mixed)).claims
    = [⟨[(characterString, 1,
      [{ (text 4).change with seq := 1 }, { mixed.change with seq := 2 }])], true⟩] := rfl

theorem inOrder_two {incarnation : ℕ} {first second : TimedChange} (evict : Bool)
    (h : first.seq < second.seq) :
    TimedClaim.inOrder ⟨[(key, incarnation, [first, second])], evict⟩
      = [(key, incarnation, first), (key, incarnation, second)] :=
  List.mergeSort_of_pairwise (List.pairwise_pair.mpr (decide_eq_true h.le))

/-- The two are split by value, the newest is kept without its second value, and both are returned. -/
theorem split_changes_found :
    let run := (TimedRun.new 1476).reports (takeBoth mixed
      ++ [.splitValues 0 smallNotification, .dropClaim 0, .dropClaim 0])
    let drained := (run.store.drain characterString 1).1
    drained.1 = 1 ∧ drained.2.map (fun change => (change.seq, change.values))
      = [(1, (text 4).change.values), (2, (text 20).change.values)] := by
  intro run drained
  have hrun : run = (((TimedRun.new 1476).reports (takeBoth mixed)).report
      (.splitValues 0 smallNotification)).reports [.dropClaim 0, .dropClaim 0] := rfl
  have hfacts : run.parts.length = 0 ∧ (Pairs.get run.store.histories characterString).map
      (fun history => (history.generation, history.incarnation,
        history.entries.map fun change => (change.seq, change.values)))
      = some (1, 1, [(1, (text 4).change.values), (2, (text 20).change.values)]) := by
    rw [hrun]
    unfold TimedRun.report TimedRun.perform TimedRun.withClaim
    rw [takeBoth_claims]
    dsimp only [List.getElem?_cons_zero]
    unfold TimedClaim.splitValues
    rw [inOrder_two true (by decide)]
    decide +kernel
  obtain ⟨hparts, hhistory⟩ := hfacts
  obtain ⟨history, hget, hfields⟩ := Option.map_eq_some_iff.mp hhistory
  simp only [Prod.mk.injEq] at hfields
  obtain ⟨hgeneration, hincarnation, hentries⟩ := hfields
  have hfound := (pending_changes_found 1476 _
    (sparesOlderRun_append (by decide) (by decide) ?_) _ history hget ?_).1
  · rw [hgeneration] at hfound
    unfold drained
    rw [hfound]
    exact ⟨hincarnation, hentries⟩
  · intro index fit claim hop hclaim key history hget hgives
    cases hop
    rw [takeBoth_claims] at hclaim
    obtain rfl := Option.some.inj hclaim
    obtain ⟨change, ⟨part, hpart, rfl, -, hmem⟩, -, hkept⟩ := hgives
    obtain rfl := List.mem_singleton.mp hpart
    rcases List.mem_pair.mp hmem with rfl | rfl
    · exact absurd hkept (by decide +kernel)
    · exact absurd hkept (by decide +kernel)
  · rw [List.length_eq_zero_iff.mp hparts]
    exact fun part hpart => absurd hpart List.not_mem_nil

theorem report_splitOldest (hclaims : run.claims = [claim]) (count : ℕ) :
    run.report (.splitOldest 0 count)
      = ⟨run.store, [(claim.splitOldest count).2, (claim.splitOldest count).1]⟩ := by
  unfold TimedRun.report TimedRun.perform
  unfold TimedRun.withClaim
  rw [hclaims]
  rfl

theorem splitOldest_two {incarnation : ℕ} {first second : TimedChange} (evict : Bool)
    (h : first.seq < second.seq) :
    TimedClaim.splitOldest ⟨[(key, incarnation, [first, second])], evict⟩ 1
      = (⟨[(key, incarnation, [first])], evict⟩, ⟨[(key, incarnation, [second])], evict⟩) := by
  unfold TimedClaim.splitOldest
  rw [inOrder_two evict h]
  simp [h]

/-- A report took two changes, the newest of them too large. -/
def bothTaken : TimedRun := (TimedRun.new 1476).reports (takeBoth (text 60))

theorem bothTaken_claims : bothTaken.claims = [⟨[(characterString, 1,
    [{ (text 4).change with seq := 1 }, { (text 60).change with seq := 2 }])], true⟩] := rfl

/-- The newest is given up, and the notification of the other fails. -/
def newestGivenUp : List ReportOp :=
  [.reset characterString 1, .push characterString 1 (text 4), .push characterString 1 (text 60),
    .newClaim, .take 0 characterString 1 none, .splitOldest 0 1, .splitValues 0 smallNotification,
    .dropClaim 0]

theorem newestGivenUp_eq : (TimedRun.new 1476).reports newestGivenUp
    = (⟨bothTaken.store, [⟨[(characterString, 1, [{ (text 60).change with seq := 2 }])], true⟩,
        ⟨[(characterString, 1, [{ (text 4).change with seq := 1 }])], true⟩]⟩ : TimedRun).reports
      [.splitValues 0 smallNotification, .dropClaim 0] := by
  have hsplit := report_splitOldest bothTaken_claims 1
  rw [splitOldest_two true (by decide)] at hsplit
  have hrun : (TimedRun.new 1476).reports newestGivenUp = bothTaken.reports
      [.splitOldest 0 1, .splitValues 0 smallNotification, .dropClaim 0] := by
    unfold bothTaken takeBoth TimedRun.reports
    rw [← List.foldl_append]
    rfl
  rw [hrun]
  unfold TimedRun.reports
  rw [List.foldl_cons, hsplit]

/-- The older change is pending with no claim outstanding, and no drain finds it. -/
theorem older_change_stranded :
    ∃ history, Pairs.get ((TimedRun.new 1476).reports newestGivenUp).store.histories
        characterString = some history ∧
      Unclaimed ((TimedRun.new 1476).reports newestGivenUp).parts characterString
        history.incarnation ∧
      history.entries ≠ [] ∧
      (((TimedRun.new 1476).reports newestGivenUp).store.drain characterString
        history.generation).1 ≠ (history.incarnation, history.entries) := by
  have hfacts : ((TimedRun.new 1476).reports newestGivenUp).parts.length = 0 ∧
      (((TimedRun.new 1476).reports newestGivenUp).store.drain characterString 1).1.2.length = 0 ∧
      ((Pairs.get ((TimedRun.new 1476).reports newestGivenUp).store.histories characterString).map
        fun history => (history.generation, history.entries.length)) = some (1, 1) := by
    rw [newestGivenUp_eq]
    decide +kernel
  obtain ⟨hparts, hdrain, hhistory⟩ := hfacts
  obtain ⟨history, hget, hsizes⟩ := Option.map_eq_some_iff.mp hhistory
  obtain ⟨hgeneration, hlength⟩ := Prod.ext_iff.mp hsizes
  dsimp only at hgeneration hlength
  refine ⟨history, hget, ?_, ?_, ?_⟩
  · rw [List.length_eq_zero_iff.mp hparts]
    exact fun part hpart => absurd hpart List.not_mem_nil
  · intro hempty
    rw [hempty] at hlength
    exact absurd hlength (by decide)
  · rw [hgeneration]
    intro hfound
    rw [hfound, hlength] at hdrain
    exact absurd hdrain (by decide)

end RustyBacnet.Cov
