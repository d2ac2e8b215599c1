import RustyBacnet.Router.Table.Laws

/-!
# Runs of the table

What one operation of any kind does to each network (`step`), and what every run keeps.
-/

namespace RustyBacnet.Router.Table

variable {R H : ℕ} {table next : Table R H} {network : UInt16}

/-! ## Rejects -/

theorem modifySlot_count (change : Slot → Slot) (counted : ClaimCounters → ClaimCounters) :
    (table.count counted).modifySlot network change
      = (table.modifySlot network change).count counted := by
  have hfind : (table.count counted).find network = table.find network := rfl
  unfold modifySlot
  rw [hfind]
  split <;> rfl

theorem markRejected_count (reason : RejectMessageReason) (now : Instant) (timing : Timing)
    (counted : ClaimCounters → ClaimCounters) :
    (table.count counted).markRejected network reason now timing
      = (table.markRejected network reason now timing).count counted := by
  unfold markRejected
  split_ifs
  · exact modifySlot_count _ _
  · exact modifySlot_count _ _

theorem changed_markRejected (hv : table.Valid) (network : UInt16)
    (reason : RejectMessageReason) (now : Instant) (timing : Timing) :
    Changed table (table.markRejected network reason now timing) := by
  unfold markRejected
  split_ifs
  · exact changed_markUnreachable hv network
  · exact changed_markBusy hv network _

@[simp] theorem markRejected_counters (reason : RejectMessageReason) (now : Instant)
    (timing : Timing) :
    (table.markRejected network reason now timing).counters = table.counters := by
  unfold markRejected
  split_ifs
  · exact modifySlot_counters _
  · exact modifySlot_counters _

theorem recordHold_eq (table : Table R H) (network : UInt16) (port : PortId) (now : Instant) :
    (table.recordHold network port now).slots = table.slots
      ∧ (table.recordHold network port now).holds
        = (Holds.record H table.holds network port now).1
      ∧ (table.recordHold network port now).counters.holdEvicted
        = (if (Holds.record H table.holds network port now).2 then
            increment table.counters.holdEvicted
          else table.counters.holdEvicted)
      ∧ (table.recordHold network port now).convergence = table.convergence := by
  unfold recordHold
  dsimp only
  split_ifs
  · exact ⟨rfl, rfl, rfl, rfl⟩
  · exact ⟨rfl, rfl, rfl, rfl⟩

/-- What an applied reject does: it marks a learned route and records a hold-down. -/
structure AppliedReject (table next : Table R H) (network : UInt16) (port : PortId)
    (reason : RejectMessageReason) (now : Instant) (timing : Timing) : Prop where
  changes : ∃ slot, table.entry network = some slot ∧ rejectChanges slot.route reason now = true
  spent : ∀ since, Holds.since table.holds network port = some since →
    timing.holdDown ≤ now - since
  slots : next.slots = (table.markRejected network reason now timing).slots
  holds : next.holds = (Holds.record H table.holds network port now).1
  evicted : next.counters.holdEvicted
    = if (Holds.record H table.holds network port now).2 then increment table.counters.holdEvicted
      else table.counters.holdEvicted
  convergence : next.convergence = table.convergence

/-- A reject that is kept, dampened or about no learned route changes only counters. -/
theorem applyReject_cases (hv : table.Valid) (network : UInt16) (port : PortId)
    (reason : RejectMessageReason) (now : Instant) (timing : Timing) :
    ((table.applyReject network port reason now timing).2 ≠ .applied
      ∧ Unchanged table (table.applyReject network port reason now timing).1
      ∧ (table.applyReject network port reason now timing).1.counters.holdEvicted
        = table.counters.holdEvicted)
    ∨ (table.applyReject network port reason now timing).2 = .applied
      ∧ AppliedReject table (table.applyReject network port reason now timing).1 network port
        reason now timing := by
  unfold applyReject
  dsimp only
  split_ifs with hkept hdamp hchanges
  · exact .inl ⟨nofun, ⟨rfl, rfl, rfl⟩, rfl⟩
  · exact .inl ⟨nofun, ⟨rfl, rfl, rfl⟩, rfl⟩
  · exact .inl ⟨nofun, ⟨rfl, rfl, rfl⟩, rfl⟩
  · right
    refine ⟨rfl, ?_⟩
    simp only [Bool.or_eq_true, Bool.not_eq_true', not_or, Bool.not_eq_false] at hdamp
    obtain ⟨hchange, hheld⟩ := hdamp
    rw [markRejected_count]
    obtain ⟨hslots, hholds, hevicted, hconv⟩ := recordHold_eq
      ((table.markRejected network reason now timing).count fun c =>
        { c with rejectApplied := increment c.rejectApplied }) network port now
    have hmarked : (table.markRejected network reason now timing).holds = table.holds :=
      (changed_markRejected hv network reason now timing).holds
    refine ⟨?_, ?_, hslots, ?_, ?_, ?_⟩
    · rw [lookup_eq hv.inOrder] at hchange
      cases hslot : table.entry network with
      | none => rw [hslot] at hchange; cases hchange
      | some slot =>
        rw [hslot] at hchange
        exact ⟨slot, rfl, hchange⟩
    · intro since hsince
      rw [hsince] at hheld
      simpa using hheld
    · rw [hholds]
      show (Holds.record H (table.markRejected network reason now timing).holds _ _ _).1 = _
      rw [hmarked]
    · rw [hevicted]
      show (if (Holds.record H (table.markRejected network reason now timing).holds _ _ _).2
        then increment (table.markRejected network reason now timing).counters.holdEvicted
        else (table.markRejected network reason now timing).counters.holdEvicted) = _
      rw [hmarked, markRejected_counters]
    · rw [hconv]
      exact (changed_markRejected hv network reason now timing).convergence

variable {reason : RejectMessageReason} {port : PortId} {now : Instant} {timing : Timing}

theorem AppliedReject.learned (h : AppliedReject table next network port reason now timing) :
    ∃ slot, table.entry network = some slot ∧ slot.route.direct = false := by
  obtain ⟨slot, hslot, hchange⟩ := h.changes
  refine ⟨slot, hslot, ?_⟩
  unfold rejectChanges at hchange
  rw [Bool.and_eq_true, Bool.not_eq_true'] at hchange
  exact hchange.1

theorem AppliedReject.changed (h : AppliedReject table next network port reason now timing)
    (hv : table.Valid) : ∃ marked : Table R H, Changed table marked ∧ next.slots = marked.slots :=
  ⟨_, changed_markRejected hv network reason now timing, h.slots⟩

theorem AppliedReject.valid (h : AppliedReject table next network port reason now timing)
    (hv : table.Valid) : next.Valid := by
  obtain ⟨marked, hchanged, hslots⟩ := h.changed hv
  have hm := hchanged.valid hv
  refine ⟨?_, ?_, ?_, ?_, ?_, ?_⟩
  · rw [InOrder, hslots]
    exact hm.inOrder
  · rw [len, hslots]
    exact hm.room
  · rw [hslots]
    exact hm.slots
  · rw [h.holds]
    exact Holds.record_length hv.holdsRoom
  · rw [h.holds, hslots]
    intro hold hmem
    rcases Holds.record_mem hmem with rfl | hmem
    · obtain ⟨slot, hslot, hlearned⟩ := h.learned
      have hrel := hchanged.entry network
      rw [hslot] at hrel
      cases hafter : marked.entry network with
      | none => rw [hafter] at hrel; cases hrel
      | some after =>
        rw [hafter] at hrel
        cases hrel with
        | some hkept =>
          exact ⟨after, entry_mem hafter, entry_network hafter, by rw [hkept.direct, hlearned]⟩
    · exact hm.holdsLearned hold (hchanged.holds ▸ hmem)
  · rw [h.holds]
    exact Holds.record_apart hv.holdsApart

/-! ## One operation -/

/-- The network and time of an operation that learns a route. -/
def learnsAt : TableOp → Option (UInt16 × Instant)
  | .addLearned network _ _ now => some (network, now)
  | .learn network _ _ now => some (network, now)
  | .applyClaim network _ _ now _ => some (network, now)
  | .applyManagementUpdate network _ _ now => some (network, now)
  | _ => none

/-- What an operation that renews a network leaves for it. -/
inductive Renewed (table : Table R H) (op : TableOp) (network : UInt16) : Option Slot → Prop
  | learned {route : Route} {port : PortId} {nextHop : Mac} {now : Instant} :
      learnsAt op = some (network, now) →
      (∀ slot, table.entry network = some slot → slot.route.direct = false) →
      route.Fresh port nextHop now → Renewed table op network (some ⟨network, route, none⟩)
  | attached {port : PortId} : op = .addDirect network port →
      Renewed table op network (some ⟨network, .directVia port, none⟩)
  | removed : op = .remove network → Renewed table op network none
  | dropped {slot : Slot} : table.entry network = some slot → slot.route.direct = false →
      Renewed table op network none

/-- A call of `apply_reject`. -/
def isReject : TableOp → Bool
  | .applyReject _ _ _ _ _ => true
  | _ => false

/-- What one operation does to every network and to the hold-down records. -/
structure Step (table : Table R H) (op : TableOp) (next : Table R H) : Prop where
  valid : next.Valid
  kept : ∀ m, table.renews op m = false → Option.Rel Slot.Kept (table.entry m) (next.entry m)
  renewed : ∀ m, table.renews op m = true → Renewed table op m (next.entry m)
  holds : isReject op = false →
    next.holds = table.holds.filter fun hold => !table.renews op hold.network

theorem step_of_update {op : TableOp} {entry : Option Slot} (hvalid : next.Valid)
    (hentry : next.entry = Function.update table.entry network entry)
    (hholds : next.holds = forget table.holds network) (hrenewed : Renewed table op network entry)
    (hrenews : ∀ m, table.renews op m = (network == m)) : Step table op next where
  valid := hvalid
  kept := by
    intro m hm
    rw [hrenews, beq_eq_false_iff_ne] at hm
    rw [hentry, Function.update_of_ne (Ne.symm hm)]
    exact rel_refl _
  renewed := by
    intro m hm
    rw [hrenews, beq_iff_eq] at hm
    subst hm
    rw [hentry, Function.update_self]
    exact hrenewed
  holds := by
    intro _
    rw [hholds, forget_eq]
    congr 1
    funext hold
    rw [hrenews, bne, BEq.comm]

section Step

variable (hv : table.Valid) {op : TableOp}

include hv

theorem step_of_changed (h : Changed table next) (hrenews : ∀ m, table.renews op m = false) :
    Step table op next where
  valid := h.valid hv
  kept := fun m _ => h.entry m
  renewed := by
    intro m hm
    rw [hrenews m] at hm
    cases hm
  holds := by
    intro _
    rw [h.holds, eq_comm, List.filter_eq_self]
    intro hold _
    rw [hrenews]
    rfl

theorem step_of_unchanged (h : Unchanged table next) (hrenews : ∀ m, table.renews op m = false) :
    Step table op next :=
  step_of_changed hv (h.changed hv.inOrder) hrenews

theorem step_of_stored {nextHop : Mac} (h : Stored table next network port nextHop now)
    (hlearns : learnsAt op = some (network, now))
    (hrenews : ∀ m, table.renews op m = (network == m)) : Step table op next := by
  obtain ⟨route, hfresh, hentry⟩ := h.entry
  exact step_of_update (h.valid hv) hentry h.holds (.learned hlearns h.learned hfresh) hrenews

theorem step_addLearned (network : UInt16) (port : PortId) (nextHop : Mac) (now : Instant)
    (hlearns : learnsAt op = some (network, now))
    (hrenews : ∀ m, table.renews op m
      = (network == m && (table.addLearned network port nextHop now).2)) :
    Step table op (table.addLearned network port nextHop now).1 := by
  rcases addLearned_cases hv network port nextHop now with ⟨hflag, hstored⟩ | ⟨hflag, hsame⟩
  · refine step_of_stored hv hstored hlearns ?_
    intro m
    rw [hrenews, hflag, Bool.and_true]
  · refine step_of_unchanged hv hsame ?_
    intro m
    rw [hrenews, hflag, Bool.and_false]

theorem step_remove (network : UInt16) (hrenews : ∀ m, table.renews op m
      = (network == m && (table.entry network).isSome))
    (hremoved : op = .remove network
      ∨ ∀ slot, table.entry network = some slot → slot.route.direct = false) :
    Step table op (table.remove network).1 := by
  cases hslot : table.entry network with
  | none =>
    rw [remove_none hv.inOrder hslot]
    refine step_of_unchanged hv (.refl table) ?_
    intro m
    rw [hrenews, hslot]
    exact Bool.and_false _
  | some slot =>
    obtain ⟨-, -, hentry, -⟩ := remove_eq hv.inOrder network
    refine step_of_update (valid_remove hv network) hentry (remove_holds hv.inOrder hslot) ?_ ?_
    · rcases hremoved with hop | hlearned
      · exact .removed hop
      · exact .dropped hslot (hlearned slot hslot)
    · intro m
      rw [hrenews, hslot]
      exact Bool.and_true _

theorem applyManagementRemoval_cases (network : UInt16) :
    ((∃ slot, table.entry network = some slot ∧ slot.route.direct = false)
      ∧ (table.applyManagementRemoval network).2 = true
      ∧ (table.applyManagementRemoval network).1 = (table.remove network).1)
    ∨ (table.applyManagementRemoval network).2 = false
      ∧ (table.applyManagementRemoval network).1 = table := by
  unfold applyManagementRemoval
  rw [lookup_eq hv.inOrder]
  split_ifs with hlearned
  · left
    cases hslot : table.entry network with
    | none => rw [hslot] at hlearned; cases hlearned
    | some slot =>
      rw [hslot] at hlearned
      refine ⟨⟨slot, rfl, by simpa using hlearned⟩, ?_, rfl⟩
      dsimp only
      rw [(remove_eq hv.inOrder network).1, hslot]
      rfl
  · exact .inr ⟨rfl, rfl⟩

theorem step_purgeStale (now : Instant) (maxAge : Duration) :
    Step table (.purgeStale now maxAge) (table.purgeStale now maxAge).1 := by
  obtain ⟨hin, hentry, -⟩ := purgeStale_eq hv.inOrder now maxAge
  have hrenews : ∀ m, table.renews (.purgeStale now maxAge) m
      = (table.purgeStale now maxAge).2.contains m := fun _ => rfl
  refine ⟨valid_purgeStale hv now maxAge, ?_, ?_, ?_⟩
  · intro m hm
    have hnot : m ∉ (table.purgeStale now maxAge).2 := by
      rw [hrenews] at hm
      simpa using hm
    rw [hv.inOrder.mem_purged] at hnot
    rw [hentry]
    dsimp only
    cases hslot : table.entry m with
    | none => exact .none
    | some slot =>
      rw [Option.filter_some, if_pos]
      · exact rel_refl _
      · by_contra hstale
        exact hnot ⟨slot, hslot, by simpa using hstale⟩
  · intro m hm
    rw [hrenews, List.contains_iff_mem, hv.inOrder.mem_purged] at hm
    obtain ⟨slot, hslot, hstale⟩ := hm
    have hlearned : slot.route.direct = false := by
      unfold Route.stale at hstale
      rw [Bool.and_eq_true, Bool.not_eq_true'] at hstale
      exact hstale.1
    have hnone : (table.purgeStale now maxAge).1.entry m = none := by
      rw [hentry]
      dsimp only
      rw [hslot, Option.filter_some, if_neg]
      simpa using hstale
    rw [hnone]
    exact .dropped hslot hlearned
  · intro _
    exact purgeStale_holds table now maxAge

theorem step_applyReject (network : UInt16) (port : PortId) (reason : RejectMessageReason)
    (now : Instant) (timing : Timing) :
    Step table (.applyReject network port reason now timing)
      (table.applyReject network port reason now timing).1 := by
  rcases applyReject_cases hv network port reason now timing with ⟨-, hsame, -⟩ | ⟨-, happlied⟩
  · exact step_of_unchanged hv hsame fun _ => rfl
  · obtain ⟨marked, hchanged, hslots⟩ := happlied.changed hv
    refine ⟨happlied.valid hv, ?_, nofun, nofun⟩
    intro m _
    have hentry : (table.applyReject network port reason now timing).1.entry m = marked.entry m := by
      rw [entry, entry, hslots]
    rw [hentry]
    exact hchanged.entry m

/-- What any operation does. -/
theorem step (op : TableOp) : Step table op (table.apply op).1 := by
  cases op with
  | setConvergence convergence =>
    refine ⟨⟨hv.inOrder, hv.room, hv.slots, hv.holdsRoom, hv.holdsLearned, hv.holdsApart⟩, ?_,
      nofun, ?_⟩
    · intro m _
      exact rel_refl _
    · intro _
      simp [apply, setConvergence, renews]
  | remove network =>
    refine step_remove hv network ?_ (.inl rfl)
    intro m
    show (network == m && (table.remove network).2.isSome) = _
    rw [(remove_eq hv.inOrder network).1, Option.isSome_map]
  | addDirect network port =>
    have hrenews : ∀ m, table.renews (.addDirect network port) m
        = (network == m && (table.addDirect network port).2) := fun _ => rfl
    rcases addDirect_cases hv network port with ⟨hflag, -, -, -, hentry, hholds⟩ | ⟨hflag, hsame⟩
    · refine step_of_update (valid_addDirect hv network port) hentry hholds (.attached rfl) ?_
      intro m
      rw [hrenews, hflag, Bool.and_true]
    · refine step_of_unchanged hv hsame ?_
      intro m
      rw [hrenews, hflag, Bool.and_false]
  | addLearned network port nextHop now =>
    exact step_addLearned hv network port nextHop now rfl fun _ => rfl
  | markBusy network deadline =>
    exact step_of_changed hv (changed_markBusy hv network deadline) fun _ => rfl
  | markAvailable network =>
    exact step_of_changed hv (changed_markAvailable hv network) fun _ => rfl
  | markBusyViaPeer port peer deadline =>
    exact step_of_changed hv (changed_markBusyViaPeer hv port peer deadline) fun _ => rfl
  | markAvailableViaPeer port peer =>
    exact step_of_changed hv (changed_markAvailableViaPeer hv port peer) fun _ => rfl
  | markUnreachable network =>
    exact step_of_changed hv (changed_markUnreachable hv network) fun _ => rfl
  | clearExpiredBusy now =>
    exact step_of_changed hv (changed_clearExpiredBusy hv now) fun _ => rfl
  | touch network now => exact step_of_changed hv (changed_touch hv network now) fun _ => rfl
  | purgeStale now maxAge => exact step_purgeStale hv now maxAge
  | applyClaim network port nextHop now timing =>
    have hrenews : ∀ m, table.renews (.applyClaim network port nextHop now timing) m
        = (network == m && (table.applyClaim network port nextHop now timing).2.isApplied) :=
      fun _ => rfl
    rcases applyClaim_cases hv network port nextHop now timing with
      ⟨happlied, hstored⟩ | ⟨⟨refusal, hrefused⟩, hsame⟩ | ⟨hheld, hclaim⟩
    · refine step_of_stored hv hstored rfl ?_
      intro m
      rw [hrenews, happlied, Bool.and_true]
    · refine step_of_unchanged hv hsame ?_
      intro m
      rw [hrenews, hrefused]
      exact Bool.and_false _
    · refine step_of_changed hv hclaim.changed ?_
      intro m
      rw [hrenews, hheld]
      exact Bool.and_false _
  | learn network port nextHop now =>
    have hrenews : ∀ m, table.renews (.learn network port nextHop now) m
        = (network == m && (table.learn network port nextHop now).2.isApplied) := fun _ => rfl
    rcases learn_cases hv network port nextHop now with
      ⟨happlied, hstored⟩ | ⟨⟨refusal, hrefused⟩, hsame⟩
    · refine step_of_stored hv hstored rfl ?_
      intro m
      rw [hrenews, happlied, Bool.and_true]
    · refine step_of_unchanged hv hsame ?_
      intro m
      rw [hrenews, hrefused]
      exact Bool.and_false _
  | expirePending now timing =>
    exact step_of_changed hv (changed_expirePending hv now timing) fun _ => rfl
  | applyManagementUpdate network port nextHop now =>
    exact step_addLearned hv network port nextHop now rfl fun _ => rfl
  | applyManagementRemoval network =>
    have hrenews : ∀ m, table.renews (.applyManagementRemoval network) m
        = (network == m && (table.applyManagementRemoval network).2) := fun _ => rfl
    show Step table _ (table.applyManagementRemoval network).1
    rcases applyManagementRemoval_cases hv network with
      ⟨⟨slot, hslot, hlearned⟩, hflag, hremoved⟩ | ⟨hflag, hsame⟩
    · rw [hremoved]
      refine step_remove hv network ?_ (.inr ?_)
      · intro m
        rw [hrenews, hflag, hslot]
        rfl
      · intro other hother
        rw [hslot] at hother
        cases hother
        exact hlearned
    · rw [hsame]
      refine step_of_unchanged hv (.refl table) ?_
      intro m
      rw [hrenews, hflag, Bool.and_false]
  | applyReject network port reason now timing =>
    exact step_applyReject hv network port reason now timing

/-- A refused operation changes at most counters. -/
theorem unchanged_of_refused (op : TableOp) (h : (table.apply op).2.refused = true) :
    Unchanged table (table.apply op).1 := by
  cases op with
  | remove network =>
    cases hslot : table.entry network with
    | none =>
      show Unchanged table (table.remove network).1
      rw [remove_none hv.inOrder hslot]
      exact .refl table
    | some slot =>
      have hremoved := (remove_eq hv.inOrder network).1
      rw [hslot] at hremoved
      simp [apply, TableOutcome.refused, hremoved] at h
  | addDirect network port =>
    rcases addDirect_cases hv network port with ⟨hflag, -⟩ | ⟨-, hsame⟩
    · simp [apply, TableOutcome.refused, hflag] at h
    · exact hsame
  | addLearned network port nextHop now =>
    rcases addLearned_cases hv network port nextHop now with ⟨hflag, -⟩ | ⟨-, hsame⟩
    · simp [apply, TableOutcome.refused, hflag] at h
    · exact hsame
  | applyManagementUpdate network port nextHop now =>
    rcases addLearned_cases hv network port nextHop now with ⟨hflag, -⟩ | ⟨-, hsame⟩
    · simp [apply, TableOutcome.refused, applyManagementUpdate, hflag] at h
    · exact hsame
  | applyManagementRemoval network =>
    rcases applyManagementRemoval_cases hv network with ⟨-, hflag, -⟩ | ⟨-, hsame⟩
    · simp [apply, TableOutcome.refused, hflag] at h
    · show Unchanged table (table.applyManagementRemoval network).1
      rw [hsame]
      exact .refl table
  | learn network port nextHop now =>
    rcases learn_cases hv network port nextHop now with ⟨happlied, -⟩ | ⟨-, hsame⟩
    · exfalso
      revert h happlied
      simp only [apply, TableOutcome.refused]
      cases (table.learn network port nextHop now).2 <;> simp [Learned.isApplied]
    · exact hsame
  | applyClaim network port nextHop now timing =>
    rcases applyClaim_cases hv network port nextHop now timing with
      ⟨happlied, -⟩ | ⟨-, hsame⟩ | ⟨hheld, -⟩
    · exfalso
      revert h happlied
      simp only [apply, TableOutcome.refused]
      cases (table.applyClaim network port nextHop now timing).2 <;> simp [Learned.isApplied]
    · exact hsame
    · simp [apply, TableOutcome.refused, hheld] at h
  | _ => simp [apply, TableOutcome.refused] at h

end Step

/-! ## Whole runs -/

theorem valid_run (ops : List TableOp) (hv : table.Valid) : (table.run ops).Valid := by
  induction ops generalizing table with
  | nil => exact hv
  | cons op ops ih => exact ih (step hv op).valid

variable {slot : Slot}

/-- A direct route stays as it is, but for the two operations that write any route. -/
theorem Step.direct_kept {op : TableOp} (h : Step table op next)
    (hslot : table.entry network = some slot) (hdirect : slot.route.direct = true)
    (hremove : op ≠ .remove network) (hadd : ∀ port, op ≠ .addDirect network port) :
    next.entry network = some slot := by
  cases hrenews : table.renews op network with
  | false =>
    have hrel := h.kept network hrenews
    rw [hslot] at hrel
    cases hnext : next.entry network with
    | none => rw [hnext] at hrel; cases hrel
    | some after =>
      rw [hnext] at hrel
      cases hrel with
      | some hkept => rw [hkept.eq_of_direct hdirect]
  | true =>
    have hrenewed := h.renewed network hrenews
    generalize next.entry network = after at hrenewed
    cases hrenewed with
    | learned _ hlearned _ =>
      have := hlearned slot hslot
      rw [hdirect] at this
      cases this
    | attached hop => exact absurd hop (hadd _)
    | removed hop => exact absurd hop hremove
    | dropped hother hlearned =>
      rw [hslot] at hother
      cases hother
      rw [hdirect] at hlearned
      cases hlearned

theorem Step.lastSeen_kept {op : TableOp} {seen : Instant} (h : Step table op next)
    (hslot : next.entry network = some slot) (hseen : slot.route.lastSeen = some seen) :
    learnsAt op = some (network, seen)
      ∨ ∃ old, table.entry network = some old ∧ old.route.lastSeen = some seen := by
  cases hrenews : table.renews op network with
  | false =>
    have hrel := h.kept network hrenews
    rw [hslot] at hrel
    cases hold : table.entry network with
    | none => rw [hold] at hrel; cases hrel
    | some old =>
      rw [hold] at hrel
      cases hrel with
      | some hkept => exact .inr ⟨old, rfl, by rw [← hkept.lastSeen, hseen]⟩
  | true =>
    have hrenewed := h.renewed network hrenews
    rw [hslot] at hrenewed
    cases hrenewed with
    | learned hop _ hfresh =>
      rw [hfresh.lastSeen] at hseen
      cases hseen
      exact .inl hop
    | attached hop => cases hseen

/-- The slots and records a purge leaves. -/
theorem purgeStale_kept (hv : table.Valid) (now : Instant) (maxAge : Duration) :
    (table.purgeStale now maxAge).1.slots
        = (table.slots.filter fun slot =>
          slot.route.direct || slot.route.lastSeen.all fun seen => now - seen ≤ maxAge)
      ∧ (table.purgeStale now maxAge).1.holds
        = table.holds.filter fun hold =>
          (table.purgeStale now maxAge).1.slots.any fun slot => slot.network == hold.network := by
  have hslots : (table.purgeStale now maxAge).1.slots
      = table.slots.filter fun slot => !slot.route.stale now maxAge :=
    Swaps.compact_eq_filter _ _
  constructor
  · rw [hslots]
    apply List.filter_congr
    intro slot _
    unfold Route.stale
    cases slot.route.direct with
    | true => rfl
    | false =>
      cases slot.route.lastSeen with
      | none => rfl
      | some seen =>
        simp only [Bool.not_false, Bool.true_and, Option.any_some, Bool.false_or, Option.all_some]
        rw [← decide_not]
        exact decide_eq_decide.mpr Nat.not_lt
  · rw [purgeStale_holds]
    apply List.filter_congr
    intro hold hmem
    obtain ⟨slot, hslot, hnet, -⟩ := hv.holdsLearned hold hmem
    have hentry : table.entry hold.network = some slot := hnet ▸ hv.inOrder.entry_of_mem hslot
    rw [hslots, Bool.eq_iff_iff, Bool.not_eq_true', List.any_eq_true]
    have hcontains : (table.purgeStale now maxAge).2.contains hold.network = false
        ↔ slot.route.stale now maxAge = false := by
      rw [← Bool.not_eq_true, List.contains_iff_mem, hv.inOrder.mem_purged, hentry,
        ← Bool.not_eq_true]
      simp
    rw [hcontains]
    constructor
    · intro hfresh
      refine ⟨slot, List.mem_filter.mpr ⟨hslot, by rw [hfresh]; rfl⟩, ?_⟩
      rw [hnet]
      exact beq_self_eq_true _
    · rintro ⟨other, hother, hsame⟩
      obtain ⟨hother, hfresh⟩ := List.mem_filter.mp hother
      have hoe := hv.inOrder.entry_of_mem hother
      rw [beq_iff_eq.mp hsame, hentry] at hoe
      cases hoe
      simpa using hfresh

/-- What every run of operations keeps, and what one more operation can do. -/
theorem table_contract (R H : ℕ) (ops : List TableOp) :
    let table : Table R H := new.run ops
    (table.slots.Pairwise fun a b => a.network < b.network)
      ∧ table.slots.length ≤ R
      ∧ (∀ slot ∈ table.slots, slot.network ≠ 0 ∧ slot.network ≠ 0xFFFF
        ∧ (slot.route.busyUntil.isSome = true → slot.route.reachability = .busy)
        ∧ (slot.pending.isSome = true → slot.route.direct = false)
        ∧ (slot.route.direct = false → slot.route.lastSeen.isSome = true))
      ∧ (∀ hold ∈ table.holds,
        ∃ slot ∈ table.slots, slot.network = hold.network ∧ slot.route.direct = false)
      ∧ (table.holds.map fun hold => (hold.network, hold.port)).Nodup
      ∧ (∀ now maxAge,
        (table.purgeStale now maxAge).1.slots
            = (table.slots.filter fun slot =>
              slot.route.direct || slot.route.lastSeen.all fun seen => now - seen ≤ maxAge)
          ∧ (table.purgeStale now maxAge).1.holds
            = table.holds.filter fun hold =>
              (table.purgeStale now maxAge).1.slots.any fun slot =>
                slot.network == hold.network)
      ∧ ∀ op,
        (∀ slot ∈ table.slots, slot.route.direct = true → op ≠ .remove slot.network →
          (∀ port, op ≠ .addDirect slot.network port) → slot ∈ (table.apply op).1.slots)
        ∧ (∀ slot ∈ (table.apply op).1.slots, ∀ seen, slot.route.lastSeen = some seen →
          learnsAt op = some (slot.network, seen)
            ∨ ∃ old ∈ table.slots,
              old.network = slot.network ∧ old.route.lastSeen = some seen)
        ∧ ((table.apply op).2.refused = true →
          (table.apply op).1.slots = table.slots ∧ (table.apply op).1.holds = table.holds) := by
  intro table
  have hv : table.Valid := valid_run ops valid_new
  refine ⟨?_, hv.room, ?_, hv.holdsLearned, hv.holdsApart, ?_, ?_⟩
  · refine hv.inOrder.imp ?_
    intro a b hab
    exact UInt16.lt_iff_toNat_lt.mpr hab
  · intro slot hslot
    have hs := hv.slots slot hslot
    have husable := hs.usable
    simp only [isReserved, Bool.or_eq_false_iff, beq_eq_false_iff_ne] at husable
    refine ⟨husable.1, husable.2, hs.busy.mp, ?_, ?_⟩
    · intro hpending
      by_contra hdirect
      rw [(hs.direct (by simpa using hdirect)).2] at hpending
      cases hpending
    · intro hlearned
      have hseen := hs.seen
      rw [hlearned] at hseen
      simpa using hseen.symm
  · intro now maxAge
    exact purgeStale_kept hv now maxAge
  · intro op
    have hstep := step hv op
    refine ⟨?_, ?_, ?_⟩
    · intro slot hslot hdirect hremove hadd
      exact entry_mem (hstep.direct_kept (hv.inOrder.entry_of_mem hslot) hdirect hremove hadd)
    · intro slot hslot seen hseen
      rcases hstep.lastSeen_kept (hstep.valid.inOrder.entry_of_mem hslot) hseen with
        hlearns | ⟨old, hold, holdSeen⟩
      · exact .inl hlearns
      · exact .inr ⟨old, entry_mem hold, entry_network hold, holdSeen⟩
    · intro hrefused
      have hsame := unchanged_of_refused hv op hrefused
      exact ⟨hsame.slots, hsame.holds⟩

end RustyBacnet.Router.Table
