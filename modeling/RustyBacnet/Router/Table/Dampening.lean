import RustyBacnet.Router.Table.Contract

/-!
# Reject dampening

A reject that changes a route leaves a hold-down record for its network and arrival port. Until the
network's route is renewed or a record is evicted the record stays, with a time no earlier than the
reject's (`Held`), and while it is younger than the hold-down no reject for the same network and
port is applied.
-/

namespace RustyBacnet.Router

/-! ## Records -/

namespace Holds

variable {H : ℕ} {holds : List Hold} {network other : UInt16} {port port' : PortId}
  {now : Instant}

theorem since_filter (keep : UInt16 → Bool) (h : keep network = true) :
    since (holds.filter fun hold => keep hold.network) network port
      = since holds network port := by
  unfold since
  rw [List.find?_filter]
  congr 2
  funext hold
  cases hfor : isFor network port hold with
  | false => simp
  | true =>
    have hkey : hold.key = (network, port) := by simpa [isFor] using hfor
    have hnet : hold.network = network := congrArg Prod.fst hkey
    simp [hnet, h]

theorem since_set_self {index : ℕ} (hlt : index < holds.length)
    (hfirst : ∀ hold ∈ holds.take index, isFor network port hold = false) :
    since (holds.set index ⟨network, port, now⟩) network port = some now := by
  unfold since
  rw [List.set_eq_take_append_cons_drop, if_pos hlt, List.find?_append]
  have hnone : (holds.take index).find? (isFor network port) = none := by
    rw [List.find?_eq_none]
    intro hold hmem
    rw [hfirst hold hmem]
    exact Bool.false_ne_true
  rw [hnone, Option.none_or, List.find?_cons_of_pos (by simp [isFor, Hold.key])]
  rfl

/-- Recording a hold-down starts it now, when the pool has room for any record. -/
theorem since_record_self (hH : 0 < H) (hroom : holds.length ≤ H) :
    since (record H holds network port now).1 network port = some now := by
  unfold record
  split
  · rename_i index hfind
    obtain ⟨hlt, -, hbefore⟩ := List.findIdx?_eq_some_iff_getElem.mp hfind
    refine since_set_self hlt ?_
    intro hold hmem
    obtain ⟨i, hi, rfl⟩ := List.getElem_of_mem hmem
    rw [List.length_take] at hi
    rw [List.getElem_take]
    simpa using hbefore i (by omega)
  · rename_i hfind
    rw [List.findIdx?_eq_none_iff] at hfind
    split_ifs with hlt
    · unfold since
      rw [List.find?_append]
      have hnone : holds.find? (isFor network port) = none := by
        rw [List.find?_eq_none]
        intro hold hmem
        rw [hfind hold hmem]
        exact Bool.false_ne_true
      rw [hnone, Option.none_or]
      simp [isFor, Hold.key]
    · split
      · rename_i index hold
        have hindex : index < holds.length := by
          unfold oldest at hold
          rw [Option.map_eq_some_iff] at hold
          obtain ⟨least, hleast, rfl⟩ := hold
          have hmem := List.min?_mem hleast
          simpa using List.idxOf_lt_length_of_mem hmem
        refine since_set_self hindex ?_
        intro hold hmem
        exact hfind hold (List.mem_of_mem_take hmem)
      · rename_i hnone
        exfalso
        unfold oldest at hnone
        rw [Option.map_eq_none_iff, List.min?_eq_none_iff, List.map_eq_nil_iff] at hnone
        subst hnone
        exact hlt hH

theorem since_record_of_ne (hne : (other, port') ≠ (network, port))
    (hkept : (record H holds other port' now).2 = false) :
    since (record H holds other port' now).1 network port = since holds network port := by
  have hnot : isFor network port ⟨other, port', now⟩ = false := by
    simpa [isFor, Hold.key] using hne
  unfold record at hkept ⊢
  dsimp only at hkept ⊢
  split at hkept
  · rename_i index hfind
    obtain ⟨hlt, hkey, -⟩ := List.findIdx?_eq_some_iff_getElem.mp hfind
    have hold : isFor network port holds[index] = false := by
      have : holds[index].key = (other, port') := by simpa [isFor] using hkey
      rw [isFor, this]
      simpa using hne
    unfold since
    congr 1
    rw [List.set_eq_take_append_cons_drop, if_pos hlt, List.find?_append,
      List.find?_cons_of_neg (by rw [hnot]; exact Bool.false_ne_true)]
    conv_rhs => rw [← List.take_append_drop index holds, List.drop_eq_getElem_cons hlt,
      List.find?_append, List.find?_cons_of_neg (by rw [hold]; exact Bool.false_ne_true)]
  · split_ifs at hkept ⊢ with hlt
    · unfold since
      rw [List.find?_append, List.find?_cons_of_neg (by rw [hnot]; exact Bool.false_ne_true)]
      simp
    · split at hkept <;> cases hkept

end Holds

namespace Table

variable {R H : ℕ} {table : Table R H} {network : UInt16} {port : PortId}

/-! ## The count of evictions -/

@[simp] theorem withHolds_counters (holds : List Hold) :
    (table.withHolds holds).counters = table.counters := rfl

theorem addLearned_counters (port : PortId) (nextHop : Mac) (now : Instant) :
    (table.addLearned network port nextHop now).1.counters = table.counters := by
  unfold addLearned
  dsimp only
  split_ifs
  · rfl
  · rfl
  · rw [put_counters, withHolds_counters]

theorem warnFlap_holdEvicted (counters : ClaimCounters) (flaps : ℕ) :
    (warnFlap counters flaps).holdEvicted = counters.holdEvicted := by
  unfold warnFlap
  split_ifs <;> rfl

theorem learn_holdEvicted (port : PortId) (nextHop : Mac) (now : Instant) :
    (table.learn network port nextHop now).1.counters.holdEvicted
      = table.counters.holdEvicted := by
  have hplace : (table.learnInPlace network port nextHop now).1.counters = table.counters :=
    addLearned_counters port nextHop now
  unfold learn
  split_ifs
  · rfl
  · split
    · split_ifs
      · rfl
      · rw [put_counters, withHolds_counters]
        exact warnFlap_holdEvicted _ _
      · rw [hplace]
    · rw [hplace]

theorem setPending_counters (pending : Option Pending) :
    (table.setPending network pending).counters = table.counters := modifySlot_counters _

theorem countExpired_holdEvicted (expired : Bool) :
    (table.countExpired expired).counters.holdEvicted = table.counters.holdEvicted := by
  unfold countExpired
  split_ifs <;> rfl

theorem applyClaim_holdEvicted (port : PortId) (nextHop : Mac) (now : Instant) (timing : Timing) :
    (table.applyClaim network port nextHop now timing).1.counters.holdEvicted
      = table.counters.holdEvicted := by
  unfold applyClaim
  split
  · exact learn_holdEvicted port nextHop now
  · dsimp only
    split_ifs
    · rw [learn_holdEvicted, setPending_counters]
    · rw [learn_holdEvicted]
      exact (countExpired_holdEvicted _).trans (congrArg _ (setPending_counters none))
    · show ((countExpired _ _).setPending network _).counters.holdEvicted = _
      rw [setPending_counters, countExpired_holdEvicted, setPending_counters]
    · rw [learn_holdEvicted, countExpired_holdEvicted, setPending_counters]

theorem remove_counters : (table.remove network).1.counters = table.counters := by
  unfold remove
  split <;> rfl

variable {op : TableOp}

theorem apply_holdEvicted (h : isReject op = false) :
    (table.apply op).1.counters.holdEvicted = table.counters.holdEvicted := by
  cases op with
  | remove network => exact congrArg _ remove_counters
  | addDirect network port =>
    show (table.addDirect network port).1.counters.holdEvicted = _
    unfold addDirect
    split_ifs
    · rfl
    · rw [put_counters, withHolds_counters]
  | addLearned network port nextHop now => exact congrArg _ (addLearned_counters port nextHop now)
  | applyManagementUpdate network port nextHop now =>
    exact congrArg _ (addLearned_counters port nextHop now)
  | applyManagementRemoval network =>
    show (table.applyManagementRemoval network).1.counters.holdEvicted = _
    unfold applyManagementRemoval
    split_ifs
    · exact congrArg _ remove_counters
    · rfl
  | learn network port nextHop now => exact learn_holdEvicted port nextHop now
  | applyClaim network port nextHop now timing => exact applyClaim_holdEvicted port nextHop now timing
  | markBusy network deadline => exact congrArg _ (modifySlot_counters _)
  | markAvailable network => exact congrArg _ (modifySlot_counters _)
  | markUnreachable network => exact congrArg _ (modifySlot_counters _)
  | touch network now => exact congrArg _ (modifySlot_counters _)
  | applyReject network port reason now timing => cases h
  | _ => rfl

theorem le_increment {n : ℕ} (h : n ≤ u64Max) : n ≤ increment n :=
  Nat.le_min.mpr ⟨Nat.le_succ n, h⟩

theorem holdEvicted_le_apply (hv : table.Valid) (op : TableOp)
    (hmax : table.counters.holdEvicted ≤ u64Max) :
    table.counters.holdEvicted ≤ (table.apply op).1.counters.holdEvicted
      ∧ (table.apply op).1.counters.holdEvicted ≤ u64Max := by
  cases hop : isReject op with
  | false =>
    rw [apply_holdEvicted hop]
    exact ⟨Nat.le_refl _, hmax⟩
  | true =>
    cases op with
    | applyReject network port reason now timing =>
      show _ ≤ (table.applyReject network port reason now timing).1.counters.holdEvicted
        ∧ (table.applyReject network port reason now timing).1.counters.holdEvicted ≤ u64Max
      rcases applyReject_cases hv network port reason now timing with
        ⟨-, -, hsame⟩ | ⟨-, happlied⟩
      · rw [hsame]
        exact ⟨Nat.le_refl _, hmax⟩
      · rw [happlied.evicted]
        split_ifs
        · exact ⟨le_increment hmax, Nat.min_le_right _ _⟩
        · exact ⟨Nat.le_refl _, hmax⟩
    | _ => cases hop

theorem holdEvicted_le_run (hv : table.Valid) (ops : List TableOp)
    (hmax : table.counters.holdEvicted ≤ u64Max) :
    table.counters.holdEvicted ≤ (table.run ops).counters.holdEvicted
      ∧ (table.run ops).counters.holdEvicted ≤ u64Max := by
  induction ops generalizing table with
  | nil => exact ⟨Nat.le_refl _, hmax⟩
  | cons op ops ih =>
    obtain ⟨hle, hmax⟩ := holdEvicted_le_apply hv op hmax
    obtain ⟨hle', hmax'⟩ := ih (step hv op).valid hmax
    exact ⟨hle.trans hle', hmax'⟩

/-! ## A hold-down stays -/

def opTime : TableOp → Option Instant
  | .addLearned _ _ _ now => some now
  | .clearExpiredBusy now => some now
  | .touch _ now => some now
  | .purgeStale now _ => some now
  | .applyClaim _ _ _ now _ => some now
  | .learn _ _ _ now => some now
  | .expirePending now _ => some now
  | .applyManagementUpdate _ _ _ now => some now
  | .applyReject _ _ _ now _ => some now
  | _ => none

/-- A hold-down of this network and port that began no earlier than `start`. -/
def Held (table : Table R H) (network : UInt16) (port : PortId) (start : Instant) : Prop :=
  ∃ since, Holds.since table.holds network port = some since ∧ start ≤ since

variable {start : Instant}

theorem held_step (hv : table.Valid) (hH : 0 < H) (h : table.Held network port start)
    (hrenews : table.renews op network = false) (htime : ∀ now, opTime op = some now → start ≤ now)
    (hlow : table.counters.holdEvicted < u64Max) :
    (table.apply op).1.Held network port start
      ∨ table.counters.holdEvicted < (table.apply op).1.counters.holdEvicted := by
  obtain ⟨since, hsince, hstart⟩ := h
  cases hop : isReject op with
  | false =>
    left
    refine ⟨since, ?_, hstart⟩
    rw [(step hv op).holds hop, Holds.since_filter (fun m => !table.renews op m) (by rw [hrenews]; rfl)]
    exact hsince
  | true =>
    cases op with
    | applyReject network' port' reason now timing =>
      show (table.applyReject network' port' reason now timing).1.Held network port start
        ∨ _ < (table.applyReject network' port' reason now timing).1.counters.holdEvicted
      rcases applyReject_cases hv network' port' reason now timing with
        ⟨-, hsame, -⟩ | ⟨-, happlied⟩
      · left
        exact ⟨since, by rw [hsame.holds]; exact hsince, hstart⟩
      · by_cases hkey : (network', port') = (network, port)
        · left
          cases hkey
          refine ⟨now, ?_, htime now rfl⟩
          rw [happlied.holds]
          exact Holds.since_record_self hH hv.holdsRoom
        · cases hevicted : (Holds.record H table.holds network' port' now).2 with
          | false =>
            left
            refine ⟨since, ?_, hstart⟩
            rw [happlied.holds, Holds.since_record_of_ne hkey hevicted]
            exact hsince
          | true =>
            right
            rw [happlied.evicted, hevicted, if_pos rfl]
            exact Nat.lt_min.mpr ⟨Nat.lt_succ_self _, hlow⟩
    | _ => cases hop

theorem held_run (hv : table.Valid) (hH : 0 < H) {ops : List TableOp}
    (h : table.Held network port start)
    (htime : ∀ op ∈ ops, ∀ now, opTime op = some now → start ≤ now)
    (hmax : table.counters.holdEvicted ≤ u64Max)
    (hlow : (table.run ops).counters.holdEvicted < u64Max) :
    (table.run ops).Held network port start
      ∨ (∃ before op after, ops = before ++ op :: after
        ∧ (table.run before).renews op network = true)
      ∨ table.counters.holdEvicted < (table.run ops).counters.holdEvicted := by
  induction ops generalizing table with
  | nil => exact .inl h
  | cons op ops ih =>
    have hvalid := (step hv op).valid
    obtain ⟨hle, hmax'⟩ := holdEvicted_le_apply hv op hmax
    obtain ⟨hle', -⟩ := holdEvicted_le_run hvalid ops hmax'
    cases hrenews : table.renews op network with
    | true => exact .inr (.inl ⟨[], op, ops, rfl, hrenews⟩)
    | false =>
      have hlow' : (table.apply op).1.counters.holdEvicted < u64Max := Nat.lt_of_le_of_lt hle' hlow
      rcases held_step hv hH h hrenews (htime op List.mem_cons_self)
          (Nat.lt_of_le_of_lt hle hlow') with hheld | hgrew
      · rcases ih hvalid hheld (fun o ho => htime o (List.mem_cons_of_mem _ ho)) hmax' hlow with
          hend | ⟨before, other, after, hsplit, hrenewed⟩ | hgrew
        · exact .inl hend
        · refine .inr (.inl ⟨op :: before, other, after, ?_, hrenewed⟩)
          rw [hsplit, List.cons_append]
        · exact .inr (.inr (Nat.lt_of_le_of_lt hle hgrew))
      · exact .inr (.inr (Nat.lt_of_lt_of_le hgrew hle'))

theorem busyReject_sameState (hv : table.Valid) {slot : Slot} {deadline now : Instant}
    {timing : Timing} (hslot : table.entry network = some slot)
    (hbusy : slot.route.busyUntil = some deadline) (hlive : now < deadline) :
    (table.applyReject network port .routerBusy now timing).2 ≠ .applied := by
  intro happlied
  rcases applyReject_cases hv network port .routerBusy now timing with ⟨hnot, -⟩ | ⟨-, happlied⟩
  · exact hnot happlied
  · obtain ⟨other, hother, hchanges⟩ := happlied.changes
    rw [hslot] at hother
    cases hother
    have hreach := (hv.entry hslot).busy.mp (by rw [hbusy]; rfl)
    have hlapsed : slot.route.lapsed now = false := by
      rw [Route.lapsed, hbusy, Option.any_some]
      exact decide_eq_false (Nat.not_le.mpr hlive)
    have hreason : RejectMessageReason.routerBusy ≠ .notDirectlyConnected := by decide
    simp [rejectChanges, hreason, hreach, hlapsed] at hchanges

/-! ## Dampening -/

/-- Two applied rejects for one network and port are a hold-down apart, unless the network's route
was renewed or a record was evicted between them; a reject that is not applied changes no route
and no record; and a busy reject never moves a busy deadline that is still to come. -/
theorem rejects_dampened {R H : ℕ} (hH : 0 < H) :
    (∀ (before between : List TableOp) (network : UInt16) (port : PortId)
      (reason reason' : RejectMessageReason) (now now' : Instant) (timing timing' : Timing),
      let first := TableOp.applyReject network port reason now timing
      let second := TableOp.applyReject network port reason' now' timing'
      let started : Table R H := (new.run before).apply first |>.1
      let ended := started.run between
      ((before ++ first :: between ++ [second]).filterMap opTime).Pairwise (· ≤ ·) →
      ((new.run before : Table R H).apply first).2 = .reject .applied →
      (ended.apply second).2 = .reject .applied →
      ended.counters.holdEvicted < u64Max →
      timing'.holdDown ≤ now' - now
        ∨ (∃ ops op rest, between = ops ++ op :: rest ∧ (started.run ops).renews op network = true)
        ∨ started.counters.holdEvicted < ended.counters.holdEvicted)
    ∧ (∀ (ops : List TableOp) (network : UInt16) (port : PortId) (reason : RejectMessageReason)
      (now : Instant) (timing : Timing),
      let table : Table R H := new.run ops
      (table.applyReject network port reason now timing).2 ≠ .applied →
        (table.applyReject network port reason now timing).1.slots = table.slots
          ∧ (table.applyReject network port reason now timing).1.holds = table.holds)
    ∧ ∀ (ops : List TableOp) (port : PortId) (now deadline : Instant) (timing : Timing),
      let table : Table R H := new.run ops
      ∀ slot ∈ table.slots, slot.route.busyUntil = some deadline → now < deadline →
        slot ∈ (table.applyReject slot.network port .routerBusy now timing).1.slots := by
  refine ⟨?_, ?_, ?_⟩
  · intro before between network port reason reason' now now' timing timing' first second
      started ended htimes hfirst hsecond hlow
    have hv : (new.run before : Table R H).Valid := valid_run before valid_new
    have hvalid : started.Valid := (step hv first).valid
    have hnew : (new : Table R H).counters.holdEvicted ≤ u64Max := Nat.zero_le _
    have hmax := (holdEvicted_le_apply hv first (holdEvicted_le_run valid_new before hnew).2).2
    -- The first reject leaves a record of its own time.
    have hheld : started.Held network port now := by
      rcases applyReject_cases hv network port reason now timing with ⟨hnot, -⟩ | ⟨-, happlied⟩
      · exact absurd (TableOutcome.reject.inj hfirst) hnot
      · refine ⟨now, ?_, Nat.le_refl _⟩
        show Holds.since ((new.run before : Table R H).applyReject network port reason now
          timing).1.holds network port = some now
        rw [happlied.holds]
        exact Holds.since_record_self hH hv.holdsRoom
    have hlater : ∀ op ∈ between, ∀ t, opTime op = some t → now ≤ t := by
      intro op hop t ht
      rw [List.append_assoc, List.filterMap_append, List.cons_append,
        List.filterMap_cons_some (show opTime first = some now from rfl)] at htimes
      refine List.rel_of_pairwise_cons (List.pairwise_append.mp htimes).2.1 ?_
      exact List.mem_filterMap.mpr ⟨op, List.mem_append_left _ hop, ht⟩
    rcases held_run hvalid hH hheld hlater hmax hlow with ⟨since, hsince, hstart⟩ | hother
    · left
      rcases applyReject_cases (valid_run between hvalid) network port reason' now' timing' with
        ⟨hnot, -⟩ | ⟨-, happlied⟩
      · exact absurd (TableOutcome.reject.inj hsecond) hnot
      · exact (happlied.spent since hsince).trans (Nat.sub_le_sub_left hstart now')
    · exact .inr hother
  · intro ops network port reason now timing table hnot
    have hv : table.Valid := valid_run ops valid_new
    rcases applyReject_cases hv network port reason now timing with ⟨-, hsame, -⟩ | ⟨happlied, -⟩
    · exact ⟨hsame.slots, hsame.holds⟩
    · exact absurd happlied hnot
  · intro ops port now deadline timing table slot hslot hbusy hlive
    have hv : table.Valid := valid_run ops valid_new
    have hnot := @busyReject_sameState _ _ table slot.network port hv slot deadline now timing
      (hv.inOrder.entry_of_mem hslot) hbusy hlive
    rcases applyReject_cases hv slot.network port .routerBusy now timing with
      ⟨-, hsame, -⟩ | ⟨happlied, -⟩
    · rw [hsame.slots]
      exact hslot
    · exact absurd happlied hnot

/-- A second busy reject thirty seconds after the first is applied. -/
theorem rejects_dampened_bench :
    let first := TableOp.applyReject 5 ⟨0⟩ .routerBusy (fromSecs 1) .default
    let started : Table 1 1 := (new.run [.learn 5 ⟨0⟩ .empty 0]).apply first |>.1
    let ended := started.run [.markAvailable 5]
    fromSecs 30 ≤ fromSecs 31 - fromSecs 1
      ∨ (∃ ops op rest, [TableOp.markAvailable 5] = ops ++ op :: rest
        ∧ (started.run ops).renews op 5 = true)
      ∨ started.counters.holdEvicted < ended.counters.holdEvicted :=
  (@rejects_dampened 1 1 (by decide)).1 [.learn 5 ⟨0⟩ .empty 0] [.markAvailable 5] 5 ⟨0⟩
    .routerBusy .routerBusy (fromSecs 1) (fromSecs 31) .default .default
    (by decide +kernel) (by decide +kernel) (by decide +kernel) (by decide +kernel)

/-- With no room for any record, a lifted route is marked again a second later. -/
theorem rejects_undampened_without_pool :
    let first := TableOp.applyReject 5 ⟨0⟩ .routerBusy (fromSecs 1) .default
    let second := TableOp.applyReject 5 ⟨0⟩ .routerBusy (fromSecs 2) .default
    let learned : Table 1 0 := new.run [.learn 5 ⟨0⟩ .empty 0]
    let started := (learned.apply first).1
    let ended := started.run [.markAvailable 5]
    (([TableOp.learn 5 ⟨0⟩ .empty 0] ++ first :: [.markAvailable 5] ++ [second]).filterMap
        opTime).Pairwise (· ≤ ·)
      ∧ (learned.apply first).2 = .reject .applied
      ∧ (ended.apply second).2 = .reject .applied
      ∧ fromSecs 2 - fromSecs 1 < Timing.default.holdDown
      ∧ started.renews (.markAvailable 5) 5 = false
      ∧ ended.counters.holdEvicted = started.counters.holdEvicted := by
  decide +kernel

end Table

end RustyBacnet.Router
