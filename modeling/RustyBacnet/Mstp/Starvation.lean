import RustyBacnet.Mstp.LaneWaits

/-!
# No item waits for ever in its lane

Over a run of calls an item goes on waiting as `Waits` says until it is handed over, so it is handed
over in time (`servesInTime`), with either backend. The bound on the numbers given out meanwhile is
needed: `overtaken` is a run in which an item waits past `2^63` numbers and is passed over.
-/

namespace RustyBacnet.Mstp

open LaneStorage

theorem countItems_le_length (p : ℕ → Bool) (slots : List Slot) :
    countItems p slots ≤ slots.length := List.countP_le_length

variable (U B N : ℕ)

theorem FixedQueues.accepts : Accepts (FixedQueues U B N) := by
  intro q destination payload priority now expiresAt kind
  show Offers q destination expiresAt kind (FixedQueues.enqueueNpdu q _ _ _ _ _)
  unfold FixedQueues.enqueueNpdu
  dsimp only
  generalize hown : QueueKind.fromDestination destination = own
  by_cases hlong : N < payload.length
  · rw [if_pos hlong]
    refine .passed _ _ (fun h => by cases h) (.inl ?_) ?_ ?_ ?_ ?_ <;> cases own <;> cases kind <;> rfl
  rw [if_neg hlong]
  by_cases hexpired : expired expiresAt now = true
  · rw [if_pos hexpired]
    refine .passed _ _ (fun h => by cases h) (.inl ?_) ?_ ?_ ?_ ?_ <;> cases own <;> cases kind <;> rfl
  rw [if_neg hexpired]
  set q₁ : FixedQueues U B N := { q with sequence := nextSequence q.sequence } with hq₁
  have hlane₁ : ∀ k, q₁.lane k = q.lane k := fun k => by cases k <;> rfl
  rw [hlane₁]
  rcases (q.lane own).freeSlot_spec with ⟨hnone, -⟩ | ⟨index, slot, hsome, hslot, hfree, -⟩
  · rw [hnone]
    refine .passed _ _ (fun h => by cases h) (.inr ?_) ?_ ?_ ?_ ?_ <;> cases own <;> cases kind <;> rfl
  rw [hsome]
  by_cases hkind : own = kind
  · subst hkind
    have harrives := arrives_fill hslot hfree destination payload priority now expiresAt q.sequence
    refine .accepted _ (by cases own <;> rfl) (by cases own <;> rfl) ?_ (fun c h => ?_)
    · cases own
      · exact harrives
      · exact harrives
    · have hcount := harrives.count fun _ => true
      have hle := countItems_le_length (fun _ => true) ((q.lane own).slots.modify index fun slot =>
        slot.fill destination payload priority now expiresAt q.sequence)
      have hlength : (q.lane own).slots.length = c := h.2.2
      rw [← List.length_modify (fun slot => slot.fill destination payload priority now expiresAt
        q.sequence) (q.lane own).slots index] at hlength
      have hall : countItems (fun _ => true) (q.lane own).slots = (q.lane own).depth := h.1
      rw [if_pos rfl, hall] at hcount
      rw [hcount, hlength] at hle
      cases own
      · exact ⟨hcount, hle, hlength⟩
      · exact ⟨hcount, hle, hlength⟩
  · refine .passed _ _ (fun _ => hown ▸ hkind) (.inr ?_) ?_ ?_ ?_ ?_ <;> cases own <;> cases kind <;>
      first | rfl | exact absurd rfl hkind

theorem AllocQueues.accepts : Accepts (AllocQueues N) := by
  intro q destination payload priority now expiresAt kind
  show Offers q destination expiresAt kind (AllocQueues.enqueueNpdu q _ _ _ _ _)
  unfold AllocQueues.enqueueNpdu
  generalize hown : QueueKind.fromDestination destination = own
  by_cases hlong : N < payload.length
  · rw [if_pos hlong]
    refine .passed _ _ (fun h => by cases h) (.inl ?_) ?_ ?_ ?_ ?_ <;> cases own <;> cases kind <;> rfl
  rw [if_neg hlong]
  by_cases hexpired : expired expiresAt now = true
  · rw [if_pos hexpired]
    refine .passed _ _ (fun h => by cases h) (.inl ?_) ?_ ?_ ?_ ?_ <;> cases own <;> cases kind <;> rfl
  rw [if_neg hexpired]
  by_cases hfull : q.capacity own ≤ (q.lane own).depth
  · rw [if_pos hfull]
    refine .passed _ _ (fun h => by cases h) (.inl ?_) ?_ ?_ ?_ ?_ <;> cases own <;> cases kind <;> rfl
  rw [if_neg hfull]
  by_cases hkind : own = kind
  · subst hkind
    have harrives : Arrives q.sequence expiresAt (q.lane own).slots
        ((slotFor N (q.lane own)).1.modify (slotFor N (q.lane own)).2 fun slot =>
          slot.fill destination payload priority now expiresAt q.sequence) := by
      unfold slotFor
      rcases (q.lane own).freeSlot_spec with ⟨hnone, -⟩ | ⟨index, slot, hsome, hslot, hfree, -⟩
      · rw [hnone]
        have hget : ((q.lane own).slots ++ [Slot.empty N])[(q.lane own).slots.length]?
            = some (Slot.empty N) := by simp
        have harrives := arrives_fill hget rfl destination payload priority now expiresAt q.sequence
        refine ⟨fun index slot hslot hocc => ?_, fun p => ?_, harrives.new⟩
        · refine harrives.stays index slot ?_ hocc
          rw [List.getElem?_append_left (List.getElem?_eq_some_iff.mp hslot).1]
          exact hslot
        · refine (harrives.count p).trans ?_
          unfold countItems
          rw [List.countP_append]
          rfl
      · rw [hsome]
        exact arrives_fill hslot hfree destination payload priority now expiresAt q.sequence
    refine .accepted _ (by cases own <;> rfl) (by cases own <;> rfl) ?_ (fun c h => ?_)
    · cases own
      · exact harrives
      · exact harrives
    · have hcount := harrives.count fun _ => true
      have hall : countItems (fun _ => true) (q.lane own).slots = (q.lane own).depth := h.1
      rw [if_pos rfl, hall] at hcount
      have hcapacity : q.capacity own = c := h.2.2
      rw [Nat.not_le, hcapacity] at hfull
      cases own
      · exact ⟨hcount, hfull, hcapacity⟩
      · exact ⟨hcount, hfull, hcapacity⟩
  · refine .passed _ _ (fun _ => hown ▸ hkind) (.inr ?_) ?_ ?_ ?_ ?_ <;> cases own <;> cases kind <;>
      first | rfl | exact absurd rfl hkind

/-! ## The items of a lane are as many as it counts -/

namespace Lane

/-- The lane's depth is the number of its items. -/
def Counted (lane : Lane) : Prop := countItems (fun _ => true) lane.slots = lane.depth

theorem expireFrom_counted (now : Instant) (slots : List Slot) (depth : ℕ)
    (counters : QueueCounters) {others : ℕ}
    (h : countItems (fun _ => true) slots + others = depth) :
    countItems (fun _ => true) (expireFrom now slots depth counters).1 + others
      = (expireFrom now slots depth counters).2.1 := by
  unfold countItems at *
  induction slots generalizing depth counters others with
  | nil => exact h
  | cons slot slots ih =>
    rw [List.countP_cons] at h
    unfold expireFrom
    by_cases hgone : (!slot.isFree && expired slot.expiresAt now) = true
    · have hocc : slot.occupied = true := by
        rw [Bool.and_eq_true, Slot.isFree, Bool.not_not] at hgone
        exact hgone.1
      rw [if_pos (by rw [hocc]; rfl)] at h
      rw [if_pos hgone]
      rw [List.countP_cons, if_neg (by simp)]
      exact ih (depth - 1) _ (by omega)
    · rw [if_neg hgone]
      rw [List.countP_cons, Nat.add_assoc, Nat.add_comm (ite _ _ _)]
      apply ih depth
      rw [Nat.add_comm others, ← Nat.add_assoc]
      exact h

variable {lane : Lane}

theorem Counted.expire (h : lane.Counted) (now : Instant) :
    (lane.expire now).2.Counted ∧ (lane.expire now).2.depth ≤ lane.depth := by
  have hcounted := @expireFrom_counted now lane.slots lane.depth lane.counters 0 h
  have hle := (lane.fades_expire now).count_le fun _ => true
  refine ⟨hcounted, ?_⟩
  rw [h, ← Nat.add_zero (countItems _ _)] at hle
  exact (Nat.le_of_eq hcounted.symm).trans hle

theorem Counted.remove (h : lane.Counted) {index : ℕ} {slot : Slot}
    (hget : lane.slots[index]? = some slot) (hocc : slot.occupied = true) :
    (lane.remove index).Counted := by
  have hcount := @count_remove _ _ _ hget (fun _ => true) (by rw [hocc]; rfl)
  unfold Counted at *
  show _ = lane.depth - 1
  omega

theorem Counted.bumpWaits (h : lane.Counted) : lane.bumpWaits.Counted := by
  unfold Counted countItems at *
  show List.countP _ (lane.slots.map Slot.bumped) = lane.depth
  rw [List.countP_map, ← h]
  apply List.countP_congr
  intro slot _
  show (slot.bumped.occupied && true) = true ↔ _
  unfold Slot.bumped
  split_ifs <;> exact Iff.rfl

end Lane

section Runs

variable {Q : Type} [LaneStorage Q] {q q' : Q} {kind : QueueKind} {room : QueueKind → ℕ}

theorem slots_mapCounters (q : Q) (k : QueueKind) (g : QueueCounters → QueueCounters)
    (kind : QueueKind) :
    (lane (LaneStorage.mapCounters q k g) kind).slots = (lane q kind).slots := by
  unfold LaneStorage.mapCounters
  rw [lane_setLane]
  split_ifs with hk
  · rw [hk]
  · rfl

theorem Bounded.setLane (h : ∀ kind, Bounded q kind (room kind)) {k : QueueKind} {lane' : Lane}
    (hcounted : lane'.Counted) (hdepth : lane'.depth ≤ (lane q k).depth)
    (hlength : lane'.slots.length = (lane q k).slots.length) (kind : QueueKind) :
    Bounded (LaneStorage.setLane q k lane') kind (room kind) := by
  unfold Bounded
  rw [capacity_setLane q k lane' hlength, lane_setLane]
  split_ifs with hk
  · subst hk
    exact ⟨hcounted, hdepth.trans (h kind).2.1, (h kind).2.2⟩
  · exact h kind

theorem Bounded.expire (h : ∀ kind, Bounded q kind (room kind)) (now : Instant) :
    ∀ kind, Bounded (LaneStorage.expire q now).2 kind (room kind) := by
  have hu := Lane.Counted.expire (h .unicast).1 now
  have hb := Lane.Counted.expire (h .broadcast).1 now
  have hlength : ∀ k, ((lane q k).expire now).2.slots.length = (lane q k).slots.length := fun k =>
    ((lane q k).fades_expire now).length_eq.symm
  have hbroadcast : lane (LaneStorage.setLane q .unicast ((lane q .unicast).expire now).2) .broadcast
      = lane q .broadcast := by
    rw [lane_setLane, if_neg (by decide)]
  exact Bounded.setLane (Bounded.setLane h hu.1 hu.2 (hlength .unicast)) hb.1
    (by rw [hbroadcast]; exact hb.2) (by rw [hbroadcast]; exact hlength .broadcast)

theorem Bounded.bumpWaits (h : ∀ kind, Bounded q kind (room kind)) :
    ∀ kind, Bounded (LaneStorage.bumpWaits q) kind (room kind) := by
  have hlength : ∀ lane : Lane, lane.bumpWaits.slots.length = lane.slots.length := fun lane =>
    List.length_map _
  exact Bounded.setLane
    (Bounded.setLane h (Lane.Counted.bumpWaits (h .unicast).1) (Nat.le_refl _) (hlength _))
    (Lane.Counted.bumpWaits (Bounded.setLane h (Lane.Counted.bumpWaits (h .unicast).1)
      (Nat.le_refl _) (hlength _) .broadcast).1) (Nat.le_refl _) (hlength _)

theorem Bounded.mapCounters (h : ∀ kind, Bounded q kind (room kind)) (k : QueueKind)
    (g : QueueCounters → QueueCounters) : ∀ kind, Bounded (LaneStorage.mapCounters q k g) kind (room kind) :=
  Bounded.setLane h (h k).1 (Nat.le_refl _) rfl

theorem Bounded.dequeueKind (h : ∀ kind, Bounded q kind (room kind)) (k : QueueKind) (now : Instant)
    (maxLen : ℕ) : ∀ kind, Bounded (LaneStorage.dequeueKind q k now maxLen).2 kind (room kind) := by
  have hexp := Bounded.expire h now
  unfold LaneStorage.dequeueKind
  dsimp only
  cases hselect : selectKind (LaneStorage.expire q now).2 k now with
  | none => exact hexp
  | some selected =>
    dsimp only
    have hremoved : ∀ kind, Bounded (LaneStorage.setLane (LaneStorage.expire q now).2 k
        ((lane (LaneStorage.expire q now).2 k).remove selected.index)) kind (room kind) := by
      obtain ⟨slot, hget, hocc⟩ := selectKind_occupied hselect
      exact Bounded.setLane hexp (Lane.Counted.remove (hexp k).1 hget hocc) (Nat.sub_le _ _)
        (List.length_modify ..)
    split_ifs with hlong
    · exact Bounded.mapCounters hremoved k _
    · exact Bounded.bumpWaits hremoved

/-- One call leaves every lane within its capacity. -/
theorem Bounded.apply (haccepts : Accepts Q) (h : ∀ kind, Bounded q kind (room kind)) (op : QueueOp) :
    ∀ kind, Bounded (op.apply q).2 kind (room kind) := by
  cases op with
  | setStarvationLimit limit =>
    intro kind
    show Bounded (LaneStorage.setStarvationLimit q limit) kind (room kind)
    unfold Bounded
    rw [lane_setStarvationLimit, capacity_setStarvationLimit]
    exact h kind
  | enqueueNpdu destination payload priority now expiresAt =>
    intro kind
    have hoffer := haccepts q destination payload priority now expiresAt kind
    show Bounded (LaneStorage.enqueueNpdu q destination payload priority now expiresAt).2 kind
      (room kind)
    generalize LaneStorage.enqueueNpdu q destination payload priority now expiresAt = call at hoffer
    cases hoffer with
    | passed _ _ _ _ _ hcapacity hslots hdepth =>
      unfold Bounded
      rw [hslots, hdepth, hcapacity]
      exact h kind
    | accepted _ _ _ _ hbounded => exact hbounded _ (h kind)
  | expire now => exact Bounded.expire h now
  | peek now => exact h
  | peekKind kind now => exact h
  | dequeue now maxLen =>
    show ∀ kind, Bounded (QueueStorage.dequeue q now maxLen).2 kind (room kind)
    unfold QueueStorage.dequeue
    split
    · exact h
    · exact Bounded.dequeueKind h _ now maxLen
  | dequeueKind kind now maxLen => exact Bounded.dequeueKind h kind now maxLen
  | takeCounters kind =>
    have hmap := Bounded.mapCounters h kind fun _ => (lane q kind).counters.take.2
    exact hmap

/-! ## Runs -/

def taken : Except QueueRefusal (Option DequeuedNpdu) → Option DequeuedNpdu
  | .ok npdu => npdu
  | .error _ => none

def QueueOp.handedOver {Q : Type} [QueueStorage Q] (q : Q) : QueueOp → Option DequeuedNpdu
  | .dequeue now maxLen => taken (QueueStorage.dequeue q now maxLen).1
  | .dequeueKind kind now maxLen => taken (QueueStorage.dequeueKind q kind now maxLen).1
  | _ => none

def handedOver {Q : Type} [QueueStorage Q] (q : Q) : List QueueOp → List DequeuedNpdu
  | [] => []
  | op :: ops => (op.handedOver q).toList ++ handedOver (op.apply q).2 ops

def afterRun {Q : Type} [QueueStorage Q] (q : Q) (ops : List QueueOp) : Q :=
  ops.foldl (fun q op => (op.apply q).2) q

def servedOf (kind : QueueKind) (npdus : List DequeuedNpdu) : ℕ :=
  npdus.countP fun npdu => npdu.kind = kind

/-- The call leaves the limit alone, no item with this deadline expires by it, and it drops no item
as too long. -/
def QueueOp.Spares {Q : Type} [QueueStorage Q] (q : Q) (expiresAt : Option Instant) : QueueOp → Prop
  | .setStarvationLimit _ => False
  | .expire now => Mstp.expired expiresAt now = false
  | .dequeue now maxLen =>
    Mstp.expired expiresAt now = false ∧ (QueueStorage.dequeue q now maxLen).1 ≠ .error .oversize
  | .dequeueKind kind now maxLen =>
    Mstp.expired expiresAt now = false ∧
      (QueueStorage.dequeueKind q kind now maxLen).1 ≠ .error .oversize
  | _ => True

/-- A run through states that are `Good`, in which an item with this deadline does not expire and
nothing is dropped as too long. -/
def Spared (Good : Q → Prop) (expiresAt : Option Instant) : Q → List QueueOp → Prop
  | _, [] => True
  | q, op :: ops => Good q ∧ op.Spares q expiresAt ∧ Spared Good expiresAt (op.apply q).2 ops

instance {Q : Type} [QueueStorage Q] (op : QueueOp) (q : Q) (expiresAt : Option Instant) :
    Decidable (op.Spares q expiresAt) := by
  cases op <;> unfold QueueOp.Spares <;> infer_instance

instance decidableSpared (Good : Q → Prop) [DecidablePred Good] (expiresAt : Option Instant) :
    (q : Q) → (ops : List QueueOp) → Decidable (Spared Good expiresAt q ops)
  | _, [] => isTrue trivial
  | q, op :: ops =>
    have := decidableSpared Good expiresAt (op.apply q).2 ops
    inferInstanceAs (Decidable (Good q ∧ op.Spares q expiresAt ∧ _))

variable {index number c served : ℕ} {expiresAt : Option Instant} {limit : UInt8}

/-- One call hands the item over, or it waits on, with one more served if its class was. -/
theorem Waits.apply (haccepts : Accepts Q) (h : Waits q kind index number expiresAt limit c served)
    (hfresh : Fresh q kind) {op : QueueOp} (hspares : op.Spares q expiresAt) :
    (∃ npdu, op.handedOver q = some npdu ∧ npdu.kind = kind ∧ npdu.sequence = number) ∨
      Waits (op.apply q).2 kind index number expiresAt limit c
        (served + servedOf kind (op.handedOver q).toList) := by
  have hdequeue : ∀ (k : QueueKind) (now : Instant) (maxLen : ℕ), expired expiresAt now = false →
      (LaneStorage.dequeueKind q k now maxLen).1 ≠ .error .oversize →
      (∃ npdu, taken (LaneStorage.dequeueKind q k now maxLen).1 = some npdu ∧
        npdu.kind = kind ∧ npdu.sequence = number) ∨
      Waits (LaneStorage.dequeueKind q k now maxLen).2 kind index number expiresAt limit c
        (served + servedOf kind (taken (LaneStorage.dequeueKind q k now maxLen).1).toList) := by
    intro k now maxLen hlive hfits
    rcases h.dequeueKind hfresh hlive (Prod.mk.eta.symm) hfits with
      ⟨hnone, hwaits⟩ | ⟨npdu, hsome, hkind, hend⟩
    · rw [hnone]
      exact .inr hwaits
    · rw [hsome]
      rcases hend with hend | hwaits
      · exact .inl ⟨npdu, rfl, hend⟩
      · refine .inr ?_
        show Waits _ _ _ _ _ _ _ (served + List.countP _ [npdu])
        rw [List.countP_singleton]
        simpa using hwaits
  cases op with
  | setStarvationLimit limit => exact absurd hspares id
  | enqueueNpdu destination payload priority now expires =>
    exact .inr (h.offer hfresh (haccepts q destination payload priority now expires kind))
  | expire now => exact .inr (h.expire hspares)
  | peek now => exact .inr h
  | peekKind k now => exact .inr h
  | dequeue now maxLen =>
    change _ ∧ (QueueStorage.dequeue q now maxLen).1 ≠ .error .oversize at hspares
    unfold QueueOp.handedOver QueueOp.apply
    dsimp only
    unfold QueueStorage.dequeue at *
    cases hpeek : QueueStorage.peek q now with
    | none => exact .inr h
    | some info =>
      rw [hpeek] at hspares
      exact hdequeue info.kind now maxLen hspares.1 hspares.2
  | dequeueKind k now maxLen => exact hdequeue k now maxLen hspares.1 hspares.2
  | takeCounters k =>
    have hslots := slots_mapCounters q k (fun _ => (lane q k).counters.take.2) kind
    refine .inr (h.fade (limit_setLane _ _ _) (sequence_setLane _ _ _) ?_ ?_)
    · exact hslots ▸ Fades.refl _
    · obtain ⟨slot, hget, hocc, -⟩ := h.held
      intro slot' hget'
      change slot' ∈ (lane (LaneStorage.mapCounters q k fun _ => (lane q k).counters.take.2)
        kind).slots[index]? at hget'
      rw [hslots, hget] at hget'
      exact Option.some.inj hget' ▸ hocc

/-- While the item is not handed over it waits on, with as many more served as were handed over from
its lane. -/
theorem Waits.run (haccepts : Accepts Q) (ops : List QueueOp)
    (h : Waits q kind index number expiresAt limit c served) (hspared : Spared (Fresh · kind) expiresAt q ops) :
    (∃ before npdu rest, handedOver q ops = before ++ npdu :: rest ∧ npdu.kind = kind ∧
      npdu.sequence = number ∧ served + servedOf kind before + 1 ≤ limit.toNat + c) ∨
    served + servedOf kind (handedOver q ops) + 1 ≤ limit.toNat + c := by
  induction ops generalizing q served with
  | nil => exact .inr h.served_lt
  | cons op ops ih =>
    obtain ⟨hfresh, hspares, hrest⟩ := hspared
    rcases h.apply haccepts hfresh hspares with ⟨npdu, htaken, hnpdu⟩ | hwaits
    · refine .inl ⟨[], npdu, handedOver (op.apply q).2 ops, ?_, hnpdu.1, hnpdu.2, h.served_lt⟩
      show (op.handedOver q).toList ++ handedOver (op.apply q).2 ops = _
      rw [htaken]
      rfl
    · unfold handedOver
      rcases ih hwaits hrest with ⟨before, npdu, rest, heq, hkind, hnumber, hserved⟩ | hserved
      · refine .inl ⟨(op.handedOver q).toList ++ before, npdu, rest, ?_, hkind, hnumber, ?_⟩
        · rw [heq, List.append_assoc]
        · unfold servedOf at *
          rw [List.countP_append, ← Nat.add_assoc]
          exact hserved
      · refine .inr ?_
        unfold servedOf at *
        rw [List.countP_append, ← Nat.add_assoc]
        exact hserved

theorem Bounded.run (haccepts : Accepts Q) (ops : List QueueOp) (h : ∀ kind, Bounded q kind (room kind)) :
    ∀ kind, Bounded (afterRun q ops) kind (room kind) := by
  induction ops generalizing q with
  | nil => exact h
  | cons op ops ih => exact ih (Bounded.apply haccepts h op)

end Runs

/-! ## Both backends -/

/-- From these queues, an item accepted after any run is handed over by the time its class was served
as often as the limit and the capacity say, in every run through `Good` states that spares it. -/
def ServesInTime {Q : Type} [LaneStorage Q] (Good : QueueKind → Q → Prop) (start : Q)
    (room : QueueKind → ℕ) : Prop :=
  ∀ (before : List QueueOp) (destination : UInt8) (payload : List UInt8)
    (priority : NetworkPriority) (now : Instant) (expiresAt : Option Instant) (q : Q),
    enqueueNpdu (afterRun start before) destination payload priority now expiresAt = (.ok (), q) →
    ∀ later : List QueueOp, Spared (Good (.fromDestination destination)) expiresAt q later →
      (limit q).toNat + room (.fromDestination destination)
        ≤ servedOf (.fromDestination destination) (handedOver q later) →
      ∃ others npdu rest, handedOver q later = others ++ npdu :: rest ∧
        npdu.kind = .fromDestination destination ∧
        npdu.sequence = sequence (afterRun start before) ∧
        servedOf (.fromDestination destination) others
          ≤ (limit q).toNat + room (.fromDestination destination) - 1

theorem servesInTime {Q : Type} [LaneStorage Q] (haccepts : Accepts Q) {start : Q}
    {room : QueueKind → ℕ} (hstart : ∀ kind, Bounded start kind (room kind)) :
    ServesInTime (fun kind q => Fresh q kind) start room := by
  intro before destination payload priority now expiresAt q hcall later hspared hserved
  obtain ⟨index, hwaits⟩ := Waits.start haccepts
    (Bounded.run haccepts before hstart (.fromDestination destination)) rfl hcall
  have hlimit : limit q = limit (afterRun start before) := hwaits.limit_eq
  rw [hlimit] at hserved ⊢
  rcases hwaits.run haccepts later hspared with ⟨others, npdu, rest, heq, hkind, hnumber, hle⟩ | hle
  · exact ⟨others, npdu, rest, heq, hkind, hnumber, by omega⟩
  · omega

theorem FixedQueues.servesInTime :
    ServesInTime (fun kind q => Fresh q kind) (FixedQueues.new : FixedQueues U B N)
      (fun | .unicast => U | .broadcast => B) := by
  refine Mstp.servesInTime (FixedQueues.accepts U B N) fun kind => ?_
  have hfree : ∀ n, countItems (fun _ => true) (List.replicate n (Slot.empty N)) = 0 := fun n =>
    List.countP_eq_zero.mpr fun slot hslot => by
      rw [List.eq_of_mem_replicate hslot]
      exact Bool.false_ne_true
  cases kind
  · exact ⟨hfree U, Nat.zero_le _, List.length_replicate ..⟩
  · exact ⟨hfree B, Nat.zero_le _, List.length_replicate ..⟩

theorem AllocQueues.servesInTime :
    ServesInTime (fun kind q => Fresh q kind) (AllocQueues.new U B : AllocQueues N)
      (fun | .unicast => U | .broadcast => B) := by
  refine Mstp.servesInTime (AllocQueues.accepts N) fun kind => ?_
  cases kind
  · exact ⟨rfl, Nat.zero_le _, rfl⟩
  · exact ⟨rfl, Nat.zero_le _, rfl⟩

/-! ## Numbers that wrap -/

/-- An item for one of the four places, to address 5 or to all. -/
def offerTo (destination : UInt8) : QueueOp := .enqueueNpdu destination [0] .normal 0 none

/-- The item that is passed over, in the first of three slots. -/
def passedOver : Slot := (Slot.empty 1).fill 5 [0] .normal 0 none 1

/-- One item waits for each class, and the next number is `number`. -/
def Stalled (q : FixedQueues 3 1 1) (number : ℕ) : Prop :=
  q.unicast.slots = [passedOver, Slot.empty 1, Slot.empty 1] ∧
    q.broadcast.slots = [(Slot.empty 1).fill 255 [0] .normal 0 none 0] ∧
    q.starvationLimit = some 1 ∧ q.sequence = number % 18446744073709551616

theorem Stalled.refuse {q : FixedQueues 3 1 1} {number : ℕ} (h : Stalled q number) :
    Stalled ((offerTo 255).apply q).2 (number + 1) := by
  obtain ⟨⟨slots, depth, counters⟩, ⟨slots', depth', counters'⟩, sequence, limit⟩ := q
  obtain ⟨rfl, rfl, rfl, rfl⟩ := h
  refine ⟨rfl, rfl, rfl, ?_⟩
  show (number % 18446744073709551616 + 1) % 18446744073709551616 = _
  omega

theorem Stalled.refuseMany {q : FixedQueues 3 1 1} {number : ℕ} (h : Stalled q number) (n : ℕ) :
    Stalled (afterRun q (List.replicate n (offerTo 255))) (number + n) ∧
      handedOver q (List.replicate n (offerTo 255)) = [] ∧
      Spared (fun _ => True) none q (List.replicate n (offerTo 255)) := by
  induction n generalizing q number with
  | zero => exact ⟨h, rfl, trivial⟩
  | succ n ih =>
    obtain ⟨hstalled, hnone, hspared⟩ := ih h.refuse
    refine ⟨?_, hnone, trivial, trivial, hspared⟩
    rw [show number + (n + 1) = number + 1 + n by omega]
    exact hstalled

theorem handedOver_append {Q : Type} [QueueStorage Q] (q : Q) (ops ops' : List QueueOp) :
    handedOver q (ops ++ ops') = handedOver q ops ++ handedOver (afterRun q ops) ops' := by
  induction ops generalizing q with
  | nil => rfl
  | cons op ops ih =>
    show _ ++ handedOver (op.apply q).2 (ops ++ ops') = (_ ++ handedOver (op.apply q).2 ops) ++ _
    rw [ih, List.append_assoc]
    rfl

theorem Spared.append {Q : Type} [LaneStorage Q] {Good : Q → Prop} {expiresAt : Option Instant}
    {q : Q} {ops ops' : List QueueOp} (h : Spared Good expiresAt q ops)
    (h' : Spared Good expiresAt (afterRun q ops) ops') : Spared Good expiresAt q (ops ++ ops') := by
  induction ops generalizing q with
  | nil => exact h'
  | cons op ops ih => exact ⟨h.1, h.2.1, ih h.2.2 h'⟩

/-- The unicast class holds these slots, and the next number is `number`. -/
def Holding (q : FixedQueues 3 1 1) (slots : List Slot) (number : ℕ) : Prop :=
  q.unicast.slots = slots ∧ q.starvationLimit = some 1 ∧ q.sequence = number

def serve : QueueOp := .dequeueKind .unicast 0 1

theorem Holding.offer {q : FixedQueues 3 1 1} {slots : List Slot} {number index : ℕ}
    (h : Holding q slots number) (hfree : slots.findIdx? (·.isFree) = some index) :
    Holding ((offerTo 5).apply q).2
      (slots.modify index fun slot => slot.fill 5 [0] .normal 0 none number)
      (nextSequence number) := by
  obtain ⟨⟨slots', depth, counters⟩, broadcast, sequence, limit⟩ := q
  obtain ⟨rfl, rfl, rfl⟩ := h
  show Holding (FixedQueues.enqueueNpdu _ 5 [0] .normal 0 none).2 _ _
  unfold FixedQueues.enqueueNpdu
  rw [if_neg (by decide), if_neg (by decide)]
  dsimp only
  have hslot : (FixedQueues.lane (⟨⟨slots', depth, counters⟩, broadcast, nextSequence sequence,
      some 1⟩ : FixedQueues 3 1 1) (.fromDestination 5)).freeSlot = some index := hfree
  rw [hslot]
  exact ⟨rfl, rfl, rfl⟩

theorem Holding.serve {q : FixedQueues 3 1 1} {slots : List Slot} {number : ℕ} {selected : Selected}
    (h : Holding q slots number) (hkept : ∀ slot ∈ slots, slot.expiresAt = none)
    (hselect : Lane.selectFrom .unicast 0 1 0 slots none = some selected)
    (hfits : selected.info.len = 1) :
    (∃ npdu, Mstp.serve.handedOver q = some npdu ∧ npdu.kind = .unicast ∧
      npdu.sequence = selected.info.sequence) ∧
    Mstp.serve.Spares q none ∧
    Holding (Mstp.serve.apply q).2
      ((slots.modify selected.index fun slot => { slot with occupied := false }).map Slot.bumped)
      number := by
  obtain ⟨hslots, hlimit, hsequence⟩ := h
  set q₁ := (LaneStorage.expire q 0).2 with hq₁
  have hslots₁ : (lane q₁ .unicast).slots = slots := by
    rw [hq₁, lane_expire]
    show (Lane.expireFrom 0 q.unicast.slots _ _).1 = _
    rw [Lane.expireFrom_slots, hslots]
    refine (List.map_congr_left fun slot hslot => ?_).trans (List.map_id _)
    rw [hkept slot hslot]
    simp [expired]
  have hlimit₁ : LaneStorage.limit q₁ = 1 := by
    show q.starvationLimit.getD defaultStarvationLimit = 1
    rw [hlimit]
    rfl
  have hselected : selectKind q₁ .unicast 0 = some selected := by
    unfold selectKind Lane.select
    rw [hslots₁, hlimit₁]
    exact hselect
  have hspec := dequeues q .unicast 0 1
  have hsequence' := (sequence_dequeueKind q .unicast 0 1).trans hsequence
  have hcall : ∃ npdu q', LaneStorage.dequeueKind q .unicast 0 1 = (.ok (some npdu), q') ∧
      npdu.kind = .unicast ∧ npdu.sequence = selected.info.sequence ∧
      q'.starvationLimit = q.starvationLimit ∧ q'.unicast.slots
        = (slots.modify selected.index fun slot => { slot with occupied := false }).map
            Slot.bumped := by
    unfold LaneStorage.dequeueKind
    dsimp only
    rw [← hq₁, hselected]
    dsimp only
    rw [if_neg (by rw [hfits]; decide)]
    exact ⟨_, _, rfl, rfl, rfl, rfl, hslots₁ ▸ rfl⟩
  obtain ⟨npdu, q', hcall, hkind, hnumber, hlimit', hslots'⟩ := hcall
  rw [hcall] at hsequence'
  show (∃ npdu, taken (LaneStorage.dequeueKind q .unicast 0 1).1 = some npdu ∧ _) ∧
    (expired none 0 = false ∧ (LaneStorage.dequeueKind q .unicast 0 1).1 ≠ .error .oversize) ∧
    Holding (LaneStorage.dequeueKind q .unicast 0 1).2 _ _
  rw [hcall]
  exact ⟨⟨npdu, rfl, hkind, hnumber⟩, ⟨rfl, fun h => by cases h⟩, hslots', hlimit'.trans hlimit,
    hsequence'⟩

theorem offerTo_handedOver (q : FixedQueues 3 1 1) (destination : UInt8) :
    (offerTo destination).handedOver q = none := rfl

/-- Items that come and go before the one that waited `2^63` numbers. -/
def overtaking : List QueueOp :=
  [offerTo 5, offerTo 5, serve, offerTo 5, serve, offerTo 5, serve, offerTo 5, serve]

theorem Holding.overtaken {q : FixedQueues 3 1 1}
    (h : Holding q [passedOver, Slot.empty 1, Slot.empty 1] 9223372036854775810) :
    servedOf .unicast (handedOver q overtaking) = 4 ∧
      (∀ npdu ∈ handedOver q overtaking, npdu.sequence ≠ 1) ∧
      Spared (fun _ => True) none q overtaking := by
  have h₁ := h.offer rfl
  have h₂ := h₁.offer rfl
  obtain ⟨⟨y₁, hy₁, hkind₁, hnumber₁⟩, hspares₁, h₃⟩ := h₂.serve (by decide) rfl rfl
  have h₄ := h₃.offer rfl
  obtain ⟨⟨y₂, hy₂, hkind₂, hnumber₂⟩, hspares₂, h₅⟩ := h₄.serve (by decide) rfl rfl
  have h₆ := h₅.offer rfl
  obtain ⟨⟨y₃, hy₃, hkind₃, hnumber₃⟩, hspares₃, h₇⟩ := h₆.serve (by decide) rfl rfl
  have h₈ := h₇.offer rfl
  obtain ⟨⟨y₄, hy₄, hkind₄, hnumber₄⟩, hspares₄, -⟩ := h₈.serve (by decide) rfl rfl
  have hall : handedOver q overtaking = [y₁, y₂, y₃, y₄] := by
    unfold overtaking
    simp only [handedOver, offerTo_handedOver, hy₁, hy₂, hy₃, hy₄, Option.toList_none,
      Option.toList_some, List.nil_append, List.singleton_append, List.append_nil]
  refine ⟨?_, ?_, trivial, trivial, trivial, trivial, trivial, hspares₁, trivial, trivial, trivial,
    hspares₂, trivial, trivial, trivial, hspares₃, trivial, trivial, trivial, hspares₄, trivial⟩
  · rw [hall]
    unfold servedOf
    rw [List.countP_eq_length.mpr]
    · rfl
    · simp [hkind₁, hkind₂, hkind₃, hkind₄]
  · rw [hall]
    intro npdu hnpdu
    simp only [List.mem_cons, List.not_mem_nil, or_false] at hnpdu
    rcases hnpdu with rfl | rfl | rfl | rfl
    · rw [hnumber₁]
      decide
    · rw [hnumber₂]
      decide
    · rw [hnumber₃]
      decide
    · rw [hnumber₄]
      decide

/-- Without the bound on the numbers an item may wait for ever: here the limit is 1 and the
capacity 3, and it still waits after four others. -/
theorem overtaken :
    ¬ ServesInTime (fun _ _ => True) (FixedQueues.new : FixedQueues 3 1 1)
      (fun | .unicast => 3 | .broadcast => 1) := by
  intro h
  let start : FixedQueues 3 1 1 := FixedQueues.new
  let before : List QueueOp := [.setStarvationLimit 1, offerTo 255]
  let q : FixedQueues 3 1 1 := ((offerTo 5).apply (afterRun start before)).2
  have hstalled : Stalled q 2 := ⟨rfl, rfl, rfl, rfl⟩
  obtain ⟨⟨hslots, -, hlimit, hsequence⟩, hnone, hspared⟩ :=
    hstalled.refuseMany 9223372036854775808
  have hholding : Holding (afterRun q (List.replicate 9223372036854775808 (offerTo 255)))
      [passedOver, Slot.empty 1, Slot.empty 1] 9223372036854775810 :=
    ⟨hslots, hlimit, hsequence⟩
  obtain ⟨hserved, hothers, hspared'⟩ := hholding.overtaken
  generalize hwait : List.replicate 9223372036854775808 (offerTo 255) = wait at *
  have hall := handedOver_append q wait overtaking
  rw [hnone, List.nil_append] at hall
  obtain ⟨others, npdu, rest, heq, -, hnumber, -⟩ := h before 5 [0] .normal 0 none q rfl
    (wait ++ overtaking) (hspared.append hspared') (by
      show 1 + 3 ≤ servedOf .unicast (handedOver q (wait ++ overtaking))
      rw [hall, hserved])
  rw [hall] at heq
  refine hothers npdu ?_ hnumber
  rw [heq]
  exact List.mem_append_right _ List.mem_cons_self

end RustyBacnet.Mstp
