import RustyBacnet.Mstp.QueueRefine

/-!
# The queue backends agree

Every operation of a backend keeps the simulation with `Reference` and gives the same answer, the
sequence numbers aside; runs of operations follow by induction. A run of fewer than `2^63`
operations uses fewer than `2^63` sequence numbers, so the half-range comparison never wraps.
-/

namespace RustyBacnet.Mstp

open LaneStorage

def QueueItemInfo.unnumbered (info : QueueItemInfo) : QueueItemInfo := { info with sequence := 0 }

def DequeuedNpdu.unnumbered (npdu : DequeuedNpdu) : DequeuedNpdu := { npdu with sequence := 0 }

def unnumberedResult : Except QueueRefusal (Option DequeuedNpdu) →
    Except QueueRefusal (Option DequeuedNpdu)
  | .error refusal => .error refusal
  | .ok none => .ok none
  | .ok (some npdu) => .ok (some npdu.unnumbered)

variable {slots : List Slot}

section Operations

variable {Q : Type} [LaneStorage Q] {q q' : Q} {r r' : Reference} {f : ℕ → ℕ}

theorem lane_expire (q : Q) (now : Instant) (kind : QueueKind) :
    lane (expire q now).2 kind = ((lane q kind).expire now).2 := by
  cases kind <;> simp [expire, lane_setLane]

theorem lane_bumpWaits (q : Q) (kind : QueueKind) :
    lane (bumpWaits q) kind = (lane q kind).bumpWaits := by
  cases kind <;> simp [bumpWaits, lane_setLane]

theorem Sim.of_lanes (h : Sim q r f) (hlimit : LaneStorage.limit q' = r'.limit)
    (hlanes : ∀ kind, (lane q' kind).Holds f (r'.items kind))
    (hcounters : ∀ kind, (lane q' kind).counters = r'.counters kind)
    (hsub : ∀ kind, ((r'.items kind).map (·.number)).Sublist ((r.items kind).map (·.number)))
    (harrivals : r'.arrivals = r.arrivals) (hsequence : sequence q' = sequence q)
    (hcapacity : ∀ kind, r'.capacity kind = LaneStorage.capacity q' kind)
    (hmax : r'.maxNpdu = LaneStorage.maxNpdu q') : Sim q' r' f where
  limit := hlimit
  lanes := hlanes
  counters := hcounters
  distinct := by
    refine h.distinct.sublist ?_
    rw [List.map_append, List.map_append]
    exact (hsub .unicast).append (hsub .broadcast)
  arrived := by
    intro kind i hi
    obtain ⟨j, hj, heq⟩ := List.mem_map.mp ((hsub kind).subset (List.mem_map_of_mem hi))
    rw [harrivals, ← heq]
    exact h.arrived kind j hj
  increasing := by
    rw [harrivals]
    exact h.increasing
  below := by
    rw [harrivals, hsequence]
    exact h.below
  small := by
    rw [hsequence]
    exact h.small
  capacity := hcapacity
  maxNpdu := hmax

theorem Sim.mapCounters (h : Sim q r f) (kind : QueueKind) (g : QueueCounters → QueueCounters) :
    Sim (LaneStorage.mapCounters q kind g) (r.mapCounters kind g) f := by
  have hlane : ∀ k, lane (LaneStorage.mapCounters q kind g) k
      = if k = kind then { lane q kind with counters := g (lane q kind).counters } else lane q k :=
    fun k => lane_setLane _ _ _ _
  refine h.of_lanes ((limit_setLane _ _ _).trans h.limit) (fun k => ?_) (fun k => ?_)
    (fun k => List.Sublist.refl _) rfl (sequence_setLane _ _ _) (fun k => ?_)
    (h.maxNpdu.trans (maxNpdu_setLane _ _ _).symm)
  · rw [hlane]
    split_ifs with hk
    · subst hk
      exact ⟨(h.lanes k).perm, (h.lanes k).depth, (h.lanes k).sized⟩
    · exact h.lanes k
  · rw [hlane]
    show _ = Function.update r.counters kind _ k
    split_ifs with hk
    · subst hk
      simp [h.counters]
    · rw [Function.update_of_ne hk, h.counters]
  · exact (h.capacity k).trans (capacity_setLane q kind
      { lane q kind with counters := g (lane q kind).counters } rfl k).symm

theorem Sim.expire (h : Sim q r f) (now : Instant) :
    Sim (LaneStorage.expire q now).2 (r.expire now).2 f ∧
      (LaneStorage.expire q now).1 = (r.expire now).1 := by
  have hexp := fun kind => Lane.expire_holds now (h.lanes kind)
  refine ⟨h.of_lanes ?_ (fun kind => ?_) (fun kind => ?_) (fun kind => ?_) rfl ?_ (fun kind => ?_)
    ?_, ?_⟩
  · show LaneStorage.limit (LaneStorage.expire q now).2 = r.limit
    simpa [LaneStorage.expire] using h.limit
  · rw [lane_expire]
    exact (hexp kind).1
  · rw [lane_expire, (hexp kind).2.2.1, h.counters]
    rfl
  · exact List.filter_sublist.map _
  · simp [LaneStorage.expire]
  · have hfirst := capacity_setLane q .unicast ((lane q .unicast).expire now).2
      (hexp .unicast).2.2.2 kind
    have hsecond := capacity_setLane (setLane q .unicast ((lane q .unicast).expire now).2)
      .broadcast ((lane q .broadcast).expire now).2
      (by rw [lane_setLane, if_neg (by decide)]; exact (hexp .broadcast).2.2.2) kind
    exact (h.capacity kind).trans (hfirst.symm.trans hsecond.symm)
  · show r.maxNpdu = LaneStorage.maxNpdu (LaneStorage.expire q now).2
    simpa [LaneStorage.expire] using h.maxNpdu
  · show ((lane q .unicast).expire now).1 + ((lane q .broadcast).expire now).1 = _
    rw [(hexp .unicast).2.1, (hexp .broadcast).2.1]
    rfl

theorem Sim.bumpWaits (h : Sim q r f) :
    Sim (LaneStorage.bumpWaits q)
      { r with items := fun kind => (r.items kind).map Lane.bumpItem } f := by
  have hlen : ∀ kind, (lane q kind).bumpWaits.slots.length = (lane q kind).slots.length :=
    fun kind => List.length_map _
  refine h.of_lanes ?_ (fun kind => ?_) (fun kind => ?_) (fun kind => ?_) rfl ?_ (fun kind => ?_) ?_
  · simpa [LaneStorage.bumpWaits] using h.limit
  · rw [lane_bumpWaits]
    exact Lane.bumpWaits_holds (h.lanes kind)
  · rw [lane_bumpWaits]
    exact h.counters kind
  · show ((List.map _ _).map _).Sublist _
    rw [List.map_map]
    exact List.Sublist.refl _
  · simp [LaneStorage.bumpWaits]
  · have hfirst := capacity_setLane q .unicast (lane q .unicast).bumpWaits (hlen .unicast) kind
    have hsecond := capacity_setLane (setLane q .unicast (lane q .unicast).bumpWaits) .broadcast
      (lane q .broadcast).bumpWaits
      (by rw [lane_setLane, if_neg (by decide)]; exact hlen .broadcast) kind
    refine (h.capacity kind).trans (hfirst.symm.trans (hsecond.symm.trans ?_))
    simp [LaneStorage.bumpWaits, lane_setLane]
  · simpa [LaneStorage.bumpWaits] using h.maxNpdu

variable {slot : Slot} {kind : QueueKind} {index : ℕ}

theorem Sim.remove (h : Sim q r f) {m : Waiting} (hm : m ∈ r.items kind)
    (hslot : (lane q kind).slots[index]? = some slot) (hocc : slot.occupied = true)
    (hitem : slot.item = m.renumber f) :
    Sim (setLane q kind ((lane q kind).remove index))
      { r with
        items := Function.update r.items kind ((r.items kind).erase m)
        counters := Function.update r.counters kind
          ((r.counters kind).recordDequeue ((r.items kind).erase m).length) } f := by
  have hholds := Lane.remove_holds (h.lanes kind) hslot hocc hm hitem
  refine h.of_lanes (by simpa using h.limit) (fun k => ?_) (fun k => ?_) (fun k => ?_) rfl
    (by simp) (fun k => ?_) (by simpa using h.maxNpdu)
  · rw [lane_setLane]
    split_ifs with hk
    · subst hk
      simpa using hholds
    · simpa [Function.update_of_ne hk] using h.lanes k
  · rw [lane_setLane]
    split_ifs with hk
    · subst hk
      have hdepth : (lane q k).depth - 1 = ((r.items k).erase m).length := hholds.depth
      simp only [Function.update_self]
      rw [← h.counters k, ← hdepth]
      rfl
    · simpa [Function.update_of_ne hk] using h.counters k
  · by_cases hk : k = kind
    · subst hk
      simpa using List.erase_sublist.map _
    · simp [Function.update_of_ne hk]
  · exact (h.capacity k).trans
      (capacity_setLane _ _ _ (by simp [Lane.remove]) k).symm

theorem unnumbered_info {i : Waiting} (hsized : slot.payload.length = slot.len)
    (hitem : slot.item = i.renumber f) :
    (slot.info kind).unnumbered = (i.info kind).unnumbered := by
  obtain ⟨destination, priority, enqueuedAt, expiresAt, wait, npdu, number⟩ := i
  simp only [Slot.item, Waiting.renumber, Waiting.mk.injEq] at hitem
  obtain ⟨h₁, h₂, h₃, h₄, h₅, h₆, -⟩ := hitem
  simp [QueueItemInfo.unnumbered, Slot.info, Waiting.info, ← hsized, h₁, h₂, h₃, h₄, h₅, h₆]

theorem live_live (now : Instant) (items : List Waiting) :
    Reference.live now (Reference.live now items) = Reference.live now items := by
  simp [Reference.live, List.filter_filter]

theorem Sim.dequeueKind (h : Sim q r f) (kind : QueueKind) (now : Instant) (maxLen : ℕ) :
    Sim (LaneStorage.dequeueKind q kind now maxLen).2 (r.dequeueKind kind now maxLen).2 f ∧
      unnumberedResult (LaneStorage.dequeueKind q kind now maxLen).1
        = unnumberedResult (r.dequeueKind kind now maxLen).1 := by
  have hexp := (h.expire now).1
  set q₁ := (LaneStorage.expire q now).2 with hq₁
  set r₁ := (r.expire now).2 with hr₁
  have hlive : Reference.live now (r₁.items kind) = r₁.items kind := live_live now _
  have hsel := hexp.selectKind_preferred kind now
  rw [hlive] at hsel
  unfold LaneStorage.dequeueKind Reference.dequeueKind
  simp only [← hq₁, ← hr₁]
  rcases hsel with ⟨hnone, hpref⟩ | ⟨s, m, hsome, hkind, hpref, hlive', slot, hslot, hocc, hitem, hinfo⟩
  · simp only [hnone, hpref]
    exact ⟨hexp, trivial⟩
  · subst hkind
    rw [hlive] at hlive'
    simp only [hsome, hpref]
    have hsized := (hexp.lanes s.kind).sized slot (List.mem_of_getElem? hslot) hocc
    have hun : (slot.info s.kind).unnumbered = (m.info s.kind).unnumbered :=
      unnumbered_info hsized hitem
    have hlen : s.info.len = m.npdu.length := by
      rw [hinfo]
      exact congrArg QueueItemInfo.len hun
    have hremove := hexp.remove hlive' hslot hocc hitem
    by_cases hlong : maxLen < m.npdu.length
    · rw [if_pos (by rw [hlen]; exact hlong), if_pos hlong]
      exact ⟨hremove.mapCounters s.kind .recordDropOversize, rfl⟩
    · rw [if_neg (by rw [hlen]; exact hlong), if_neg hlong]
      refine ⟨hremove.bumpWaits, ?_⟩
      have hpayload : ((lane (LaneStorage.bumpWaits
          (setLane q₁ s.kind ((lane q₁ s.kind).remove s.index))) s.kind).slots.getD s.index
            (Slot.empty 0)).payload = m.npdu := by
        rw [lane_bumpWaits, lane_setLane, if_pos rfl, Lane.payload_remove_bumpWaits hslot]
        exact congrArg Waiting.npdu hitem
      have hdest : s.info.destination = m.destination := by
        rw [hinfo]
        exact congrArg QueueItemInfo.destination hun
      have hprio : s.info.priority = m.priority := by
        rw [hinfo]
        exact congrArg QueueItemInfo.priority hun
      simp only [unnumberedResult, DequeuedNpdu.unnumbered, hpayload, hdest, hprio]

theorem Sim.peekKind (h : Sim q r f) (kind : QueueKind) (now : Instant) :
    ((selectKind q kind now).map (·.info)).map QueueItemInfo.unnumbered
      = (r.peekKind kind now).map QueueItemInfo.unnumbered := by
  unfold Reference.peekKind
  rcases h.selectKind_preferred kind now with ⟨hnone, hpref⟩ | ⟨s, m, hsome, rfl, hpref, hsm⟩
  · rw [hnone, hpref]
    rfl
  · obtain ⟨-, slot, hslot, hocc, hitem, hinfo⟩ := hsm
    have hsized := (h.lanes s.kind).sized slot (List.mem_of_getElem? hslot) hocc
    rw [hsome, hpref, Option.map_some, Option.map_some, Option.map_some, Option.map_some, hinfo,
      unnumbered_info hsized hitem]

theorem Sim.peek (h : Sim q r f) (now : Instant) :
    ((select q now).map (·.info)).map QueueItemInfo.unnumbered
      = (r.peek now).map QueueItemInfo.unnumbered := by
  unfold Reference.peek
  dsimp only
  rcases h.select_preferred now with ⟨hnone, hpref⟩ | ⟨s, m, hsome, hpref, hsm⟩
  · rw [hnone]
    simp only [bothLive] at hpref
    rw [hpref]
    rfl
  · obtain ⟨hlive, slot, hslot, hocc, hitem, hinfo⟩ := hsm
    have hsized := (h.lanes s.kind).sized slot (List.mem_of_getElem? hslot) hocc
    -- The item is in one list only, since its number is.
    have hkind : (if m ∈ Reference.live now (r.items .unicast) then QueueKind.unicast
        else .broadcast) = s.kind := by
      split_ifs with hmem
      · cases hk : s.kind with
        | unicast => rfl
        | broadcast =>
          rw [hk] at hlive
          have hdisjoint := List.nodup_append.mp (by simpa using h.distinct)
          exact absurd rfl (hdisjoint.2.2 _ (List.mem_map_of_mem (List.mem_of_mem_filter hmem)) _
            (List.mem_map_of_mem (List.mem_of_mem_filter hlive)))
      · cases hk : s.kind with
        | unicast =>
          rw [hk] at hlive
          exact absurd hlive hmem
        | broadcast => rfl
    simp only [bothLive] at hpref
    rw [hsome, hpref, Option.map_some, Option.map_some, Option.map_some, Option.map_some, hkind,
      hinfo, unnumbered_info hsized hitem]

/-! ## Arrivals -/

theorem nextSequence_eq {n : ℕ} (h : n < 2 ^ 63) : nextSequence n = n + 1 := by
  unfold nextSequence
  omega

theorem Lane.freeSlot_spec (lane : Lane) :
    (lane.freeSlot = none ∧ (itemsOf lane.slots).length = lane.slots.length) ∨
      ∃ index slot, lane.freeSlot = some index ∧ lane.slots[index]? = some slot ∧
        slot.occupied = false ∧ (itemsOf lane.slots).length < lane.slots.length := by
  unfold freeSlot
  cases hfree : lane.slots.findIdx? (·.isFree) with
  | none =>
    refine .inl ⟨rfl, ?_⟩
    rw [List.findIdx?_eq_none_iff] at hfree
    unfold itemsOf
    rw [List.length_map, List.filter_eq_self.mpr fun s hs => by simpa [Slot.isFree] using hfree s hs]
  | some index =>
    obtain ⟨hlt, hget, -⟩ := List.findIdx?_eq_some_iff_getElem.mp hfree
    have hocc : lane.slots[index].occupied = false := by simpa [Slot.isFree] using hget
    refine .inr ⟨index, lane.slots[index], rfl, List.getElem?_eq_getElem hlt, hocc, ?_⟩
    unfold itemsOf
    rw [List.length_map]
    exact List.length_filter_lt_length_iff_exists.mpr
      ⟨_, List.getElem_mem hlt, by simp [hocc]⟩

/-- Taking an item in under the next number. -/
theorem Sim.accept {destination : UInt8} {payload : List UInt8} {priority : NetworkPriority}
    {now : Instant} {expiresAt : Option Instant} (h : Sim q r f) (kind : QueueKind)
    (hsmall : sequence q < 2 ^ 63) (hitems : Lane.itemsOf slots = Lane.itemsOf (lane q kind).slots)
    (hsized : ∀ slot ∈ slots, slot.occupied = true → slot.payload.length = slot.len)
    (hslot : slots[index]? = some slot) (hfree : slot.occupied = false)
    (hlen : payload.length ≤ 65535)
    (hlane : ∀ k, lane q' k = if k = kind then Lane.recordEnqueue { lane q kind with
        slots := slots.modify index fun slot =>
          slot.fill destination payload priority now expiresAt (sequence q) } else lane q k)
    (hlimit : LaneStorage.limit q' = LaneStorage.limit q) (hseq : sequence q' = sequence q + 1)
    (hcapacity : ∀ k, LaneStorage.capacity q' k = LaneStorage.capacity q k)
    (hmax : LaneStorage.maxNpdu q' = LaneStorage.maxNpdu q) :
    Sim q' (r.accept kind ⟨destination, priority, now, expiresAt, 0, payload, r.arrivals⟩)
      (Function.update f r.arrivals (sequence q)) := by
  set g := Function.update f r.arrivals (sequence q) with hg
  have hold : ∀ a, a < r.arrivals → g a = f a := fun a ha => Function.update_of_ne (by omega) _ _
  have hnew : g r.arrivals = sequence q := Function.update_self _ _ _
  have hkeep : ∀ k, (lane q k).Holds g (r.items k) := fun k =>
    (h.lanes k).congr fun i hi => hold _ (h.arrived k i hi)
  have hfill := Lane.fill_holds destination priority now expiresAt hitems hsized (hkeep kind) hslot hfree hlen hnew
  unfold Reference.accept
  refine ⟨hlimit.trans h.limit, fun k => ?_, fun k => ?_, ?_, fun k i hi => ?_, ?_, ?_, ?_,
    fun k => (h.capacity k).trans (hcapacity k).symm, h.maxNpdu.trans hmax.symm⟩
  · rw [hlane]
    split_ifs with hk
    · subst hk
      simpa using hfill
    · simpa [Function.update_of_ne hk] using hkeep k
  · rw [hlane]
    split_ifs with hk
    · subst hk
      have hdepth : (lane q k).depth + 1 = _ := hfill.depth
      simp only [Function.update_self]
      rw [← hdepth, ← h.counters k]
      rfl
    · simpa [Function.update_of_ne hk] using h.counters k
  · have hlt : ∀ n ∈ (r.items .unicast ++ r.items .broadcast).map (·.number), n < r.arrivals := by
      intro n hn
      obtain ⟨i, hi, rfl⟩ := List.mem_map.mp hn
      rcases List.mem_append.mp hi with hi | hi
      · exact h.arrived _ i hi
      · exact h.arrived _ i hi
    have hperm : (((Function.update r.items kind (r.items kind ++
          [⟨destination, priority, now, expiresAt, 0, payload, r.arrivals⟩])) .unicast ++
        (Function.update r.items kind (r.items kind ++
          [⟨destination, priority, now, expiresAt, 0, payload, r.arrivals⟩])) .broadcast).map
            (·.number)).Perm
        (r.arrivals :: (r.items .unicast ++ r.items .broadcast).map (·.number)) := by
      cases kind
      · simp only [Function.update_self, Function.update_of_ne (show QueueKind.broadcast ≠ .unicast
          by decide), List.map_append, List.map_cons, List.append_assoc, List.singleton_append]
        exact List.perm_middle
      · simp only [Function.update_self, Function.update_of_ne (show QueueKind.unicast ≠ .broadcast
          by decide), List.map_append, List.map_cons, List.map_nil, ← List.append_assoc]
        exact List.perm_append_singleton _ _
    exact hperm.nodup_iff.mpr (List.nodup_cons.mpr
      ⟨fun hmem => absurd (hlt _ hmem) (Nat.lt_irrefl _), h.distinct⟩)
  · show i.number < r.arrivals + 1
    by_cases hk : k = kind
    · subst hk
      simp only [Function.update_self, List.mem_append, List.mem_singleton] at hi
      rcases hi with hi | rfl
      · have := h.arrived k i hi
        omega
      · exact Nat.lt_succ_self _
    · simp only [Function.update_of_ne hk] at hi
      have := h.arrived k i hi
      omega
  · intro a b hab hb
    replace hb : b < r.arrivals + 1 := hb
    rw [hold a (by omega)]
    by_cases hnewb : b = r.arrivals
    · rw [hnewb, hnew]
      exact h.below a (by omega)
    · rw [hold b (by omega)]
      exact h.increasing a b hab (by omega)
  · intro a ha
    replace ha : a < r.arrivals + 1 := ha
    rw [hseq]
    by_cases hnewa : a = r.arrivals
    · rw [hnewa, hnew]
      exact Nat.lt_succ_self _
    · rw [hold a (by omega)]
      have := h.below a (by omega)
      omega
  · rw [hseq]
    omega

theorem Sim.skipNumber (h : Sim q r f) (hlane : ∀ k, lane q' k = lane q k)
    (hlimit : LaneStorage.limit q' = LaneStorage.limit q) (hle : sequence q ≤ sequence q')
    (hsmall : sequence q' ≤ 2 ^ 63)
    (hcapacity : ∀ k, LaneStorage.capacity q' k = LaneStorage.capacity q k)
    (hmax : LaneStorage.maxNpdu q' = LaneStorage.maxNpdu q) : Sim q' r f where
  limit := hlimit.trans h.limit
  lanes k := by
    rw [hlane]
    exact h.lanes k
  counters k := by
    rw [hlane]
    exact h.counters k
  distinct := h.distinct
  arrived := h.arrived
  increasing := h.increasing
  below a ha := Nat.lt_of_lt_of_le (h.below a ha) hle
  small := hsmall
  capacity k := (h.capacity k).trans (hcapacity k).symm
  maxNpdu := h.maxNpdu.trans hmax.symm

end Operations

/-- What a backend's own enqueue has to do: answer as the reference does, keep the simulation, and
use up at most one sequence number. -/
def Enqueues (Q : Type) [LaneStorage Q] : Prop :=
  ∀ (q : Q) (r : Reference) (f : ℕ → ℕ) (destination : UInt8) (payload : List UInt8)
    (priority : NetworkPriority) (now : Instant) (expiresAt : Option Instant),
    Sim q r f → LaneStorage.maxNpdu q ≤ 65535 → sequence q < 2 ^ 63 →
    (enqueueNpdu q destination payload priority now expiresAt).1
        = (r.enqueueNpdu destination payload priority now expiresAt).1 ∧
      sequence (enqueueNpdu q destination payload priority now expiresAt).2 ≤ sequence q + 1 ∧
      ∃ g, Sim (enqueueNpdu q destination payload priority now expiresAt).2
        (r.enqueueNpdu destination payload priority now expiresAt).2 g

variable (U B N : ℕ)

theorem FixedQueues.enqueues : Enqueues (FixedQueues U B N) := by
  intro q r f destination payload priority now expiresAt h hN hsmall
  have hmax : r.maxNpdu = N := h.maxNpdu
  replace hN : N ≤ 65535 := hN
  show (FixedQueues.enqueueNpdu q _ _ _ _ _).1 = _ ∧
    (FixedQueues.enqueueNpdu q _ _ _ _ _).2.sequence ≤ q.sequence + 1 ∧
    ∃ g, Sim (FixedQueues.enqueueNpdu q _ _ _ _ _).2 _ g
  unfold FixedQueues.enqueueNpdu Reference.enqueueNpdu
  dsimp only
  rw [hmax]
  generalize QueueKind.fromDestination destination = kind
  by_cases hlong : N < payload.length
  · rw [if_pos hlong, if_pos hlong]
    exact ⟨rfl, by cases kind <;> exact Nat.le_succ _, f, h.mapCounters kind .recordDropOversize⟩
  rw [if_neg hlong, if_neg hlong]
  by_cases hexpired : expired expiresAt now = true
  · rw [if_pos hexpired, if_pos hexpired]
    exact ⟨rfl, by cases kind <;> exact Nat.le_succ _, f, h.mapCounters kind .recordDropExpired⟩
  rw [if_neg hexpired, if_neg hexpired]
  have hnext := nextSequence_eq hsmall
  have hcap : r.capacity kind = (q.lane kind).slots.length := h.capacity kind
  have hlen : (Lane.itemsOf (q.lane kind).slots).length = (r.items kind).length :=
    (h.lanes kind).length_eq
  set q₁ : FixedQueues U B N := { q with sequence := nextSequence q.sequence } with hq₁
  have hlane₁ : ∀ k, q₁.lane k = q.lane k := fun k => by cases k <;> rfl
  have hseq₁ : q₁.sequence = q.sequence + 1 := hnext
  rw [hlane₁]
  rcases (q.lane kind).freeSlot_spec with ⟨hnone, hall⟩ | ⟨index, slot, hsome, hslot, hfree, hlt⟩
  · rw [hnone, if_pos (by omega)]
    have hskip : Sim q₁ r f := h.skipNumber hlane₁ rfl (by show q.sequence ≤ q₁.sequence; omega)
      (by show q₁.sequence ≤ _; have : q.sequence < 2 ^ 63 := hsmall; omega)
      (fun k => by show (q₁.lane k).slots.length = _; rw [hlane₁]; rfl) rfl
    refine ⟨rfl, ?_, f, hskip.mapCounters kind .recordDropFull⟩
    cases kind <;> exact hseq₁.le
  · rw [hsome, if_neg (by omega)]
    refine ⟨rfl, by cases kind <;> exact hseq₁.le, _, h.accept kind hsmall rfl
      (h.lanes kind).sized hslot hfree (by omega) (fun k => ?_) ?_ ?_ (fun k => ?_) ?_⟩
    · cases kind <;> cases k <;> rfl
    · cases kind <;> rfl
    · cases kind <;> exact hseq₁
    · cases kind <;> cases k <;> first | rfl | simp [LaneStorage.capacity, Lane.recordEnqueue, FixedQueues.lane, FixedQueues.setLane, hq₁]
    · cases kind <;> rfl

theorem AllocQueues.slotFor_spec (n : ℕ) {lane : Lane} {f : ℕ → ℕ} {items : List Waiting}
    (h : lane.Holds f items) :
    Lane.itemsOf (slotFor n lane).1 = Lane.itemsOf lane.slots ∧
      (∀ slot ∈ (slotFor n lane).1, slot.occupied = true → slot.payload.length = slot.len) ∧
      ∃ slot, (slotFor n lane).1[(slotFor n lane).2]? = some slot ∧ slot.occupied = false := by
  unfold slotFor
  rcases lane.freeSlot_spec with ⟨hnone, -⟩ | ⟨index, slot, hsome, hslot, hfree, -⟩
  · rw [hnone]
    refine ⟨?_, ?_, Slot.empty n, by simp, rfl⟩
    · show Lane.itemsOf (lane.slots ++ [Slot.empty n]) = _
      rw [Lane.itemsOf_append]
      simp [Lane.itemsOf, Slot.empty]
    · intro s hs hocc
      rcases List.mem_append.mp hs with hs | hs
      · exact h.sized s hs hocc
      · rw [List.mem_singleton.mp hs] at hocc
        exact absurd hocc (by simp [Slot.empty])
  · rw [hsome]
    exact ⟨rfl, h.sized, slot, hslot, hfree⟩

theorem AllocQueues.enqueues : Enqueues (AllocQueues N) := by
  intro q r f destination payload priority now expiresAt h hN hsmall
  have hmax : r.maxNpdu = N := h.maxNpdu
  replace hN : N ≤ 65535 := hN
  show (AllocQueues.enqueueNpdu q _ _ _ _ _).1 = _ ∧
    (AllocQueues.enqueueNpdu q _ _ _ _ _).2.sequence ≤ q.sequence + 1 ∧
    ∃ g, Sim (AllocQueues.enqueueNpdu q _ _ _ _ _).2 _ g
  unfold AllocQueues.enqueueNpdu Reference.enqueueNpdu
  rw [hmax]
  generalize QueueKind.fromDestination destination = kind
  by_cases hlong : N < payload.length
  · rw [if_pos hlong, if_pos hlong]
    exact ⟨rfl, by cases kind <;> exact Nat.le_succ _, f, h.mapCounters kind .recordDropOversize⟩
  rw [if_neg hlong, if_neg hlong]
  by_cases hexpired : expired expiresAt now = true
  · rw [if_pos hexpired, if_pos hexpired]
    exact ⟨rfl, by cases kind <;> exact Nat.le_succ _, f, h.mapCounters kind .recordDropExpired⟩
  rw [if_neg hexpired, if_neg hexpired]
  have hcap : r.capacity kind = q.capacity kind := h.capacity kind
  have hdepth : (q.lane kind).depth = (r.items kind).length := (h.lanes kind).depth
  by_cases hfull : q.capacity kind ≤ (q.lane kind).depth
  · rw [if_pos hfull, if_pos (by omega)]
    exact ⟨rfl, by cases kind <;> exact Nat.le_succ _, f, h.mapCounters kind .recordDropFull⟩
  rw [if_neg hfull, if_neg (by omega)]
  have hseq : ∀ lane, nextSequence (q.setLane kind lane).sequence = q.sequence + 1 := by
    intro lane
    have : (q.setLane kind lane).sequence = q.sequence := by cases kind <;> rfl
    rw [this]
    exact nextSequence_eq hsmall
  obtain ⟨hitems, hsized, slot, hslot, hfree⟩ := AllocQueues.slotFor_spec N (h.lanes kind)
  refine ⟨rfl, (hseq _).le, _, h.accept kind hsmall hitems hsized hslot hfree (by omega)
    (fun k => ?_) ?_ (hseq _) (fun k => ?_) ?_⟩
  · cases kind <;> cases k <;> rfl
  · cases kind <;> rfl
  · cases kind <;> cases k <;> rfl
  · cases kind <;> rfl

/-! ## Runs -/

/-- A call of the queue interface. -/
inductive QueueOp where
  | setStarvationLimit (limit : UInt8)
  | enqueueNpdu (destination : UInt8) (payload : List UInt8) (priority : NetworkPriority)
      (now : Instant) (expiresAt : Option Instant)
  | expire (now : Instant)
  | peek (now : Instant)
  | peekKind (kind : QueueKind) (now : Instant)
  | dequeue (now : Instant) (maxLen : ℕ)
  | dequeueKind (kind : QueueKind) (now : Instant) (maxLen : ℕ)
  | takeCounters (kind : QueueKind)

/-- What a call returns, without sequence numbers. -/
inductive QueueResult where
  | limitSet
  | enqueued (result : Except QueueRefusal Unit)
  | expired (removed : ℕ)
  | peeked (info : Option QueueItemInfo)
  | dequeued (result : Except QueueRefusal (Option DequeuedNpdu))
  | taken (counters : QueueCounters)

namespace QueueOp

variable {Q : Type} [QueueStorage Q]

def apply (q : Q) : QueueOp → QueueResult × Q
  | setStarvationLimit limit => (.limitSet, QueueStorage.setStarvationLimit q limit)
  | enqueueNpdu destination payload priority now expiresAt =>
    let (result, q) := QueueStorage.enqueueNpdu q destination payload priority now expiresAt
    (.enqueued result, q)
  | expire now =>
    let (removed, q) := QueueStorage.expire q now
    (.expired removed, q)
  | peek now => (.peeked ((QueueStorage.peek q now).map QueueItemInfo.unnumbered), q)
  | peekKind kind now =>
    (.peeked ((QueueStorage.peekKind q kind now).map QueueItemInfo.unnumbered), q)
  | dequeue now maxLen =>
    let (result, q) := QueueStorage.dequeue q now maxLen
    (.dequeued (unnumberedResult result), q)
  | dequeueKind kind now maxLen =>
    let (result, q) := QueueStorage.dequeueKind q kind now maxLen
    (.dequeued (unnumberedResult result), q)
  | takeCounters kind =>
    let (counters, q) := QueueStorage.takeCounters q kind
    (.taken counters, q)

end QueueOp

/-- A call's result, with the depths and counters it leaves. -/
structure QueueObservation where
  result : QueueResult
  depth : QueueKind → ℕ
  counters : QueueKind → QueueCounters

def observations {Q : Type} [QueueStorage Q] (q : Q) : List QueueOp → List QueueObservation
  | [] => []
  | op :: ops =>
    let (result, q) := op.apply q
    ⟨result, QueueStorage.depth q, QueueStorage.counters q⟩ :: observations q ops

section Runs

variable {Q : Type} [LaneStorage Q] {q : Q} {r : Reference} {f : ℕ → ℕ}

theorem Sim.setStarvationLimit (h : Sim q r f) (limit : UInt8) :
    Sim (LaneStorage.setStarvationLimit q limit) { r with limit := limit } f := by
  refine h.of_lanes (limit_setStarvationLimit q limit) (fun kind => ?_) (fun kind => ?_)
    (fun _ => List.Sublist.refl _) rfl (sequence_setStarvationLimit q limit) (fun kind => ?_) ?_
  · rw [lane_setStarvationLimit]
    exact h.lanes kind
  · rw [lane_setStarvationLimit]
    exact h.counters kind
  · rw [capacity_setStarvationLimit]
    exact h.capacity kind
  · rw [maxNpdu_setStarvationLimit]
    exact h.maxNpdu

theorem Sim.takeCounters (h : Sim q r f) (kind : QueueKind) :
    Sim (LaneStorage.takeCounters q kind).2 (r.mapCounters kind fun c => c.take.2) f ∧
      (LaneStorage.takeCounters q kind).1 = (r.counters kind).take.1 := by
  have hcounters := h.counters kind
  refine ⟨?_, ?_⟩
  · show Sim (LaneStorage.mapCounters q kind fun _ => (lane q kind).counters.take.2) _ f
    have hmap := h.mapCounters kind fun c => c.take.2
    exact hmap
  · show (lane q kind).counters.take.1 = _
    rw [hcounters]

theorem Sim.dequeue (h : Sim q r f) (now : Instant) (maxLen : ℕ) :
    Sim (QueueStorage.dequeue q now maxLen).2 (QueueStorage.dequeue r now maxLen).2 f ∧
      unnumberedResult (QueueStorage.dequeue q now maxLen).1
        = unnumberedResult (QueueStorage.dequeue r now maxLen).1 := by
  have hpeek : (QueueStorage.peek q now).map QueueItemInfo.unnumbered
      = (QueueStorage.peek r now).map QueueItemInfo.unnumbered := h.peek now
  unfold QueueStorage.dequeue
  cases hq : QueueStorage.peek q now with
  | none =>
    rw [hq, Option.map_none, eq_comm, Option.map_eq_none_iff] at hpeek
    rw [hpeek]
    exact ⟨h, rfl⟩
  | some info =>
    rw [hq, Option.map_some, eq_comm, Option.map_eq_some_iff] at hpeek
    obtain ⟨info', hr, heq⟩ := hpeek
    have hkind : info'.unnumbered.kind = info.unnumbered.kind := congrArg (·.kind) heq
    replace hkind : info'.kind = info.kind := hkind
    rw [hr]
    show Sim (LaneStorage.dequeueKind q info.kind now maxLen).2
        (r.dequeueKind info'.kind now maxLen).2 f ∧
      unnumberedResult (LaneStorage.dequeueKind q info.kind now maxLen).1
        = unnumberedResult (r.dequeueKind info'.kind now maxLen).1
    rw [hkind]
    exact h.dequeueKind info.kind now maxLen

theorem sequence_dequeueKind (q : Q) (kind : QueueKind) (now : Instant) (maxLen : ℕ) :
    sequence (LaneStorage.dequeueKind q kind now maxLen).2 = sequence q := by
  unfold LaneStorage.dequeueKind LaneStorage.mapCounters LaneStorage.bumpWaits LaneStorage.expire
  dsimp only
  split
  · simp
  · split_ifs <;> simp

theorem Reference.maxNpdu_dequeueKind (r : Reference) (kind : QueueKind) (now : Instant)
    (maxLen : ℕ) : (r.dequeueKind kind now maxLen).2.maxNpdu = r.maxNpdu := by
  unfold Reference.dequeueKind
  dsimp only
  split
  · rfl
  · split_ifs <;> rfl

theorem Reference.maxNpdu_apply (r : Reference) (op : QueueOp) :
    (op.apply r).2.maxNpdu = r.maxNpdu := by
  cases op with
  | enqueueNpdu destination payload priority now expiresAt =>
    show (r.enqueueNpdu destination payload priority now expiresAt).2.maxNpdu = _
    unfold Reference.enqueueNpdu
    dsimp only
    split_ifs <;> rfl
  | dequeue now maxLen =>
    show (QueueStorage.dequeue r now maxLen).2.maxNpdu = _
    unfold QueueStorage.dequeue
    split
    · rfl
    · exact r.maxNpdu_dequeueKind _ now maxLen
  | dequeueKind kind now maxLen => exact r.maxNpdu_dequeueKind kind now maxLen
  | _ => rfl

/-- One call keeps the simulation, answers as the reference does, and uses up at most one
sequence number. -/
theorem Sim.apply (henqueues : Enqueues Q) (h : Sim q r f) (hN : r.maxNpdu ≤ 65535)
    (hsmall : sequence q < 2 ^ 63) (op : QueueOp) :
    (op.apply q).1 = (op.apply r).1 ∧ sequence (op.apply q).2 ≤ sequence q + 1 ∧
      ∃ g, Sim (op.apply q).2 (op.apply r).2 g := by
  cases op with
  | setStarvationLimit limit =>
    refine ⟨rfl, ?_, f, h.setStarvationLimit limit⟩
    exact (sequence_setStarvationLimit q limit).le.trans (Nat.le_succ _)
  | enqueueNpdu destination payload priority now expiresAt =>
    obtain ⟨hresult, hseq, g, hsim⟩ :=
      henqueues q r f destination payload priority now expiresAt h (h.maxNpdu ▸ hN) hsmall
    exact ⟨congrArg QueueResult.enqueued hresult, hseq, g, hsim⟩
  | expire now =>
    obtain ⟨hsim, hresult⟩ := h.expire now
    refine ⟨congrArg QueueResult.expired hresult, ?_, f, hsim⟩
    show sequence (LaneStorage.expire q now).2 ≤ _
    simp [LaneStorage.expire]
  | peek now => exact ⟨congrArg QueueResult.peeked (h.peek now), Nat.le_succ _, f, h⟩
  | peekKind kind now =>
    exact ⟨congrArg QueueResult.peeked (h.peekKind kind now), Nat.le_succ _, f, h⟩
  | dequeue now maxLen =>
    obtain ⟨hsim, hresult⟩ := h.dequeue now maxLen
    refine ⟨congrArg QueueResult.dequeued hresult, ?_, f, hsim⟩
    show sequence (QueueStorage.dequeue q now maxLen).2 ≤ _
    unfold QueueStorage.dequeue
    split
    · exact Nat.le_succ _
    · exact (sequence_dequeueKind q _ now maxLen).le.trans (Nat.le_succ _)
  | dequeueKind kind now maxLen =>
    obtain ⟨hsim, hresult⟩ := h.dequeueKind kind now maxLen
    refine ⟨congrArg QueueResult.dequeued hresult, ?_, f, hsim⟩
    exact (sequence_dequeueKind q kind now maxLen).le.trans (Nat.le_succ _)
  | takeCounters kind =>
    obtain ⟨hsim, hresult⟩ := h.takeCounters kind
    refine ⟨congrArg QueueResult.taken hresult, ?_, f, hsim⟩
    exact (sequence_setLane _ _ _).le.trans (Nat.le_succ _)

theorem Sim.observations (henqueues : Enqueues Q) (ops : List QueueOp) (h : Sim q r f)
    (hN : r.maxNpdu ≤ 65535) (hsmall : sequence q + ops.length ≤ 2 ^ 63) :
    observations q ops = observations r ops := by
  induction ops generalizing q r f with
  | nil => rfl
  | cons op ops ih =>
    rw [List.length_cons] at hsmall
    obtain ⟨hresult, hseq, g, hsim⟩ := h.apply henqueues hN (by omega) op
    have hrest := ih hsim ((r.maxNpdu_apply op).le.trans hN) (by omega)
    have hdepth : QueueStorage.depth (op.apply q).2 = QueueStorage.depth (op.apply r).2 :=
      funext fun kind => (hsim.lanes kind).depth
    have hcounters : QueueStorage.counters (op.apply q).2 = QueueStorage.counters (op.apply r).2 :=
      funext fun kind => hsim.counters kind
    unfold Mstp.observations
    dsimp only
    rw [hresult, hdepth, hcounters, hrest]

end Runs

theorem Lane.new_holds (hfree : ∀ slot ∈ slots, slot.occupied = false) :
    (Lane.new slots).Holds id [] := by
  refine ⟨?_, rfl, fun slot hslot hocc => ?_⟩
  · have : Lane.itemsOf slots = [] := by
      rw [Lane.itemsOf, List.filter_eq_nil_iff.mpr (fun slot hslot => by simp [hfree slot hslot])]
      rfl
    show (Lane.itemsOf slots).Perm []
    rw [this]
  · rw [hfree slot hslot] at hocc
    exact absurd hocc (by decide)

theorem Sim.start {Q : Type} [LaneStorage Q] {q : Q} {U B N : ℕ}
    (hlanes : ∀ kind, ∃ slots, (∀ slot ∈ slots, slot.occupied = false) ∧
      lane q kind = Lane.new slots)
    (hlimit : LaneStorage.limit q = defaultStarvationLimit) (hseq : sequence q = 0)
    (hcapacity : ∀ kind, (Reference.new U B N).capacity kind = LaneStorage.capacity q kind)
    (hmax : LaneStorage.maxNpdu q = N) : Sim q (Reference.new U B N) id where
  limit := hlimit
  lanes kind := by
    obtain ⟨slots, hfree, heq⟩ := hlanes kind
    rw [heq]
    exact Lane.new_holds hfree
  counters kind := by
    obtain ⟨slots, -, heq⟩ := hlanes kind
    rw [heq]
    rfl
  distinct := List.nodup_nil
  arrived _ i hi := absurd hi List.not_mem_nil
  increasing _ _ hab _ := hab
  below _ ha := absurd ha (Nat.not_lt_zero _)
  small := by
    rw [hseq]
    exact Nat.zero_le _
  capacity := hcapacity
  maxNpdu := hmax.symm

theorem FixedQueues.start : Sim (FixedQueues.new : FixedQueues U B N) (Reference.new U B N) id := by
  refine Sim.start (fun kind => ?_) rfl rfl (fun kind => ?_) rfl
  · cases kind
    · exact ⟨_, fun slot hslot => by rw [List.eq_of_mem_replicate hslot]; rfl, rfl⟩
    · exact ⟨_, fun slot hslot => by rw [List.eq_of_mem_replicate hslot]; rfl, rfl⟩
  · cases kind
    · exact (List.length_replicate ..).symm
    · exact (List.length_replicate ..).symm

theorem AllocQueues.start : Sim (AllocQueues.new U B : AllocQueues N) (Reference.new U B N) id := by
  refine Sim.start (fun kind => ⟨[], fun _ h => absurd h List.not_mem_nil, ?_⟩) rfl rfl
    (fun kind => ?_) rfl
  · cases kind <;> rfl
  · cases kind <;> rfl

/-- Fixed and allocated queues of the same capacities show a caller the same thing on every call,
and it is what the two arrival-ordered lists show. -/
theorem backends_agree (U B N : ℕ) (hN : N ≤ 65535) (ops : List QueueOp)
    (hops : ops.length < 2 ^ 63) :
    observations (FixedQueues.new : FixedQueues U B N) ops
        = observations (AllocQueues.new U B : AllocQueues N) ops ∧
      observations (FixedQueues.new : FixedQueues U B N) ops
        = observations (Reference.new U B N) ops ∧
      observations (AllocQueues.new U B : AllocQueues N) ops
        = observations (Reference.new U B N) ops := by
  have hfixed : observations (FixedQueues.new : FixedQueues U B N) ops
      = observations (Reference.new U B N) ops := by
    refine (FixedQueues.start U B N).observations (FixedQueues.enqueues U B N) ops hN ?_
    show 0 + ops.length ≤ _
    omega
  have halloc : observations (AllocQueues.new U B : AllocQueues N) ops
      = observations (Reference.new U B N) ops := by
    refine (AllocQueues.start U B N).observations (AllocQueues.enqueues N) ops hN ?_
    show 0 + ops.length ≤ _
    omega
  exact ⟨hfixed.trans halloc.symm, hfixed, halloc⟩

/-- Two items for one place, then one taken. -/
theorem backends_agree_full :
    let ops : List QueueOp := [.enqueueNpdu 5 [1, 2] .normal 10 none,
      .enqueueNpdu 6 [3] .urgent 11 (some 20), .dequeue 12 501, .takeCounters .unicast]
    observations (FixedQueues.new : FixedQueues 1 1 501) ops
        = observations (AllocQueues.new 1 1 : AllocQueues 501) ops ∧
      observations (FixedQueues.new : FixedQueues 1 1 501) ops
        = observations (Reference.new 1 1 501) ops ∧
      observations (AllocQueues.new 1 1 : AllocQueues 501) ops
        = observations (Reference.new 1 1 501) ops :=
  backends_agree 1 1 501 (by decide) _ (by decide)

end RustyBacnet.Mstp
