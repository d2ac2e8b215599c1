import Mathlib.Data.List.Nodup
import RustyBacnet.Router.Table.Ops

/-!
# What table operations keep

An operation does one of two things to a network: it stores or removes its route anew (`renews`),
or it changes the slot in place (`Slot.Kept`).

1. Each operation that stores a route either refuses and changes nothing or stores a fresh one
   (`Stored`); the rest change slots in place.
2. `step` collects this for every operation, and `Valid` follows for whole runs.
-/

namespace RustyBacnet.Router

open SortedArray

/-! ## One slot -/

/-- What holds of every stored slot. -/
structure Slot.Valid (slot : Slot) : Prop where
  usable : isReserved slot.network = false
  busy : slot.route.busyUntil.isSome = true ↔ slot.route.reachability = .busy
  direct : slot.route.direct = true → slot.route.busyUntil = none ∧ slot.pending = none
  seen : slot.route.direct = slot.route.lastSeen.isNone

/-- A slot changed in place: marks and the time of last use, or the pending claim, of a learned
route. -/
inductive Slot.Kept : Slot → Slot → Prop
  | same (slot : Slot) : Kept slot slot
  | marked (slot : Slot) (reachability : Reachability) (busyUntil lastUsed : Option Instant) :
      slot.route.direct = false →
      (busyUntil.isSome = true ↔ reachability = .busy) →
      Kept slot
        { slot with
          route :=
            { slot.route with
              reachability := reachability, busyUntil := busyUntil, lastUsed := lastUsed } }
  | waiting (slot : Slot) (pending : Option Pending) :
      slot.route.direct = false → Kept slot { slot with pending := pending }

namespace Slot.Kept

variable {a b : Slot}

theorem network (h : a.Kept b) : b.network = a.network := by
  cases h <;> rfl

theorem direct (h : a.Kept b) : b.route.direct = a.route.direct := by
  cases h <;> rfl

theorem lastSeen (h : a.Kept b) : b.route.lastSeen = a.route.lastSeen := by
  cases h <;> rfl

theorem eq_of_direct (h : a.Kept b) (hd : a.route.direct = true) : b = a := by
  cases h with
  | same => rfl
  | marked _ _ _ hl _ => rw [hd] at hl; cases hl
  | waiting _ hl => rw [hd] at hl; cases hl

theorem valid (h : a.Kept b) (hv : a.Valid) : b.Valid := by
  cases h with
  | same => exact hv
  | marked reachability busyUntil lastUsed hl hbusy =>
    refine ⟨hv.usable, hbusy, ?_, hv.seen⟩
    intro hd
    rw [hl] at hd
    cases hd
  | waiting pending hl =>
    refine ⟨hv.usable, hv.busy, ?_, hv.seen⟩
    intro hd
    rw [hl] at hd
    cases hd

end Slot.Kept

/-- A route as a claim stores it. -/
structure Route.Fresh (route : Route) (port : PortId) (nextHop : Mac) (now : Instant) :
    Prop where
  direct : route.direct = false
  port : route.port = port
  nextHop : route.nextHop = nextHop
  lastSeen : route.lastSeen = some now
  reachability : route.reachability = .reachable
  busyUntil : route.busyUntil = none

variable {slot : Slot} {route : Route}

namespace Table

variable {R H : ℕ} {table next : Table R H} {network : UInt16}

/-- What holds of the table after every run of operations. -/
structure Valid (table : Table R H) : Prop where
  inOrder : table.InOrder
  room : table.len ≤ R
  slots : ∀ slot ∈ table.slots, slot.Valid
  holdsRoom : table.holds.length ≤ H
  holdsLearned : ∀ hold ∈ table.holds,
    ∃ slot ∈ table.slots, slot.network = hold.network ∧ slot.route.direct = false
  holdsApart : (table.holds.map Hold.key).Nodup

theorem valid_new : (new : Table R H).Valid where
  inOrder := sorted_nil
  room := Nat.zero_le _
  slots := by simp [new]
  holdsRoom := Nat.zero_le _
  holdsLearned := by simp [new]
  holdsApart := List.nodup_nil

theorem Valid.entry (hv : table.Valid) (h : table.entry network = some slot) : slot.Valid :=
  hv.slots slot (entry_mem h)

theorem slots_ext (ha : table.InOrder) (hb : next.InOrder) (h : next.entry = table.entry) :
    next.slots = table.slots := by
  refine Sorted.ext hb ha ?_
  intro k
  by_cases hk : k < 2 ^ 16
  · have hn := congrFun h (UInt16.ofNat k)
    unfold Table.entry at hn
    rwa [UInt16.toNat_ofNat_of_lt' hk] at hn
  · have hnone : ∀ slots : List Slot, SortedArray.entry Slot.key slots k = none := by
      intro slots
      apply entry_eq_none_of_forall
      intro slot _ hkey
      exact hk (hkey ▸ slot.network.toNat_lt)
    rw [hnone, hnone]

/-- Records of a network are dropped, which changes nothing when no learned route is stored. -/
theorem Valid.forget_eq_self (hv : table.Valid)
    (h : ∀ slot, table.entry network = some slot → slot.route.direct = true) :
    forget table.holds network = table.holds := by
  rw [forget_eq, List.filter_eq_self]
  intro hold hmem
  obtain ⟨slot, hslot, hnet, hlearned⟩ := hv.holdsLearned hold hmem
  rw [bne_iff_ne]
  rintro rfl
  have hdirect := h slot (hnet ▸ hv.inOrder.entry_of_mem hslot)
  rw [hlearned] at hdirect
  cases hdirect

/-! ## Operations that store a route -/

/-- `next` has a fresh learned route for a network, and is `table` otherwise. -/
structure Stored (table next : Table R H) (network : UInt16) (port : PortId) (nextHop : Mac)
    (now : Instant) : Prop where
  usable : isReserved network = false
  learned : ∀ slot, table.entry network = some slot → slot.route.direct = false
  inOrder : next.InOrder
  room : next.len ≤ R
  entry : ∃ route, route.Fresh port nextHop now
    ∧ next.entry = Function.update table.entry network (some ⟨network, route, none⟩)
  holds : next.holds = forget table.holds network
  convergence : next.convergence = table.convergence

/-- `next` stores what `table` stores. -/
structure Unchanged (table next : Table R H) : Prop where
  slots : next.slots = table.slots
  holds : next.holds = table.holds
  convergence : next.convergence = table.convergence

theorem Unchanged.refl (table : Table R H) : Unchanged table table := ⟨rfl, rfl, rfl⟩

theorem Unchanged.trans {third : Table R H} (h : Unchanged table next)
    (h' : Unchanged next third) : Unchanged table third :=
  ⟨h'.slots.trans h.slots, h'.holds.trans h.holds, h'.convergence.trans h.convergence⟩

theorem Unchanged.entry (h : Unchanged table next) : next.entry = table.entry := by
  funext m
  rw [Table.entry, Table.entry, h.slots]

theorem Unchanged.inOrder (h : Unchanged table next) (hs : table.InOrder) : next.InOrder := by
  rw [InOrder, h.slots]
  exact hs

theorem Unchanged.len (h : Unchanged table next) : next.len = table.len :=
  congrArg List.length h.slots

theorem Unchanged.valid (h : Unchanged table next) (hv : table.Valid) : next.Valid where
  inOrder := h.inOrder hv.inOrder
  room := h.len ▸ hv.room
  slots := h.slots ▸ hv.slots
  holdsRoom := h.holds ▸ hv.holdsRoom
  holdsLearned := by
    rw [h.holds, h.slots]
    exact hv.holdsLearned
  holdsApart := h.holds ▸ hv.holdsApart

theorem Unchanged.count (table : Table R H) (change : ClaimCounters → ClaimCounters) :
    Unchanged table (table.count change) := ⟨rfl, rfl, rfl⟩

variable {third : Table R H}

theorem Stored.of_unchanged {port : PortId} {nextHop : Mac} {now : Instant}
    (h : Unchanged table next) (hs : Stored next third network port nextHop now) :
    Stored table third network port nextHop now where
  usable := hs.usable
  learned := h.entry ▸ hs.learned
  inOrder := hs.inOrder
  room := hs.room
  entry := h.entry ▸ hs.entry
  holds := h.holds ▸ hs.holds
  convergence := hs.convergence.trans h.convergence

section Storing

variable (hv : table.Valid) (network : UInt16) (port : PortId) (nextHop : Mac) (now : Instant)

include hv

/-- `put` behind a `forget`, for a route that is not refused. -/
theorem put_stored (husable : isReserved network = false)
    (hlearned : ∀ slot, table.entry network = some slot → slot.route.direct = false)
    (hfresh : route.Fresh port nextHop now)
    (h : ((table.withHolds (forget table.holds network)).put network route).2 = true) :
    Stored table ((table.withHolds (forget table.holds network)).put network route).1
      network port nextHop now := by
  have hs : (table.withHolds (forget table.holds network)).InOrder := hv.inOrder
  obtain ⟨hin, hentry, hroom⟩ := put_eq_true hs h
  exact ⟨husable, hlearned, hin, hroom hv.room, ⟨route, hfresh, hentry⟩, put_holds _,
    put_convergence _⟩

/-- `put` behind a `forget` that finds no room. -/
theorem put_unchanged
    (h : ((table.withHolds (forget table.holds network)).put network route).2 = false) :
    Unchanged table ((table.withHolds (forget table.holds network)).put network route).1 := by
  have hs : (table.withHolds (forget table.holds network)).InOrder := hv.inOrder
  have hnone : table.entry network = none := by
    rw [put_snd hs] at h
    have hsome := (Bool.or_eq_false_iff.mp h).1
    exact Option.not_isSome_iff_eq_none.mp (by rw [Bool.not_eq_true]; exact hsome)
  rw [put_eq_false h, hv.forget_eq_self (by rw [hnone]; exact nofun)]
  exact Unchanged.refl table

theorem addLearned_cases :
    ((table.addLearned network port nextHop now).2 = true
      ∧ Stored table (table.addLearned network port nextHop now).1 network port nextHop now)
    ∨ ((table.addLearned network port nextHop now).2 = false
      ∧ Unchanged table (table.addLearned network port nextHop now).1) := by
  unfold addLearned
  dsimp only
  split_ifs with hreserved hdirect
  · exact .inr ⟨rfl, .refl table⟩
  · exact .inr ⟨rfl, .refl table⟩
  · rw [lookup_eq hv.inOrder] at hdirect
    have hlearned : ∀ slot, table.entry network = some slot → slot.route.direct = false := by
      intro slot hslot
      rw [hslot] at hdirect
      simpa using hdirect
    generalize ((table.lookup network).filter fun route => route.port == port).bind
      Route.lastUsed = lastUsed
    have hfresh : ((Route.learned port nextHop now).used lastUsed).Fresh port nextHop now :=
      ⟨rfl, rfl, rfl, rfl, rfl, rfl⟩
    cases hput : ((table.withHolds (forget table.holds network)).put network
        ((Route.learned port nextHop now).used lastUsed)).2 with
    | true =>
      exact .inl ⟨rfl, put_stored hv network port nextHop now
        (by simpa using hreserved) hlearned hfresh hput⟩
    | false => exact .inr ⟨rfl, put_unchanged hv network hput⟩

theorem learnInPlace_cases :
    ((table.learnInPlace network port nextHop now).2.isApplied = true
      ∧ Stored table (table.learnInPlace network port nextHop now).1 network port nextHop now)
    ∨ (∃ refusal, (table.learnInPlace network port nextHop now).2 = .refused refusal)
      ∧ Unchanged table (table.learnInPlace network port nextHop now).1 := by
  unfold learnInPlace
  dsimp only
  rcases addLearned_cases hv network port nextHop now with ⟨hflag, hstored⟩ | ⟨hflag, hsame⟩
  · left
    rw [hflag]
    exact ⟨rfl, hstored⟩
  · right
    rw [hflag]
    exact ⟨⟨_, rfl⟩, hsame⟩

theorem learn_cases :
    ((table.learn network port nextHop now).2.isApplied = true
      ∧ Stored table (table.learn network port nextHop now).1 network port nextHop now)
    ∨ (∃ refusal, (table.learn network port nextHop now).2 = .refused refusal)
      ∧ Unchanged table (table.learn network port nextHop now).1 := by
  have hadd := learnInPlace_cases hv network port nextHop now
  unfold learn
  rw [lookup_eq hv.inOrder]
  split_ifs with hreserved
  · exact .inr ⟨⟨_, rfl⟩, .refl table⟩
  · cases hentry : table.entry network with
    | none => exact hadd
    | some slot =>
      dsimp only [Option.map_some]
      split_ifs with hdirect hport
      · exact .inr ⟨⟨_, rfl⟩, .refl table⟩
      · left
        refine ⟨rfl, ?_⟩
        set counted := table.count fun counters =>
          warnFlap counters (flapsAfter slot.route now) with hcounted
        have hsame : Unchanged table counted := .count table _
        refine Stored.of_unchanged hsame (put_stored (hsame.valid hv) network port nextHop now
          (by simpa using hreserved) ?_ ⟨rfl, rfl, rfl, rfl, rfl, rfl⟩ ?_)
        · intro other hother
          rw [hsame.entry, hentry] at hother
          cases hother
          simpa using hdirect
        · have hs : (counted.withHolds (forget counted.holds network)).InOrder := hv.inOrder
          rw [put_snd hs]
          have : (counted.withHolds (forget counted.holds network)).entry network = some slot :=
            hentry
          rw [this]
          rfl
      · exact hadd

theorem addLearned_of_learned (hentry : table.entry network = some slot)
    (hlearned : slot.route.direct = false) :
    (table.addLearned network port nextHop now).2 = true := by
  have husable := (hv.entry hentry).usable
  rw [entry_network hentry] at husable
  have hs : (table.withHolds (forget table.holds network)).InOrder := hv.inOrder
  have hstored : (table.withHolds (forget table.holds network)).entry network = some slot :=
    hentry
  unfold addLearned
  rw [lookup_eq hv.inOrder, hentry]
  simp only [husable, hlearned, Option.map_some, Option.any_some, Bool.false_eq_true, if_false]
  rw [put_snd hs, hstored]
  rfl

theorem learn_of_learned (hentry : table.entry network = some slot)
    (hlearned : slot.route.direct = false) :
    (table.learn network port nextHop now).2.isApplied = true := by
  have husable := (hv.entry hentry).usable
  rw [entry_network hentry] at husable
  unfold learn learnInPlace
  dsimp only
  rw [lookup_eq hv.inOrder, hentry,
    addLearned_of_learned hv network port nextHop now hentry hlearned]
  simp only [husable, hlearned, Option.map_some, Bool.false_eq_true, if_false, if_true]
  split_ifs <;> rfl

end Storing

/-! ## Claims -/

/-- A table changed in place. -/
structure Changed (table next : Table R H) : Prop where
  inOrder : next.InOrder
  len : next.len = table.len
  entry : ∀ m, Option.Rel Slot.Kept (table.entry m) (next.entry m)
  holds : next.holds = table.holds
  convergence : next.convergence = table.convergence

theorem rel_refl (entry : Option Slot) : Option.Rel Slot.Kept entry entry := by
  cases entry with
  | none => exact .none
  | some slot => exact .some (.same slot)

theorem Unchanged.changed (h : Unchanged table next) (hs : table.InOrder) :
    Changed table next where
  inOrder := h.inOrder hs
  len := h.len
  entry := by
    intro m
    rw [h.entry]
    exact rel_refl _
  holds := h.holds
  convergence := h.convergence

theorem changed_modifySlot (hv : table.Valid) (network : UInt16) {change : Slot → Slot}
    (hkept : ∀ slot : Slot, slot.Valid → slot.Kept (change slot))
    (hkey : ∀ slot, (change slot).network = slot.network) :
    Changed table (table.modifySlot network change) := by
  obtain ⟨hin, hentry, hlen⟩ := modifySlot_eq hkey hv.inOrder network
  refine ⟨hin, hlen, ?_, modifySlot_holds _, modifySlot_convergence _⟩
  intro m
  rw [hentry, Function.update_apply]
  split_ifs with hm
  · rw [hm]
    cases hslot : table.entry network with
    | none => exact .none
    | some slot => exact .some (hkept slot (hv.entry hslot))
  · exact rel_refl _

theorem changed_mapSlots (hv : table.Valid) {change : Slot → Slot}
    (hkept : ∀ slot : Slot, slot.Valid → slot.Kept (change slot))
    (hkey : ∀ slot, (change slot).network = slot.network) :
    Changed table (table.mapSlots change) := by
  obtain ⟨hin, hentry⟩ := mapSlots_eq hkey hv.inOrder
  refine ⟨hin, by simp [mapSlots, len], ?_, rfl, rfl⟩
  intro m
  rw [hentry]
  dsimp only
  cases hslot : table.entry m with
  | none => exact .none
  | some slot => exact .some (hkept slot (hv.entry hslot))

theorem Changed.trans_count (h : Changed table next) (change : ClaimCounters → ClaimCounters) :
    Changed table (next.count change) :=
  ⟨h.inOrder, h.len, h.entry, h.holds, h.convergence⟩

theorem Changed.valid (h : Changed table next) (hv : table.Valid) : next.Valid where
  inOrder := h.inOrder
  room := h.len ▸ hv.room
  slots := by
    intro slot hslot
    have hrel := h.entry slot.network
    rw [h.inOrder.entry_of_mem hslot] at hrel
    cases hold : table.entry slot.network with
    | none => rw [hold] at hrel; cases hrel
    | some old =>
      rw [hold] at hrel
      cases hrel with
      | some hkept => exact hkept.valid (hv.entry hold)
  holdsRoom := h.holds ▸ hv.holdsRoom
  holdsLearned := by
    rw [h.holds]
    intro hold hmem
    obtain ⟨slot, hslot, hnet, hlearned⟩ := hv.holdsLearned hold hmem
    have hrel := h.entry slot.network
    rw [hv.inOrder.entry_of_mem hslot] at hrel
    cases hnext : next.entry slot.network with
    | none => rw [hnext] at hrel; cases hrel
    | some after =>
      rw [hnext] at hrel
      cases hrel with
      | some hkept =>
        refine ⟨after, entry_mem hnext, ?_, ?_⟩
        · rw [hkept.network, hnet]
        · rw [hkept.direct, hlearned]
  holdsApart := h.holds ▸ hv.holdsApart

theorem Stored.of_changed {port : PortId} {nextHop : Mac} {now : Instant} (h : Changed table next)
    (hentry : ∀ m, m ≠ network → next.entry m = table.entry m)
    (hs : Stored next third network port nextHop now) :
    Stored table third network port nextHop now where
  usable := hs.usable
  learned := by
    intro slot hslot
    have hrel := h.entry network
    rw [hslot] at hrel
    cases hnext : next.entry network with
    | none => rw [hnext] at hrel; cases hrel
    | some after =>
      rw [hnext] at hrel
      cases hrel with
      | some hkept => rw [← hkept.direct, hs.learned after hnext]
  inOrder := hs.inOrder
  room := hs.room
  entry := by
    obtain ⟨route, hfresh, hthird⟩ := hs.entry
    refine ⟨route, hfresh, ?_⟩
    rw [hthird]
    funext m
    simp only [Function.update_apply]
    split_ifs with hm
    · rfl
    · exact hentry m hm
  holds := h.holds ▸ hs.holds
  convergence := hs.convergence.trans h.convergence

theorem setPending_eq (hs : table.InOrder) (network : UInt16) (pending : Option Pending) :
    (table.setPending network pending).InOrder
      ∧ (table.setPending network pending).entry
        = Function.update table.entry network
          ((table.entry network).map fun slot => { slot with pending := pending })
      ∧ (table.setPending network pending).len = table.len := by
  have hkey : ∀ slot : Slot, ({ slot with pending := pending } : Slot).network = slot.network :=
    fun _ => rfl
  exact modifySlot_eq hkey hs network

theorem changed_takePending (hv : table.Valid) (network : UInt16) :
    Changed table (table.setPending network none) := by
  refine changed_modifySlot hv network ?_ fun _ => rfl
  intro slot hslot
  cases hd : slot.route.direct with
  | false => exact .waiting slot none hd
  | true =>
    have hp := (hslot.direct hd).2
    have hsame : { slot with pending := none } = slot := by rw [← hp]
    rw [hsame]
    exact .same slot

theorem Unchanged.countExpired (table : Table R H) (expired : Bool) :
    Unchanged table (table.countExpired expired) := by
  unfold Table.countExpired
  split_ifs
  · exact .count _ _
  · exact .refl _

/-- The claim on the table whose pending claim was taken, with its counters changed. -/
theorem learn_taken (hv : table.Valid) (hslot : table.entry network = some slot) (port : PortId)
    (nextHop : Mac) (now : Instant) (hnext : Unchanged (table.setPending network none) next) :
    ((next.learn network port nextHop now).2.isApplied = true
      ∧ Stored table (next.learn network port nextHop now).1 network port nextHop now)
    ∨ (∃ refusal, (next.learn network port nextHop now).2 = .refused refusal)
      ∧ Unchanged table (next.learn network port nextHop now).1 := by
  obtain ⟨-, htaken, -⟩ := setPending_eq hv.inOrder network none
  have hchanged := changed_takePending hv network
  have hvalid := hnext.valid (hchanged.valid hv)
  rcases learn_cases hvalid network port nextHop now with ⟨happlied, hstored⟩ | ⟨hrefused, hsame⟩
  · left
    refine ⟨happlied, .of_changed hchanged ?_ (.of_unchanged hnext hstored)⟩
    intro m hm
    rw [htaken, Function.update_of_ne hm]
  · right
    refine ⟨hrefused, (Unchanged.trans ?_ hnext).trans hsame⟩
    -- Only a direct route refuses, and it has no pending claim to take.
    have hdirect : slot.route.direct = true := by
      by_contra hlearned
      have hentry : next.entry network = some { slot with pending := none } := by
        rw [hnext.entry, htaken, hslot, Function.update_self, Option.map_some]
      have happlied :=
        learn_of_learned hvalid network port nextHop now hentry (by simpa using hlearned)
      obtain ⟨refusal, hrefusal⟩ := hrefused
      rw [hrefusal] at happlied
      cases happlied
    refine ⟨slots_ext hv.inOrder hchanged.inOrder ?_, hchanged.holds, hchanged.convergence⟩
    rw [htaken, hslot, Option.map_some]
    have hpending := ((hv.entry hslot).direct hdirect).2
    have hself : ({ slot with pending := none } : Slot) = slot := by rw [← hpending]
    rw [hself, ← hslot, Function.update_eq_self]

/-- What a claim that is held for a second one does. -/
structure HeldClaim (table next : Table R H) (network : UInt16) (port : PortId)
    (now : Instant) : Prop where
  hardened : table.convergence = .hardened
  entry : ∃ slot, table.entry network = some slot ∧ slot.route.direct = false
    ∧ slot.route.port ≠ port
    ∧ next.entry
      = Function.update table.entry network (some { slot with pending := some ⟨port, now⟩ })
  changed : Changed table next

theorem heldClaim_of_taken (hv : table.Valid) {port : PortId} {now : Instant}
    {change : ClaimCounters → ClaimCounters} (hslot : table.entry network = some slot)
    (hmove : slot.route.direct = false ∧ slot.route.port ≠ port)
    (hhardened : table.convergence = .hardened)
    (hnext : Unchanged (table.setPending network none) next) :
    HeldClaim table ((next.setPending network (some ⟨port, now⟩)).count change) network port
      now := by
  obtain ⟨-, htaken, -⟩ := setPending_eq hv.inOrder network none
  have hchanged := changed_takePending hv network
  obtain ⟨hin, hheld, hlen⟩ :=
    setPending_eq (hnext.inOrder hchanged.inOrder) network (some ⟨port, now⟩)
  obtain ⟨hlearned, hport⟩ := hmove
  have hentry : (next.setPending network (some ⟨port, now⟩)).entry
      = Function.update table.entry network (some { slot with pending := some ⟨port, now⟩ }) := by
    rw [hheld, hnext.entry, htaken, hslot, Function.update_self, Function.update_idem,
      Option.map_some, Option.map_some]
  refine ⟨hhardened, ⟨slot, hslot, hlearned, hport, hentry⟩, Changed.trans_count ?_ change⟩
  refine ⟨hin, ?_, ?_, ?_, ?_⟩
  · rw [hlen, hnext.len, hchanged.len]
  · intro m
    rw [hentry, Function.update_apply]
    split_ifs with hm
    · rw [hm, hslot]
      exact .some (.waiting slot _ hlearned)
    · exact rel_refl _
  · exact (modifySlot_holds _).trans (hnext.holds.trans hchanged.holds)
  · exact (modifySlot_convergence _).trans (hnext.convergence.trans hchanged.convergence)

theorem applyClaim_cases (hv : table.Valid) (network : UInt16) (port : PortId) (nextHop : Mac)
    (now : Instant) (timing : Timing) :
    ((table.applyClaim network port nextHop now timing).2.isApplied = true
      ∧ Stored table (table.applyClaim network port nextHop now timing).1 network port nextHop
        now)
    ∨ ((∃ refusal, (table.applyClaim network port nextHop now timing).2 = .refused refusal)
      ∧ Unchanged table (table.applyClaim network port nextHop now timing).1)
    ∨ (table.applyClaim network port nextHop now timing).2 = .held
      ∧ HeldClaim table (table.applyClaim network port nextHop now timing).1 network port now := by
  unfold applyClaim
  rw [slotOf_eq hv.inOrder]
  cases hslot : table.entry network with
  | none =>
    rcases learn_cases hv network port nextHop now with h | h
    · exact .inl h
    · exact .inr (.inl h)
  | some slot =>
    dsimp only
    obtain ⟨-, htaken, -⟩ := setPending_eq hv.inOrder network none
    have hchanged := changed_takePending hv network
    have hexpired := Unchanged.countExpired (table.setPending network none)
      (slot.pending.any fun pending => pending.expired now timing)
    generalize (table.setPending network none).countExpired
      (slot.pending.any fun pending => pending.expired now timing) = counted at hexpired ⊢
    split_ifs with hstandard hmove hcorroborated
    · exact (learn_taken hv hslot port nextHop now (.refl _)).imp_right .inl
    · exact (learn_taken hv hslot port nextHop now (hexpired.trans (.count _ _))).imp_right .inl
    · right; right
      refine ⟨rfl, ?_⟩
      dsimp only
      refine heldClaim_of_taken hv hslot ?_ ?_ hexpired
      · simpa using hmove
      · cases hconv : table.convergence with
        | standard => exact absurd (hchanged.convergence.trans hconv) hstandard
        | hardened => rfl
    · exact (learn_taken hv hslot port nextHop now hexpired).imp_right .inl

/-! ## Marks -/

theorem kept_busy (deadline : Instant) (slot : Slot) (_ : slot.Valid) :
    slot.Kept { slot with route := (slot.route.busy deadline).1 } := by
  unfold Route.busy
  dsimp only
  split_ifs with hmarks
  · have hlearned : slot.route.direct = false := by
      simp only [Bool.and_eq_true, Bool.not_eq_true'] at hmarks
      exact hmarks.1
    exact .marked slot .busy (some deadline) slot.route.lastUsed hlearned (by simp)
  · exact .same slot

theorem kept_available (slot : Slot) (_ : slot.Valid) :
    slot.Kept { slot with route := slot.route.available } := by
  unfold Route.available
  split_ifs with hdirect
  · exact .same slot
  · exact .marked slot .reachable none slot.route.lastUsed (by simpa using hdirect) (by simp)

theorem kept_unreachable (slot : Slot) (_ : slot.Valid) :
    slot.Kept { slot with route := slot.route.unreachable } := by
  unfold Route.unreachable
  split_ifs with hdirect
  · exact .same slot
  · exact .marked slot .unreachable none slot.route.lastUsed (by simpa using hdirect) (by simp)

theorem kept_swept (now : Instant) (slot : Slot) (hslot : slot.Valid) :
    slot.Kept { slot with route := slot.route.swept now } := by
  unfold Route.swept
  split_ifs with hlapsed
  · refine .marked slot .reachable none slot.route.lastUsed ?_ (by simp)
    by_contra hdirect
    have hnone := (hslot.direct (by simpa using hdirect)).1
    rw [Route.lapsed, hnone] at hlapsed
    cases hlapsed
  · exact .same slot

theorem kept_used (now : Instant) (slot : Slot) (hslot : slot.Valid) :
    slot.Kept
      { slot with
        route := if slot.route.direct then slot.route else slot.route.used (some now) } := by
  split_ifs with hdirect
  · exact .same slot
  · exact .marked slot slot.route.reachability slot.route.busyUntil (some now)
      (by simpa using hdirect) hslot.busy

variable {change : Route → Route}

theorem changed_modifyRoute (hv : table.Valid) (network : UInt16)
    (hkept : ∀ slot : Slot, slot.Valid → slot.Kept { slot with route := change slot.route }) :
    Changed table (table.modifyRoute network change) :=
  changed_modifySlot hv network hkept fun _ => rfl

theorem changed_mapRoutes (hv : table.Valid)
    (hkept : ∀ slot : Slot, slot.Valid → slot.Kept { slot with route := change slot.route }) :
    Changed table (table.mapRoutes change) :=
  changed_mapSlots hv hkept fun _ => rfl

section Marks

variable (hv : table.Valid)

include hv

theorem changed_markBusy (network : UInt16) (deadline : Instant) :
    Changed table (table.markBusy network deadline) :=
  changed_modifyRoute hv network (kept_busy deadline)

theorem changed_markAvailable (network : UInt16) : Changed table (table.markAvailable network) :=
  changed_modifyRoute hv network kept_available

theorem changed_markUnreachable (network : UInt16) :
    Changed table (table.markUnreachable network) :=
  changed_modifyRoute hv network kept_unreachable

theorem changed_touch (network : UInt16) (now : Instant) :
    Changed table (table.touch network now) :=
  changed_modifyRoute hv network (kept_used now)

theorem changed_clearExpiredBusy (now : Instant) :
    Changed table (table.clearExpiredBusy now).1 := by
  unfold clearExpiredBusy
  dsimp only
  exact changed_mapRoutes hv (kept_swept now)

theorem changed_markBusyViaPeer (port : PortId) (peer : List UInt8) (deadline : Instant) :
    Changed table (table.markBusyViaPeer port peer deadline).1 := by
  unfold markBusyViaPeer
  dsimp only
  refine changed_mapRoutes hv fun slot hslot => ?_
  split_ifs
  · exact kept_busy deadline slot hslot
  · exact .same slot

theorem changed_markAvailableViaPeer (port : PortId) (peer : List UInt8) :
    Changed table (table.markAvailableViaPeer port peer).1 := by
  unfold markAvailableViaPeer
  dsimp only
  refine changed_mapRoutes hv fun slot hslot => ?_
  split_ifs
  · exact kept_available slot hslot
  · exact .same slot

theorem changed_expirePending (now : Instant) (timing : Timing) :
    Changed table (table.expirePending now timing).1 := by
  unfold expirePending
  dsimp only
  refine Changed.trans_count (changed_mapSlots hv ?_ ?_) _
  · intro slot hslot
    split_ifs with hold
    · refine .waiting slot none ?_
      by_contra hdirect
      have hnone := (hslot.direct (by simpa using hdirect)).2
      rw [hnone] at hold
      cases hold
    · exact .same slot
  · intro slot
    split_ifs <;> rfl

end Marks

/-! ## Hold-down records -/

end Table

namespace Holds

variable {H : ℕ} {holds : List Hold} {network : UInt16} {port : PortId} {now : Instant}

theorem findIdx_eq_none (h : holds.findIdx? (isFor network port) = none) :
    (network, port) ∉ holds.map Hold.key := by
  rw [List.findIdx?_eq_none_iff] at h
  rintro hmem
  obtain ⟨hold, hhold, hkey⟩ := List.mem_map.mp hmem
  have := h hold hhold
  rw [isFor, hkey] at this
  simp at this

theorem record_mem {hold : Hold} (h : hold ∈ (record H holds network port now).1) :
    hold = ⟨network, port, now⟩ ∨ hold ∈ holds := by
  unfold record at h
  split at h
  · exact (List.mem_or_eq_of_mem_set h).symm
  · split_ifs at h
    · rcases List.mem_append.mp h with h | h
      · exact .inr h
      · exact .inl (List.mem_singleton.mp h)
    · split at h
      · exact (List.mem_or_eq_of_mem_set h).symm
      · exact .inr h

theorem record_length (h : holds.length ≤ H) : (record H holds network port now).1.length ≤ H := by
  unfold record
  split
  · rwa [List.length_set]
  · split_ifs with hroom
    · rw [List.length_append, List.length_singleton]
      omega
    · split
      · rwa [List.length_set]
      · exact h

theorem record_apart (h : (holds.map Hold.key).Nodup) :
    ((record H holds network port now).1.map Hold.key).Nodup := by
  unfold record
  split
  · rename_i index hfind
    -- The record that is replaced has the same network and port.
    obtain ⟨hlt, hkey, -⟩ := List.findIdx?_eq_some_iff_getElem.mp hfind
    have hsame : (holds.map Hold.key).set index (network, port) = holds.map Hold.key := by
      apply List.ext_getElem (by simp)
      intro i hi hi'
      rw [List.getElem_set]
      split_ifs with hindex
      · subst hindex
        rw [List.getElem_map]
        exact (by simpa [isFor] using hkey : holds[index].key = (network, port)).symm
      · rfl
    rw [List.map_set, show Hold.key ⟨network, port, now⟩ = (network, port) from rfl, hsame]
    exact h
  · rename_i hfind
    have hnot := findIdx_eq_none hfind
    split_ifs
    · rw [List.map_append, List.nodup_append]
      refine ⟨h, by simp, ?_⟩
      rintro a ha b hb rfl
      rw [List.map_singleton, List.mem_singleton] at hb
      rw [hb] at ha
      exact hnot ha
    · split
      · rw [List.map_set]
        exact List.Nodup.set h hnot
      · exact h

end Holds

namespace Table

variable {R H : ℕ} {table next : Table R H} {network : UInt16}

theorem Valid.of_filter (hv : table.Valid) (hin : next.InOrder) (hroom : next.len ≤ R)
    (hslots : ∀ m slot, next.entry m = some slot → slot.Valid) (gone : UInt16 → Bool)
    (hholds : next.holds = table.holds.filter fun hold => !gone hold.network)
    (hlearned : ∀ m slot, gone m = false → table.entry m = some slot → slot.route.direct = false →
      ∃ after, next.entry m = some after ∧ after.route.direct = false) : next.Valid where
  inOrder := hin
  room := hroom
  slots := fun slot hslot => hslots slot.network slot (hin.entry_of_mem hslot)
  holdsRoom := by
    rw [hholds]
    exact (List.length_filter_le _ _).trans hv.holdsRoom
  holdsLearned := by
    rw [hholds]
    intro hold hmem
    obtain ⟨hmem, hgone⟩ := List.mem_filter.mp hmem
    obtain ⟨slot, hslot, hnet, hdirect⟩ := hv.holdsLearned hold hmem
    have hentry := hv.inOrder.entry_of_mem hslot
    rw [hnet] at hentry
    obtain ⟨after, hafter, hdirect⟩ :=
      hlearned hold.network slot (by simpa using hgone) hentry hdirect
    exact ⟨after, entry_mem hafter, entry_network hafter, hdirect⟩
  holdsApart := by
    rw [hholds]
    exact hv.holdsApart.sublist (List.filter_sublist.map _)

theorem slot_valid_of_fresh {port : PortId} {nextHop : Mac} {now : Instant}
    (hfresh : route.Fresh port nextHop now) (husable : isReserved network = false) :
    Slot.Valid ⟨network, route, none⟩ where
  usable := husable
  busy := by simp [hfresh.busyUntil, hfresh.reachability]
  direct := by simp [hfresh.direct]
  seen := by simp [hfresh.direct, hfresh.lastSeen]

theorem Stored.valid {port : PortId} {nextHop : Mac} {now : Instant}
    (h : Stored table next network port nextHop now) (hv : table.Valid) : next.Valid := by
  obtain ⟨route, hfresh, hentry⟩ := h.entry
  refine hv.of_filter h.inOrder h.room ?_ (fun m => m == network) ?_ ?_
  · intro m slot hslot
    rw [hentry, Function.update_apply] at hslot
    split_ifs at hslot
    · cases hslot
      exact slot_valid_of_fresh hfresh h.usable
    · exact hv.entry hslot
  · rw [h.holds, forget_eq]
    rfl
  · intro m slot hm hslot hdirect
    refine ⟨slot, ?_, hdirect⟩
    rw [hentry, Function.update_of_ne (by simpa using hm)]
    exact hslot

theorem addDirect_cases (hv : table.Valid) (network : UInt16) (port : PortId) :
    ((table.addDirect network port).2 = true ∧ isReserved network = false
      ∧ (table.addDirect network port).1.InOrder ∧ (table.addDirect network port).1.len ≤ R
      ∧ (table.addDirect network port).1.entry
        = Function.update table.entry network (some ⟨network, .directVia port, none⟩)
      ∧ (table.addDirect network port).1.holds = forget table.holds network)
    ∨ (table.addDirect network port).2 = false
      ∧ Unchanged table (table.addDirect network port).1 := by
  unfold addDirect
  split_ifs with hreserved
  · exact .inr ⟨rfl, .refl table⟩
  · have hs : (table.withHolds (forget table.holds network)).InOrder := hv.inOrder
    cases hput : ((table.withHolds (forget table.holds network)).put network
        (.directVia port)).2 with
    | true =>
      obtain ⟨hin, hentry, hroom⟩ := put_eq_true hs hput
      exact .inl ⟨rfl, by simpa using hreserved, hin, hroom hv.room, hentry, put_holds _⟩
    | false => exact .inr ⟨rfl, put_unchanged hv network hput⟩

theorem valid_addDirect (hv : table.Valid) (network : UInt16) (port : PortId) :
    (table.addDirect network port).1.Valid := by
  rcases addDirect_cases hv network port with ⟨-, husable, hin, hroom, hentry, hholds⟩ | ⟨-, hsame⟩
  · refine hv.of_filter hin hroom ?_ (fun m => m == network) ?_ ?_
    · intro m slot hslot
      rw [hentry, Function.update_apply] at hslot
      split_ifs at hslot
      · cases hslot
        exact ⟨husable, by simp [Route.directVia], fun _ => ⟨rfl, rfl⟩, rfl⟩
      · exact hv.entry hslot
    · rw [hholds, forget_eq]
      rfl
    · intro m slot hm hslot hdirect
      refine ⟨slot, ?_, hdirect⟩
      rw [hentry, Function.update_of_ne (by simpa using hm)]
      exact hslot
  · exact hsame.valid hv

theorem remove_none (hs : table.InOrder) (h : table.entry network = none) :
    table.remove network = (table, none) := by
  unfold remove
  rcases find_cases hs network with ⟨_, _, _, -, -, -, -, hentry⟩ | ⟨_, _, -, -, hfind, -⟩
  · rw [h] at hentry
    cases hentry
  · rw [hfind]

theorem remove_holds (hs : table.InOrder) (h : table.entry network = some slot) :
    (table.remove network).1.holds = forget table.holds network := by
  unfold remove
  rcases find_cases hs network with ⟨_, _, _, -, -, -, hfind, -⟩ | ⟨_, _, -, -, -, hentry⟩
  · rw [hfind]
  · rw [h] at hentry
    cases hentry

theorem valid_remove (hv : table.Valid) (network : UInt16) : (table.remove network).1.Valid := by
  cases hslot : table.entry network with
  | none =>
    rw [remove_none hv.inOrder hslot]
    exact hv
  | some slot =>
    obtain ⟨-, hin, hentry, hlen⟩ := remove_eq hv.inOrder network
    refine hv.of_filter hin (hlen.trans hv.room) ?_ (fun m => m == network) ?_ ?_
    · intro m other hother
      rw [hentry, Function.update_apply] at hother
      split_ifs at hother
      exact hv.entry hother
    · rw [remove_holds hv.inOrder hslot, forget_eq]
      rfl
    · intro m other hm hother hdirect
      refine ⟨other, ?_, hdirect⟩
      rw [hentry, Function.update_of_ne (by simpa using hm)]
      exact hother

theorem valid_purgeStale (hv : table.Valid) (now : Instant) (maxAge : Duration) :
    (table.purgeStale now maxAge).1.Valid := by
  obtain ⟨hin, hentry, hlen⟩ := purgeStale_eq hv.inOrder now maxAge
  refine hv.of_filter hin (hlen.trans hv.room) ?_
    (fun m => (table.purgeStale now maxAge).2.contains m) (purgeStale_holds table now maxAge) ?_
  · intro m slot hslot
    rw [hentry] at hslot
    exact hv.entry (Option.filter_eq_some_iff.mp hslot).1
  · intro m slot hm hslot hdirect
    refine ⟨slot, ?_, hdirect⟩
    rw [hentry]
    dsimp only
    rw [hslot, Option.filter_some, if_pos]
    have hnot : m ∉ (table.purgeStale now maxAge).2 := by simpa using hm
    rw [hv.inOrder.mem_purged] at hnot
    by_contra hstale
    exact hnot ⟨slot, hslot, by simpa using hstale⟩

end Table

end RustyBacnet.Router
