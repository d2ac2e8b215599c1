import Mathlib.Algebra.Group.Nat.Defs
import Mathlib.Data.List.Nodup
import RustyBacnet.Mstp.QueueReference

/-!
# The slots keep the lists

Each lane of slots holds the items of one list of `Reference`, in some order of its own and under
sequence numbers of its own: `Lane.Holds` says so through a map `f` from arrival numbers to
sequence numbers. The map is increasing, so that an older item has a smaller sequence number, and
below `2^63` the half-range comparison agrees with the order of the numbers (`olderBy_id`).

1. `expire_holds`, `remove_holds`, `bumpWaits_holds`, `fill_holds`: what each operation of a lane
   does to its items.
2. `argmax_preferred`: scanning the slots finds the item policy prefers.
3. `Sim`: both lanes, the counters and the numbers of a backend against `Reference`, kept by every
   operation but the backend's own enqueue.
-/

namespace RustyBacnet.Mstp

def Slot.item (s : Slot) : Waiting :=
  ⟨s.destination, s.priority, s.enqueuedAt, s.expiresAt, s.serviceWait, s.payload, s.sequence⟩

def Waiting.renumber (f : ℕ → ℕ) (i : Waiting) : Waiting := { i with number := f i.number }

variable {index : ℕ} {slot : Slot} {slots : List Slot} {i : Waiting}

namespace Lane

def itemsOf (slots : List Slot) : List Waiting := (slots.filter (·.occupied)).map Slot.item

theorem itemsOf_cons (slot : Slot) (slots : List Slot) :
    itemsOf (slot :: slots)
      = if slot.occupied then slot.item :: itemsOf slots else itemsOf slots := by
  unfold itemsOf
  rw [List.filter_cons]
  split_ifs <;> rfl

theorem itemsOf_append (xs ys : List Slot) : itemsOf (xs ++ ys) = itemsOf xs ++ itemsOf ys := by
  simp [itemsOf]

theorem mem_itemsOf : i ∈ itemsOf slots ↔ ∃ slot ∈ slots, slot.occupied = true ∧ slot.item = i := by
  simp [itemsOf, and_assoc]

/-- The lane holds these items, under the numbers that `f` gives them. -/
structure Holds (lane : Lane) (f : ℕ → ℕ) (items : List Waiting) : Prop where
  perm : (itemsOf lane.slots).Perm (items.map (Waiting.renumber f))
  depth : lane.depth = items.length
  sized : ∀ slot ∈ lane.slots, slot.occupied = true → slot.payload.length = slot.len

variable {lane : Lane} {f : ℕ → ℕ} {items : List Waiting}

theorem Holds.length_eq (h : lane.Holds f items) : (itemsOf lane.slots).length = items.length := by
  rw [h.perm.length_eq, List.length_map]

/-! ## Expiry -/

theorem expireFrom_spec (now : Instant) (slots : List Slot) (depth : ℕ) (counters : QueueCounters) :
    let out := expireFrom now slots depth counters
    itemsOf out.1 = Reference.live now (itemsOf slots) ∧
      out.2.2.2 = ((itemsOf slots).filter fun i => expired i.expiresAt now).length ∧
      out.2.1 = depth - out.2.2.2 ∧
      out.2.2.1 = Reference.countExpired out.2.2.2 depth counters ∧
      out.1.length = slots.length ∧
      ((∀ slot ∈ slots, slot.occupied = true → slot.payload.length = slot.len) →
        ∀ slot ∈ out.1, slot.occupied = true → slot.payload.length = slot.len) := by
  induction slots generalizing depth counters with
  | nil => exact ⟨rfl, rfl, rfl, rfl, rfl, id⟩
  | cons slot slots ih =>
    unfold expireFrom
    dsimp only
    by_cases hgone : (!slot.isFree && expired slot.expiresAt now) = true
    · rw [if_pos hgone]
      obtain ⟨hitems, hcount, hdepth, hcounters, hlen, hsized⟩ :=
        ih (depth - 1) ((counters.recordDequeue (depth - 1)).recordDropExpired)
      simp only [Slot.isFree, Bool.not_not, Bool.and_eq_true] at hgone
      have hexp : expired slot.item.expiresAt now = true := hgone.2
      refine ⟨?_, ?_, ?_, ?_, by simpa using hlen, ?_⟩
      · rw [itemsOf_cons, if_neg (by simp), hitems, itemsOf_cons, if_pos hgone.1]
        simp [Reference.live, hexp]
      · rw [itemsOf_cons, if_pos hgone.1, List.filter_cons, if_pos hexp, List.length_cons, hcount]
      · rw [hdepth, Nat.sub_sub, Nat.add_comm]
      · exact hcounters
      · intro h s hs hocc
        rcases List.mem_cons.mp hs with rfl | hs
        · exact absurd hocc (by simp)
        · exact hsized (fun t ht => h t (List.mem_cons_of_mem _ ht)) s hs hocc
    · rw [if_neg hgone]
      obtain ⟨hitems, hcount, hdepth, hcounters, hlen, hsized⟩ := ih depth counters
      refine ⟨?_, ?_, hdepth, hcounters, by simpa using hlen, ?_⟩
      · rw [itemsOf_cons, itemsOf_cons, hitems]
        split_ifs with hocc
        · have hexp : expired slot.item.expiresAt now = false := by
            simpa [Slot.isFree, hocc, Slot.item] using hgone
          simp [Reference.live, hexp]
        · rfl
      · rw [itemsOf_cons, hcount]
        split_ifs with hocc
        · have hexp : expired slot.item.expiresAt now = false := by
            simpa [Slot.isFree, hocc, Slot.item] using hgone
          simp [hexp]
        · rfl
      · intro h s hs hocc
        rcases List.mem_cons.mp hs with rfl | hs
        · exact h _ List.mem_cons_self hocc
        · exact hsized (fun t ht => h t (List.mem_cons_of_mem _ ht)) s hs hocc

theorem live_renumber (now : Instant) (items : List Waiting) :
    Reference.live now (items.map (Waiting.renumber f))
      = (Reference.live now items).map (Waiting.renumber f) := by
  unfold Reference.live
  rw [List.filter_map]
  rfl

theorem expire_holds (now : Instant) (h : lane.Holds f items) :
    (lane.expire now).2.Holds f (Reference.live now items) ∧
      (lane.expire now).1 = (items.filter fun i => expired i.expiresAt now).length ∧
      (lane.expire now).2.counters = Reference.countExpired
        (items.filter fun i => expired i.expiresAt now).length items.length lane.counters ∧
      (lane.expire now).2.slots.length = lane.slots.length := by
  obtain ⟨hitems, hcount, hdepth, hcounters, hlen, hsized⟩ :=
    expireFrom_spec now lane.slots lane.depth lane.counters
  have hremoved : (expireFrom now lane.slots lane.depth lane.counters).2.2.2
      = (items.filter fun i => expired i.expiresAt now).length := by
    rw [hcount, (h.perm.filter _).length_eq, List.filter_map, List.length_map]
    rfl
  have hsplit : items.length = (items.filter fun i => expired i.expiresAt now).length
      + (Reference.live now items).length := by
    have := List.length_eq_length_filter_add (l := items) (fun i => expired i.expiresAt now)
    simpa [Reference.live] using this
  refine ⟨⟨?_, ?_, hsized h.sized⟩, hremoved, ?_, hlen⟩
  · show (itemsOf (expireFrom _ _ _ _).1).Perm _
    rw [hitems, ← live_renumber]
    exact h.perm.filter _
  · show (expireFrom now lane.slots lane.depth lane.counters).2.1 = _
    rw [hdepth, hremoved, h.depth]
    omega
  · show (expireFrom now lane.slots lane.depth lane.counters).2.2.1 = _
    rw [hcounters, hremoved, h.depth]

/-! ## Removal, waits and arrival -/

theorem modify_split (g : Slot → Slot) (hslot : slots[index]? = some slot) :
    ∃ before after, slots = before ++ slot :: after ∧
      slots.modify index g = before ++ g slot :: after ∧ before.length = index := by
  obtain ⟨hlt, hget⟩ := List.getElem?_eq_some_iff.mp hslot
  refine ⟨slots.take index, slots.drop (index + 1), ?_, ?_, ?_⟩
  · rw [← hget, List.getElem_cons_drop, List.take_append_drop]
  · rw [List.modify_eq_take_cons_drop hlt, hget]
  · rw [List.length_take]
    omega

theorem remove_items (hslot : lane.slots[index]? = some slot) (hocc : slot.occupied = true) :
    (itemsOf lane.slots).Perm (slot.item :: itemsOf (lane.remove index).slots) := by
  obtain ⟨before, after, heq, hmod, -⟩ :=
    modify_split (fun slot => { slot with occupied := false }) hslot
  show List.Perm _ (slot.item :: itemsOf (lane.slots.modify index _))
  rw [hmod, heq, itemsOf_append, itemsOf_append, itemsOf_cons, itemsOf_cons, if_pos hocc,
    if_neg (by simp)]
  exact List.perm_middle

theorem remove_holds {m : Waiting} (h : lane.Holds f items) (hslot : lane.slots[index]? = some slot)
    (hocc : slot.occupied = true) (hm : m ∈ items) (hitem : slot.item = m.renumber f) :
    (lane.remove index).Holds f (items.erase m) := by
  refine ⟨?_, ?_, ?_⟩
  · have hleft := (remove_items hslot hocc).symm.trans h.perm
    have hright := (List.perm_cons_erase hm).map (Waiting.renumber f)
    rw [List.map_cons, ← hitem] at hright
    exact List.Perm.cons_inv (hleft.trans hright)
  · show lane.depth - 1 = _
    rw [h.depth, List.length_erase_of_mem hm]
  · intro s hs hs'
    obtain ⟨before, after, heq, hmod, -⟩ :=
      modify_split (fun slot => { slot with occupied := false }) hslot
    have hs₁ : s ∈ before ++ { slot with occupied := false } :: after := by
      rw [← hmod]
      exact hs
    rcases List.mem_append.mp hs₁ with hb | hb
    · exact h.sized s (by rw [heq]; exact List.mem_append_left _ hb) hs'
    · rcases List.mem_cons.mp hb with rfl | ha
      · exact absurd hs' (by simp)
      · exact h.sized s (by rw [heq]; exact List.mem_append_right _ (List.mem_cons_of_mem _ ha)) hs'

def bumpItem (i : Waiting) : Waiting := { i with serviceWait := bump i.serviceWait }

theorem bumpWaits_holds (h : lane.Holds f items) : lane.bumpWaits.Holds f (items.map bumpItem) := by
  have hitems : itemsOf lane.bumpWaits.slots = (itemsOf lane.slots).map bumpItem := by
    show itemsOf (lane.slots.map _) = _
    induction lane.slots with
    | nil => rfl
    | cons slot slots ih =>
      rw [List.map_cons, itemsOf_cons, itemsOf_cons, ih]
      cases hocc : slot.occupied <;> simp [Slot.isFree, hocc, bumpItem, Slot.item, Slot.payload]
  refine ⟨?_, ?_, ?_⟩
  · rw [hitems, List.map_map]
    have := h.perm.map bumpItem
    rw [List.map_map] at this
    exact this
  · show lane.depth = _
    rw [h.depth, List.length_map]
  · intro s hs hocc
    obtain ⟨t, ht, rfl⟩ := List.mem_map.mp hs
    split_ifs at hocc ⊢ with hfree
    · exact h.sized t ht hocc
    · exact h.sized t ht (by simpa [Slot.isFree] using hfree)

theorem payload_remove_bumpWaits (hslot : lane.slots[index]? = some slot) :
    ((lane.remove index).bumpWaits.slots.getD index (Slot.empty 0)).payload = slot.payload := by
  have hget : (lane.remove index).bumpWaits.slots[index]? = some { slot with occupied := false } := by
    show (((lane.slots.modify index _)).map _)[index]? = _
    rw [List.getElem?_map, List.getElem?_modify_eq, hslot]
    simp [Slot.isFree]
  rw [List.getD_eq_getElem?_getD, hget]
  rfl

theorem fill_items (filled : Slot → Slot) (hslot : slots[index]? = some slot)
    (hfree : slot.occupied = false) (hfill : (filled slot).occupied = true) :
    (itemsOf (slots.modify index filled)).Perm ((filled slot).item :: itemsOf slots) := by
  obtain ⟨before, after, heq, hmod, -⟩ := modify_split filled hslot
  rw [hmod, heq, itemsOf_append, itemsOf_append, itemsOf_cons, itemsOf_cons, if_pos hfill,
    if_neg (by simp [hfree])]
  exact List.perm_middle

/-- Writing an item into a free slot puts it in. -/
theorem fill_holds (destination : UInt8) {payload : List UInt8} (priority : NetworkPriority)
    (now : Instant) (expiresAt : Option Instant) {sequence number : ℕ}
    (hitems : itemsOf slots = itemsOf lane.slots)
    (hsized : ∀ slot ∈ slots, slot.occupied = true → slot.payload.length = slot.len)
    (h : lane.Holds f items) (hslot : slots[index]? = some slot) (hfree : slot.occupied = false)
    (hlen : payload.length ≤ 65535) (hf : f number = sequence) :
    Holds (recordEnqueue { lane with
        slots := slots.modify index fun slot =>
          slot.fill destination payload priority now expiresAt sequence })
      f (items ++ [⟨destination, priority, now, expiresAt, 0, payload, number⟩]) := by
  have hmod : payload.length % 65536 = payload.length := by omega
  have hpayload : ∀ s : Slot,
      (s.fill destination payload priority now expiresAt sequence).payload = payload := by
    intro s
    simp [Slot.fill, Slot.payload, hmod]
  have hitem : (slot.fill destination payload priority now expiresAt sequence).item
      = Waiting.renumber f ⟨destination, priority, now, expiresAt, 0, payload, number⟩ := by
    unfold Slot.item
    rw [hpayload]
    simp [Slot.fill, Waiting.renumber, hf]
  refine ⟨?_, ?_, ?_⟩
  · have hperm := fill_items
      (fun slot => slot.fill destination payload priority now expiresAt sequence) hslot hfree rfl
    rw [hitems] at hperm
    rw [List.map_append, List.map_singleton, ← hitem]
    exact hperm.trans ((h.perm.cons _).trans (List.perm_append_singleton _ _).symm)
  · show lane.depth + 1 = _
    rw [h.depth, List.length_append, List.length_singleton]
  · intro s hs hocc
    obtain ⟨before, after, heq, hmodify, -⟩ := modify_split
      (fun slot => slot.fill destination payload priority now expiresAt sequence) hslot
    have hs₁ : s ∈ before ++ slot.fill destination payload priority now expiresAt sequence ::
        after := by
      rw [← hmodify]
      exact hs
    rcases List.mem_append.mp hs₁ with hb | hb
    · exact hsized s (by rw [heq]; exact List.mem_append_left _ hb) hocc
    · rcases List.mem_cons.mp hb with rfl | ha
      · rw [hpayload]
        exact hmod.symm
      · exact hsized s (by rw [heq]; exact List.mem_append_right _ (List.mem_cons_of_mem _ ha)) hocc

theorem Holds.congr {g : ℕ → ℕ} (h : lane.Holds f items)
    (hg : ∀ i ∈ items, g i.number = f i.number) : lane.Holds g items := by
  refine ⟨?_, h.depth, h.sized⟩
  have : items.map (Waiting.renumber g) = items.map (Waiting.renumber f) :=
    List.map_congr_left fun i hi => by simp [Waiting.renumber, hg i hi]
  rw [this]
  exact h.perm

end Lane

/-! ## Selection -/

/-- Where policy puts a candidate, when `num` says in which order items arrived. -/
def Selected.standingBy (num : ℕ → ℕ) (limit : UInt8) (s : Selected) : ℕ ×ₗ ℕ ×ₗ ℕᵒᵈ :=
  Mstp.standing limit s.info.serviceWait s.info.priority (num s.info.sequence)

def Selected.standing (limit : UInt8) (s : Selected) : ℕ ×ₗ ℕ ×ₗ ℕᵒᵈ :=
  Mstp.standing limit s.info.serviceWait s.info.priority s.info.sequence

/-- On the numbers of `Live` the half-range comparison is the order of `num`. -/
def OlderBy (num : ℕ → ℕ) (Live : ℕ → Prop) : Prop :=
  ∀ left right, Live left → Live right → isOlder left right = decide (num left < num right)

/-- Below `2^63` the half-range comparison is the order of the numbers. -/
theorem olderBy_id : OlderBy id (· < 2 ^ 63) := by
  intro left right hl hr
  unfold isOlder
  rw [decide_eq_decide]
  show _ ↔ left < right
  omega

theorem better_by {num : ℕ → ℕ} {Live : ℕ → Prop} (holder : OlderBy num Live) {limit : UInt8}
    {a b : Selected} (ha : Live a.info.sequence) (hb : Live b.info.sequence) :
    better a.info (some b.info) limit
      = decide (b.standingBy num limit < a.standingBy num limit) := by
  unfold better Selected.standingBy
  simp only [standing_lt, holder _ _ ha hb]
  by_cases hsa : limit ≤ a.info.serviceWait <;> by_cases hsb : limit ≤ b.info.serviceWait
  · simp [hsa, hsb]
  · simp [hsa, hsb]
  · simp [hsa, hsb]
  · simp only [hsa, hsb, decide_false, false_or, if_false]
    rcases Nat.lt_trichotomy a.info.priority.rank b.info.priority.rank with hp | hp | hp
    · simp [Nat.compare_eq_lt.mpr hp]
      omega
    · simp [hp]
    · simp [Nat.compare_eq_gt.mpr hp, hp]

/-- The items a scan of slots considers, from slot `index` on. -/
def candidatesFrom (kind : QueueKind) (now : Instant) : ℕ → List Slot → List Selected
  | _, [] => []
  | index, slot :: slots =>
    if slot.isFree || expired slot.expiresAt now then candidatesFrom kind now (index + 1) slots
    else ⟨kind, index, slot.info kind⟩ :: candidatesFrom kind now (index + 1) slots

variable {kind : QueueKind} {s : Selected}

theorem mem_candidatesFrom {now : Instant} :
    s ∈ candidatesFrom kind now index slots ↔
      ∃ slot, index ≤ s.index ∧ slots[s.index - index]? = some slot ∧ slot.occupied = true ∧
        expired slot.expiresAt now = false ∧ s.kind = kind ∧ s.info = slot.info kind := by
  induction slots generalizing index with
  | nil => simp [candidatesFrom]
  | cons slot slots ih =>
    have hshift : index + 1 ≤ s.index →
        (slot :: slots)[s.index - index]? = slots[s.index - (index + 1)]? := by
      intro hle
      rw [show s.index - index = s.index - (index + 1) + 1 by omega, List.getElem?_cons_succ]
    have hhere : ∀ t : Slot, index = s.index → (slot :: slots)[s.index - index]? = some t →
        slot = t := by
      rintro t rfl hget
      rw [Nat.sub_self] at hget
      exact Option.some.inj hget
    unfold candidatesFrom
    by_cases hskip : (slot.isFree || expired slot.expiresAt now) = true
    · rw [if_pos hskip, ih]
      constructor
      · rintro ⟨t, hle, hget, hrest⟩
        exact ⟨t, by omega, (hshift hle).trans hget, hrest⟩
      · rintro ⟨t, hle, hget, hocc, hexp, hrest⟩
        rcases Nat.eq_or_lt_of_le hle with heq | hlt
        · rw [hhere t heq hget] at hskip
          simp [Slot.isFree, hocc, hexp] at hskip
        · exact ⟨t, hlt, (hshift hlt).symm.trans hget, hocc, hexp, hrest⟩
    · rw [if_neg hskip, List.mem_cons, ih]
      simp only [Slot.isFree, Bool.or_eq_true, Bool.not_eq_true', not_or, Bool.not_eq_false,
        Bool.not_eq_true] at hskip
      constructor
      · rintro (rfl | ⟨t, hle, hget, hrest⟩)
        · exact ⟨slot, Nat.le_refl _, by simp, hskip.1, hskip.2, rfl, rfl⟩
        · exact ⟨t, by omega, (hshift hle).trans hget, hrest⟩
      · rintro ⟨t, hle, hget, hocc, hexp, hkind, hinfo⟩
        rcases Nat.eq_or_lt_of_le hle with heq | hlt
        · obtain rfl := hhere t heq hget
          refine .inl ?_
          cases s
          simp_all
        · exact .inr ⟨t, hlt, (hshift hlt).symm.trans hget, hocc, hexp, hkind, hinfo⟩

theorem candidatesFrom_live {Live : ℕ → Prop} {kind : QueueKind} {now : Instant} {index : ℕ}
    {slots : List Slot} {s : Selected}
    (hseq : ∀ slot ∈ slots, slot.occupied = true → Live slot.sequence)
    (hs : s ∈ candidatesFrom kind now index slots) : Live s.info.sequence := by
  obtain ⟨slot, -, hget, hocc, -, -, hinfo⟩ := mem_candidatesFrom.mp hs
  rw [hinfo]
  exact hseq slot (List.mem_of_getElem? hget) hocc

/-- The scan keeps a largest candidate. -/
theorem selectFrom_by {num : ℕ → ℕ} {Live : ℕ → Prop} (holder : OlderBy num Live) {kind : QueueKind}
    {now : Instant} {limit : UInt8} (index : ℕ) (slots : List Slot) (best : Option Selected)
    (hseq : ∀ slot ∈ slots, slot.occupied = true → Live slot.sequence)
    (hbest : ∀ b ∈ best, Live b.info.sequence) :
    Lane.selectFrom kind now limit index slots best
      = (candidatesFrom kind now index slots).foldl
          (List.argAux fun b c => c.standingBy num limit < b.standingBy num limit) best := by
  induction slots generalizing index best with
  | nil => rfl
  | cons slot slots ih =>
    have hrest : ∀ s ∈ slots, s.occupied = true → Live s.sequence := fun s hs =>
      hseq s (List.mem_cons_of_mem _ hs)
    unfold Lane.selectFrom candidatesFrom
    by_cases hskip : (slot.isFree || expired slot.expiresAt now) = true
    · rw [if_pos hskip, if_pos hskip, ih _ _ hrest hbest]
    · rw [if_neg hskip, if_neg hskip, List.foldl_cons]
      have hocc : slot.occupied = true := by
        simp only [Slot.isFree, Bool.or_eq_true, Bool.not_eq_true', not_or, Bool.not_eq_false]
          at hskip
        exact hskip.1
      have hslot : Live (Selected.mk kind index (slot.info kind)).info.sequence :=
        hseq slot List.mem_cons_self hocc
      dsimp only
      cases best with
      | none =>
        rw [Option.map_none, if_pos (show better (slot.info kind) none limit = true from rfl)]
        exact ih _ _ hrest (by simpa using hslot)
      | some b =>
        have hb : Live b.info.sequence := hbest b rfl
        have hcmp := @better_by num Live holder limit ⟨kind, index, slot.info kind⟩ b hslot hb
        rw [Option.map_some, hcmp]
        show _ = List.foldl _ (if _ then some _ else some b) _
        by_cases hlt : b.standingBy num limit
            < (Selected.mk kind index (slot.info kind)).standingBy num limit
        · rw [decide_eq_true hlt, if_pos rfl, if_pos hlt]
          exact ih _ _ hrest (by simpa using hslot)
        · rw [decide_eq_false hlt, if_neg (by simp), if_neg hlt]
          exact ih _ _ hrest (by simpa using hb)

/-- Below `2^63` the order is that of the numbers themselves. -/
theorem selectFrom_eq {kind : QueueKind} {now : Instant} {limit : UInt8} (index : ℕ)
    (slots : List Slot) (best : Option Selected)
    (hseq : ∀ slot ∈ slots, slot.occupied = true → slot.sequence < 2 ^ 63)
    (hbest : ∀ b ∈ best, b.info.sequence < 2 ^ 63) :
    Lane.selectFrom kind now limit index slots best
      = (candidatesFrom kind now index slots).foldl
          (List.argAux fun b c => c.standing limit < b.standing limit) best :=
  selectFrom_by olderBy_id index slots best hseq hbest

/-! ## The simulation -/

section Simulation

variable {Q : Type} [LaneStorage Q]

open LaneStorage

/-- The backend holds what the reference does, its items under the numbers `f` gives them. -/
structure Sim (q : Q) (r : Reference) (f : ℕ → ℕ) : Prop where
  limit : limit q = r.limit
  lanes : ∀ kind, (lane q kind).Holds f (r.items kind)
  counters : ∀ kind, (lane q kind).counters = r.counters kind
  distinct : ((r.items .unicast ++ r.items .broadcast).map (·.number)).Nodup
  arrived : ∀ kind, ∀ i ∈ r.items kind, i.number < r.arrivals
  increasing : ∀ a b, a < b → b < r.arrivals → f a < f b
  below : ∀ a, a < r.arrivals → f a < sequence q
  small : sequence q ≤ 2 ^ 63
  capacity : ∀ kind, r.capacity kind = capacity q kind
  maxNpdu : r.maxNpdu = LaneStorage.maxNpdu q

variable {q : Q} {r : Reference} {f : ℕ → ℕ} {now : Instant}

/-- The items of both lists that are live at `now`, in the order a scan of both lanes takes. -/
def bothLive (r : Reference) (now : Instant) : List Waiting :=
  Reference.live now (r.items .unicast) ++ Reference.live now (r.items .broadcast)

/-- A candidate of the scan stands for this item of the reference. -/
def StandsFor (q : Q) (r : Reference) (f : ℕ → ℕ) (now : Instant) (s : Selected) (i : Waiting) :
    Prop :=
  i ∈ Reference.live now (r.items s.kind) ∧
    ∃ slot, (lane q s.kind).slots[s.index]? = some slot ∧ slot.occupied = true ∧
      slot.item = i.renumber f ∧ s.info = slot.info s.kind

theorem Sim.number_lt (h : Sim q r f) (hslot : slot ∈ (lane q kind).slots)
    (hocc : slot.occupied = true) : slot.sequence < 2 ^ 63 := by
  have hmem : slot.item ∈ Lane.itemsOf (lane q kind).slots :=
    Lane.mem_itemsOf.mpr ⟨slot, hslot, hocc, rfl⟩
  obtain ⟨i, hi, heq⟩ := List.mem_map.mp ((h.lanes kind).perm.mem_iff.mp hmem)
  have hseq : slot.sequence = f i.number := (congrArg Waiting.number heq).symm
  have := h.below i.number (h.arrived kind i hi)
  have := h.small
  omega

variable {j : Waiting}

theorem Sim.eq_of_number (h : Sim q r f) (hi : i ∈ bothLive r now) (hj : j ∈ bothLive r now)
    (heq : i.number = j.number) : i = j := by
  have hsub : ∀ k, k ∈ bothLive r now → k ∈ r.items .unicast ++ r.items .broadcast := by
    intro k hk
    rcases List.mem_append.mp hk with hk | hk
    · exact List.mem_append_left _ (List.mem_of_mem_filter hk)
    · exact List.mem_append_right _ (List.mem_of_mem_filter hk)
  exact List.inj_on_of_nodup_map h.distinct (hsub i hi) (hsub j hj) heq

theorem mem_bothLive (h : i ∈ Reference.live now (r.items kind)) : i ∈ bothLive r now := by
  cases kind
  · exact List.mem_append_left _ h
  · exact List.mem_append_right _ h

theorem Sim.arrived_of_mem (h : Sim q r f) (hi : i ∈ bothLive r now) : i.number < r.arrivals := by
  rcases List.mem_append.mp hi with hi | hi
  · exact h.arrived _ i (List.mem_of_mem_filter hi)
  · exact h.arrived _ i (List.mem_of_mem_filter hi)

theorem Sim.standing_renumber (h : Sim q r f) (limit : UInt8) (hi : i.number < r.arrivals)
    (hj : j.number < r.arrivals) :
    (i.renumber f).standing limit < (j.renumber f).standing limit ↔
      i.standing limit < j.standing limit := by
  have hf : f j.number < f i.number ↔ j.number < i.number := by
    constructor
    · intro hlt
      by_contra hge
      rcases Nat.eq_or_lt_of_le (Nat.not_lt.mp hge) with heq | hlt'
      · rw [heq] at hlt
        exact absurd hlt (Nat.lt_irrefl _)
      · have := h.increasing _ _ hlt' hj
        omega
    · exact fun hlt => h.increasing _ _ hlt hi
  unfold Waiting.standing
  rw [standing_lt, standing_lt]
  simp only [Waiting.renumber, hf]

theorem standing_eq (limit : UInt8) (h : StandsFor q r f now s i) :
    s.standing limit = (i.renumber f).standing limit := by
  obtain ⟨-, slot, -, -, hitem, hinfo⟩ := h
  rw [← hitem]
  unfold Selected.standing
  rw [hinfo]
  rfl

/-- Every candidate of a lane stands for a live item, and every live item has one. -/
theorem Sim.candidates (h : Sim q r f) (kind : QueueKind) (now : Instant) :
    (∀ s ∈ candidatesFrom kind now 0 (lane q kind).slots,
        s.kind = kind ∧ ∃ i ∈ Reference.live now (r.items kind), StandsFor q r f now s i) ∧
      ∀ i ∈ Reference.live now (r.items kind),
        ∃ s ∈ candidatesFrom kind now 0 (lane q kind).slots, StandsFor q r f now s i := by
  have hperm := (h.lanes kind).perm
  refine ⟨fun s hs => ?_, fun i hi => ?_⟩
  · obtain ⟨slot, -, hget, hocc, hexp, rfl, hinfo⟩ := mem_candidatesFrom.mp hs
    have hmem : slot.item ∈ Lane.itemsOf (lane q s.kind).slots :=
      Lane.mem_itemsOf.mpr ⟨slot, List.mem_of_getElem? hget, hocc, rfl⟩
    obtain ⟨i, hi, heq⟩ := List.mem_map.mp (hperm.mem_iff.mp hmem)
    have hexpi : i.expiresAt = slot.expiresAt := congrArg Waiting.expiresAt heq
    have hlive : i ∈ Reference.live now (r.items s.kind) :=
      List.mem_filter.mpr ⟨hi, by rw [hexpi, hexp]; rfl⟩
    exact ⟨rfl, i, hlive, hlive, slot, hget, hocc, heq.symm, hinfo⟩
  · obtain ⟨himem, hexp⟩ := List.mem_filter.mp hi
    have hmem : i.renumber f ∈ Lane.itemsOf (lane q kind).slots :=
      hperm.mem_iff.mpr (List.mem_map_of_mem himem)
    obtain ⟨slot, hslot, hocc, heq⟩ := Lane.mem_itemsOf.mp hmem
    obtain ⟨index, hget⟩ := List.getElem?_of_mem hslot
    have hexpi : slot.expiresAt = i.expiresAt := congrArg Waiting.expiresAt heq
    refine ⟨⟨kind, index, slot.info kind⟩, mem_candidatesFrom.mpr
      ⟨slot, Nat.zero_le _, hget, hocc, ?_, rfl, rfl⟩, hi, slot, hget, hocc, heq, rfl⟩
    rw [hexpi]
    simpa using hexp

/-- Scanning candidates that stand for a list of items finds the one policy prefers. -/
theorem Sim.argmax_preferred (h : Sim q r f) {cands : List Selected} {items : List Waiting}
    (hitems : ∀ i ∈ items, i ∈ bothLive r now)
    (hcands : ∀ s ∈ cands, ∃ i ∈ items, StandsFor q r f now s i)
    (hcover : ∀ i ∈ items, ∃ s ∈ cands, StandsFor q r f now s i) :
    (cands.argmax (Selected.standing r.limit) = none ∧ preferred r.limit items = none) ∨
      ∃ s i, cands.argmax (Selected.standing r.limit) = some s ∧
        preferred r.limit items = some i ∧ i ∈ items ∧ StandsFor q r f now s i := by
  cases hbest : cands.argmax (Selected.standing r.limit) with
  | none =>
    have hnil := List.argmax_eq_none.mp hbest
    refine .inl ⟨rfl, preferred_eq_none.mpr (List.eq_nil_iff_forall_not_mem.mpr fun i hi => ?_)⟩
    obtain ⟨s, hs, -⟩ := hcover i hi
    rw [hnil] at hs
    exact List.not_mem_nil hs
  | some s =>
    obtain ⟨i, hi, hsi⟩ := hcands s (List.argmax_mem hbest)
    cases hpref : preferred r.limit items with
    | none =>
      rw [preferred_eq_none.mp hpref] at hi
      exact absurd hi List.not_mem_nil
    | some m =>
      obtain ⟨hm, htop⟩ := preferred_spec hpref
      obtain ⟨t, ht, htm⟩ := hcover m hm
      have hle := List.le_of_mem_argmax (f := Selected.standing r.limit) ht hbest
      rw [standing_eq r.limit htm, standing_eq r.limit hsi, ← not_lt,
        h.standing_renumber r.limit (h.arrived_of_mem (hitems i hi))
          (h.arrived_of_mem (hitems m hm)), not_lt] at hle
      have hnumber := standing_injective (le_antisymm hle (htop i hi))
      obtain rfl := h.eq_of_number (hitems m hm) (hitems i hi) hnumber
      exact .inr ⟨s, m, rfl, rfl, hm, hsi⟩

theorem Sim.selectKind_preferred (h : Sim q r f) (kind : QueueKind) (now : Instant) :
    (selectKind q kind now = none ∧
        preferred r.limit (Reference.live now (r.items kind)) = none) ∨
      ∃ s i, selectKind q kind now = some s ∧ s.kind = kind ∧
        preferred r.limit (Reference.live now (r.items kind)) = some i ∧
        StandsFor q r f now s i := by
  obtain ⟨hcands, hcover⟩ := h.candidates kind now
  have hselect : selectKind q kind now
      = (candidatesFrom kind now 0 (lane q kind).slots).argmax (Selected.standing r.limit) := by
    unfold selectKind Lane.select
    rw [h.limit]
    exact selectFrom_eq 0 _ none (fun slot hs hocc => h.number_lt hs hocc) (by simp)
  rw [hselect]
  rcases h.argmax_preferred (fun i hi => mem_bothLive hi) (fun s hs => (hcands s hs).2) hcover with
    hnone | ⟨s, i, hs, hi, -, hsi⟩
  · exact .inl hnone
  · exact .inr ⟨s, i, hs, (hcands s (List.argmax_mem hs)).1, hi, hsi⟩

theorem Sim.select_preferred (h : Sim q r f) (now : Instant) :
    (select q now = none ∧ preferred r.limit (bothLive r now) = none) ∨
      ∃ s i, select q now = some s ∧ preferred r.limit (bothLive r now) = some i ∧
        StandsFor q r f now s i := by
  obtain ⟨hcandsU, hcoverU⟩ := h.candidates .unicast now
  obtain ⟨hcandsB, hcoverB⟩ := h.candidates .broadcast now
  have hselect : select q now
      = (candidatesFrom .unicast now 0 (lane q .unicast).slots
          ++ candidatesFrom .broadcast now 0 (lane q .broadcast).slots).argmax
          (Selected.standing r.limit) := by
    unfold select Lane.select
    have hunicast := @selectFrom_eq .unicast now r.limit 0
      (lane q .unicast).slots none (fun slot hs hocc => h.number_lt hs hocc) (by simp)
    rw [h.limit, hunicast, selectFrom_eq 0 _ _ (fun slot hs hocc => h.number_lt hs hocc),
      List.argmax, List.foldl_append]
    intro b hb
    exact @candidatesFrom_live (· < 2 ^ 63) _ _ _ _ _ (fun slot hs hocc => h.number_lt hs hocc)
      (List.argmax_mem (f := Selected.standing r.limit) hb)
  rw [hselect]
  refine (h.argmax_preferred (fun i hi => hi) ?_ ?_).imp id
    fun ⟨s, i, hs, hi, _, hsi⟩ => ⟨s, i, hs, hi, hsi⟩
  · intro s hs
    rcases List.mem_append.mp hs with hs | hs
    · obtain ⟨-, i, hi, hsi⟩ := hcandsU s hs
      exact ⟨i, mem_bothLive hi, hsi⟩
    · obtain ⟨-, i, hi, hsi⟩ := hcandsB s hs
      exact ⟨i, mem_bothLive hi, hsi⟩
  · intro i hi
    rcases List.mem_append.mp hi with hi | hi
    · obtain ⟨s, hs, hsi⟩ := hcoverU i hi
      exact ⟨s, List.mem_append_left _ hs, hsi⟩
    · obtain ⟨s, hs, hsi⟩ := hcoverB i hi
      exact ⟨s, List.mem_append_right _ hs, hsi⟩

end Simulation

end RustyBacnet.Mstp
