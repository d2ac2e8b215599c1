import RustyBacnet.Mstp.QueueLaws

/-!
# How long an item waits in its lane

An item of a lane with starvation limit `s` and capacity `c` is the next to go after at most
`s + c - 1` other items of its lane went, whatever arrives meanwhile. Each dequeue raises its wait,
so after `s` of them it is starved, and from then on only items that were there before it go first,
of which there are at most `c - 1` and one fewer after each dequeue.

Which of two items was there first is known from sequence numbers that wrap. They tell it for as long
as no item waits while `2^63` more numbers are given out (`Fresh`, `olderBy_age`).

1. `Fades`: what expiry, removal and the rise of the waits do to the slots.
2. `selectKind_elder`: while an item is starved, only an older one is selected before it.
3. `Waits`: what holds of an item while it waits, over a dequeue (`Waits.dequeueKind`) and over an
   arrival (`Waits.offer`).
-/

namespace RustyBacnet.Mstp

open LaneStorage

/-- How many numbers were given out after `number`, when `next` is the next one. -/
def numbersSince (next number : ℕ) : ℕ := (next + 18446744073709551615 - number) % 18446744073709551616

/-- A number of 64 bits after which fewer than `2^63` were given out. -/
def Recent (next number : ℕ) : Prop :=
  number < 18446744073709551616 ∧ numbersSince next number < 9223372036854775808

instance (next number : ℕ) : Decidable (Recent next number) :=
  inferInstanceAs (Decidable (_ ∧ _))

theorem olderBy_age (next : ℕ) :
    OlderBy (fun number => 18446744073709551616 - numbersSince next number) (Recent next) := by
  rintro left right ⟨hleft, hl⟩ ⟨hright, hr⟩
  unfold numbersSince at *
  unfold isOlder
  rw [decide_eq_decide]
  dsimp only
  omega

variable {next : ℕ}

theorem numbersSince_next {number : ℕ} (hnumber : number < 18446744073709551616)
    (hrecent : numbersSince next number < 9223372036854775808) :
    numbersSince (nextSequence next) number = numbersSince next number + 1 := by
  unfold numbersSince nextSequence at *
  omega

theorem numbersSince_new (next : ℕ) : numbersSince (nextSequence next) next = 0 := by
  unfold numbersSince nextSequence
  omega

/-! ## What happens to slots -/

namespace Slot

/-- What is left of a slot's item: it may be gone, and has waited no less. -/
structure Fades (slot slot' : Slot) : Prop where
  occupied : slot'.occupied = true → slot.occupied = true
  sequence : slot'.sequence = slot.sequence
  expiresAt : slot'.expiresAt = slot.expiresAt
  wait : slot.serviceWait ≤ slot'.serviceWait

theorem Fades.refl (slot : Slot) : Fades slot slot :=
  ⟨id, rfl, rfl, UInt8.le_refl _⟩

theorem fades_free (slot : Slot) : Fades slot { slot with occupied := false } :=
  ⟨fun h => absurd h (by simp), rfl, rfl, UInt8.le_refl _⟩

def bumped (slot : Slot) : Slot :=
  if slot.isFree then slot else { slot with serviceWait := Lane.bump slot.serviceWait }

end Slot

theorem Lane.toNat_bump (wait : UInt8) : (Lane.bump wait).toNat = min (wait.toNat + 1) 255 := by
  unfold Lane.bump
  split_ifs with hfull
  · rw [hfull]
    rfl
  · have hlt := wait.toNat_lt
    have hne : wait.toNat ≠ 255 := fun h => hfull (UInt8.toNat_inj.mp h)
    rw [UInt8.toNat_add]
    show (wait.toNat + 1) % 256 = _
    omega

theorem Slot.fades_bumped (slot : Slot) : slot.Fades slot.bumped := by
  unfold bumped
  split_ifs
  · exact Fades.refl slot
  · refine ⟨id, rfl, rfl, UInt8.le_iff_toNat_le.mpr ?_⟩
    show _ ≤ (Lane.bump slot.serviceWait).toNat
    have hlt := slot.serviceWait.toNat_lt
    rw [Lane.toNat_bump]
    omega

/-- Slot by slot, nothing new. -/
def Fades (slots slots' : List Slot) : Prop := List.Forall₂ Slot.Fades slots slots'

theorem Fades.refl (slots : List Slot) : Fades slots slots :=
  List.forall₂_same.mpr fun slot _ => Slot.Fades.refl slot

variable {g : Slot → Slot}

theorem Fades.map (hg : ∀ slot : Slot, slot.Fades (g slot)) (slots : List Slot) :
    Fades slots (slots.map g) := by
  induction slots with
  | nil => exact List.Forall₂.nil
  | cons slot slots ih => exact List.Forall₂.cons (hg slot) ih

variable {slots slots' : List Slot}

/-- Lists related place by place have related elements at each place. -/
theorem getElem?_of_forall₂ {α : Type} {R : α → α → Prop} {xs ys : List α}
    (h : List.Forall₂ R xs ys) {index : ℕ} {y : α} (hget : ys[index]? = some y) :
    ∃ x, xs[index]? = some x ∧ R x y := by
  induction h generalizing index with
  | nil => cases hget
  | cons hhead _ ih =>
    cases index with
    | zero =>
      obtain rfl := Option.some.inj hget
      exact ⟨_, rfl, hhead⟩
    | succ index => exact ih hget

variable {slot : Slot}

/-- How many items satisfy a property of their numbers. -/
def countItems (p : ℕ → Bool) (slots : List Slot) : ℕ :=
  slots.countP fun slot => slot.occupied && p slot.sequence

theorem Fades.count_le (h : Fades slots slots') (p : ℕ → Bool) :
    countItems p slots' ≤ countItems p slots := by
  unfold countItems
  induction h with
  | nil => exact Nat.le_refl _
  | @cons slot slot' slots slots' hslot _ ih =>
    rw [List.countP_cons, List.countP_cons]
    by_cases hitem : (slot'.occupied && p slot'.sequence) = true
    · have hbefore : (slot.occupied && p slot.sequence) = true := by
        rw [Bool.and_eq_true] at hitem ⊢
        exact ⟨hslot.occupied hitem.1, hslot.sequence ▸ hitem.2⟩
      rw [if_pos hitem, if_pos hbefore]
      exact Nat.succ_le_succ ih
    · rw [if_neg hitem]
      exact Nat.le_add_right_of_le ih

theorem Lane.expireFrom_slots (now : Instant) (slots : List Slot) (depth : ℕ)
    (counters : QueueCounters) :
    (expireFrom now slots depth counters).1 = slots.map fun slot =>
      if !slot.isFree && expired slot.expiresAt now then { slot with occupied := false } else slot := by
  induction slots generalizing depth counters with
  | nil => rfl
  | cons slot slots ih =>
    unfold expireFrom
    rw [List.map_cons]
    split_ifs with hgone
    · exact congrArg _ (ih _ _)
    · exact congrArg _ (ih _ _)

theorem Lane.fades_expire (lane : Lane) (now : Instant) : Fades lane.slots (lane.expire now).2.slots := by
  show Fades lane.slots (expireFrom now lane.slots lane.depth lane.counters).1
  rw [expireFrom_slots]
  apply Fades.map
  intro slot
  split_ifs
  · exact slot.fades_free
  · exact Slot.Fades.refl slot

theorem Lane.fades_remove (lane : Lane) (index : ℕ) : Fades lane.slots (lane.remove index).slots := by
  show Fades lane.slots (lane.slots.modify index fun slot => { slot with occupied := false })
  induction lane.slots generalizing index with
  | nil =>
    rw [List.modify_nil]
    exact List.Forall₂.nil
  | cons slot slots ih =>
    cases index with
    | zero => exact List.Forall₂.cons slot.fades_free (Fades.refl slots)
    | succ index => exact List.Forall₂.cons (Slot.Fades.refl slot) (ih index)

theorem Lane.count_remove {lane : Lane} {index : ℕ} {slot : Slot} (hget : lane.slots[index]? = some slot)
    {p : ℕ → Bool} (hslot : (slot.occupied && p slot.sequence) = true) :
    countItems p (lane.remove index).slots + 1 = countItems p lane.slots := by
  show countItems p (lane.slots.modify index fun slot => { slot with occupied := false }) + 1 = _
  unfold countItems
  generalize lane.slots = slots at hget ⊢
  induction slots generalizing index with
  | nil => cases hget
  | cons head slots ih =>
    cases index with
    | zero =>
      obtain rfl := Option.some.inj hget
      rw [List.modify_zero_cons, List.countP_cons, List.countP_cons, if_pos hslot]
      simp
    | succ index =>
      rw [List.modify_succ_cons, List.countP_cons, List.countP_cons, ← ih hget]
      omega

/-- An item put into a free slot is counted with the others, if it satisfies the property. -/
theorem countItems_modify {index : ℕ} (hget : slots[index]? = some slot)
    (hfree : slot.occupied = false) (hnew : (g slot).occupied = true) (p : ℕ → Bool) :
    countItems p (slots.modify index g)
      = countItems p slots + if p (g slot).sequence = true then 1 else 0 := by
  unfold countItems
  induction slots generalizing index with
  | nil => cases hget
  | cons head slots ih =>
    cases index with
    | zero =>
      obtain rfl := Option.some.inj hget
      rw [List.modify_zero_cons, List.countP_cons, List.countP_cons, hfree, hnew, Bool.true_and,
        Bool.false_and]
      simp
    | succ index =>
      rw [List.modify_succ_cons, List.countP_cons, List.countP_cons, ih hget]
      omega

theorem countItems_congr {p p' : ℕ → Bool}
    (h : ∀ slot ∈ slots, slot.occupied = true → p slot.sequence = p' slot.sequence) :
    countItems p slots = countItems p' slots := by
  apply List.countP_congr
  intro slot hslot
  by_cases hocc : slot.occupied = true
  · rw [h slot hslot hocc]
  · rw [Bool.eq_false_iff.mpr hocc]
    simp

/-! ## Selection -/

section Queues

variable {Q : Type} [LaneStorage Q] {q q' : Q} {kind : QueueKind}

/-- No item of the lane has waited while `2^63` numbers more were given out. -/
def Fresh (q : Q) (kind : QueueKind) : Prop :=
  ∀ slot ∈ (lane q kind).slots, slot.occupied = true → Recent (sequence q) slot.sequence

instance : Decidable (Fresh q kind) :=
  inferInstanceAs (Decidable (∀ slot ∈ (lane q kind).slots, _))

def noYounger (next number : ℕ) (other : ℕ) : Bool :=
  decide (numbersSince next number ≤ numbersSince next other)

variable {now : Instant} {selected : Selected}

theorem selectFrom_mem {kind : QueueKind} {limit : UInt8} {first : ℕ} {best : Option Selected}
    (h : Lane.selectFrom kind now limit first slots best = some selected) :
    best = some selected ∨ selected ∈ candidatesFrom kind now first slots := by
  induction slots generalizing first best with
  | nil => exact .inl h
  | cons slot slots ih =>
    unfold Lane.selectFrom at h
    unfold candidatesFrom
    split_ifs at h ⊢ with hskip
    · exact ih h
    · rcases ih h with hbest | hmem
      · split_ifs at hbest with hbetter
        · exact .inr (Option.some.inj hbest ▸ List.mem_cons_self)
        · exact .inl hbest
      · exact .inr (List.mem_cons_of_mem _ hmem)

theorem selectKind_occupied (h : selectKind q kind now = some selected) :
    ∃ slot, (lane q kind).slots[selected.index]? = some slot ∧ slot.occupied = true := by
  rcases selectFrom_mem h with hbest | hmem
  · cases hbest
  · obtain ⟨slot, -, hget, hocc, -⟩ := mem_candidatesFrom.mp hmem
    exact ⟨slot, hget, hocc⟩

/-- The selected item is one of the lane's, and while another is starved it is no younger. -/
theorem selectKind_elder (hfresh : Fresh q kind) (hselected : selectKind q kind now = some selected)
    :
    ∃ other, (lane q kind).slots[selected.index]? = some other ∧ other.occupied = true ∧
      selected.info = other.info kind ∧
      ∀ (index : ℕ) (slot : Slot), (lane q kind).slots[index]? = some slot → slot.occupied = true →
        expired slot.expiresAt now = false → LaneStorage.limit q ≤ slot.serviceWait →
        noYounger (sequence q) slot.sequence other.sequence = true := by
  have hselect := @selectFrom_by _ _ (olderBy_age (sequence q)) kind now (LaneStorage.limit q) 0
    (lane q kind).slots none hfresh (fun b hb => by cases hb)
  have hmax : selected ∈ (candidatesFrom kind now 0 (lane q kind).slots).argmax
      (Selected.standingBy (fun number => 18446744073709551616 - numbersSince (sequence q) number)
        (LaneStorage.limit q)) := by
    unfold List.argmax
    rw [← hselect]
    exact hselected
  obtain ⟨other, -, hother, hoccupied, -, -, hinfo⟩ :=
    mem_candidatesFrom.mp (List.argmax_mem hmax)
  refine ⟨other, hother, hoccupied, hinfo, ?_⟩
  intro index slot hget hocc hlive hstarved
  have hcandidate : (⟨kind, index, slot.info kind⟩ : Selected)
      ∈ candidatesFrom kind now 0 (lane q kind).slots :=
    mem_candidatesFrom.mpr ⟨slot, Nat.zero_le _, hget, hocc, hlive, rfl, rfl⟩
  have hle := List.le_of_mem_argmax hcandidate hmax
  rw [← not_lt] at hle
  unfold Selected.standingBy at hle
  rw [standing_lt, hinfo] at hle
  unfold noYounger
  rw [decide_eq_true_eq]
  have hage := (hfresh other (List.mem_of_getElem? hother) hoccupied).2
  have hage' := (hfresh slot (List.mem_of_getElem? hget) hocc).2
  change ¬ (if LaneStorage.limit q ≤ other.serviceWait then
    LaneStorage.limit q ≤ slot.serviceWait ∧ 18446744073709551616 - numbersSince _ slot.sequence
      < 18446744073709551616 - numbersSince _ other.sequence else _) at hle
  split_ifs at hle with hboth
  · rw [not_and] at hle
    have := hle hstarved
    omega
  · exact absurd (Or.inl hstarved) hle

/-! ## One call -/

/-- An item waits in its slot. At most `c` items of the lane are no younger, itself among them, and
one less for each of the `served` items that went since it was starved. -/
structure Waits (q : Q) (kind : QueueKind) (index number : ℕ) (expiresAt : Option Instant)
    (limit : UInt8) (c served : ℕ) : Prop where
  held : ∃ slot, (lane q kind).slots[index]? = some slot ∧ slot.occupied = true ∧
    slot.sequence = number ∧ slot.expiresAt = expiresAt ∧ min served 255 ≤ slot.serviceWait.toNat
  limit_eq : LaneStorage.limit q = limit
  ahead : max served limit.toNat + countItems (noYounger (sequence q) number) (lane q kind).slots
    ≤ limit.toNat + c

variable {index number c served : ℕ} {expiresAt : Option Instant} {limit : UInt8}

theorem Waits.served_lt (h : Waits q kind index number expiresAt limit c served) :
    served + 1 ≤ limit.toNat + c := by
  obtain ⟨slot, hget, hocc, hseq, -⟩ := h.held
  have hahead := h.ahead
  have hpos : 0 < countItems (noYounger (sequence q) number) (lane q kind).slots := by
    unfold countItems
    rw [List.countP_pos_iff]
    refine ⟨slot, List.mem_of_getElem? hget, ?_⟩
    rw [hocc, hseq]
    simp [noYounger]
  omega

theorem Waits.fade (h : Waits q kind index number expiresAt limit c served)
    (hlimit : LaneStorage.limit q' = LaneStorage.limit q) (hsequence : sequence q' = sequence q)
    (hfades : Fades (lane q kind).slots (lane q' kind).slots)
    (hstays : ∀ slot ∈ (lane q' kind).slots[index]?, slot.occupied = true) :
    Waits q' kind index number expiresAt limit c served := by
  obtain ⟨slot, hget, -, hseq, hexp, hwait⟩ := h.held
  obtain ⟨slot', hget', hslot⟩ := getElem?_of_forall₂ hfades.flip hget
  refine ⟨⟨slot', hget', hstays slot' hget', hslot.sequence.trans hseq,
    hslot.expiresAt.trans hexp, hwait.trans (UInt8.le_iff_toNat_le.mp hslot.wait)⟩,
    hlimit.trans h.limit_eq, ?_⟩
  rw [hsequence]
  exact (Nat.add_le_add_left (hfades.count_le _) _).trans h.ahead

theorem Waits.expire (h : Waits q kind index number expiresAt limit c served)
    (hlive : expired expiresAt now = false) :
    Waits (LaneStorage.expire q now).2 kind index number expiresAt limit c served := by
  refine h.fade (by simp [LaneStorage.expire]) (by simp [LaneStorage.expire]) ?_ ?_
  · rw [lane_expire]
    exact (lane q kind).fades_expire now
  · obtain ⟨slot, hget, hocc, -, hexp, -⟩ := h.held
    intro slot' hget'
    rw [lane_expire] at hget'
    change (Lane.expireFrom now (lane q kind).slots _ _).1[index]? = some slot' at hget'
    rw [Lane.expireFrom_slots, List.getElem?_map, hget] at hget'
    obtain rfl := Option.some.inj hget'
    dsimp only
    rw [hexp, hlive, Bool.and_false]
    exact hocc

theorem Fresh.fade (h : Fresh q kind) (hsequence : sequence q' = sequence q)
    (hfades : Fades (lane q kind).slots (lane q' kind).slots) : Fresh q' kind := by
  intro slot hslot hocc
  obtain ⟨index, hlt, rfl⟩ := List.mem_iff_getElem.mp hslot
  obtain ⟨before, hbefore, hfade⟩ := getElem?_of_forall₂ hfades (List.getElem?_eq_getElem hlt)
  rw [hsequence, hfade.sequence]
  exact h before (List.mem_of_getElem? hbefore) (hfade.occupied hocc)

theorem Fresh.expire (h : Fresh q kind) (now : Instant) :
    Fresh (LaneStorage.expire q now).2 kind := by
  refine h.fade (by simp [LaneStorage.expire]) ?_
  rw [lane_expire]
  exact (lane q kind).fades_expire now

theorem Waits.bump (h : Waits q kind index number expiresAt limit c served) {lane' : Lane}
    (hlimit : LaneStorage.limit q' = LaneStorage.limit q) (hsequence : sequence q' = sequence q)
    (hlane : lane q' kind = lane'.bumpWaits) (hfades : Fades (lane q kind).slots lane'.slots)
    (hstays : ∀ slot ∈ lane'.slots[index]?, slot.occupied = true)
    {more : ℕ} (hmore : more ≤ 1) (hahead : max (served + more) limit.toNat
      + countItems (noYounger (sequence q) number) lane'.slots ≤ limit.toNat + c) :
    Waits q' kind index number expiresAt limit c (served + more) := by
  obtain ⟨slot, hget, -, hseq, hexp, hwait⟩ := h.held
  obtain ⟨slot', hget', hslot⟩ := getElem?_of_forall₂ hfades.flip hget
  have hocc' := hstays slot' hget'
  have hbumped : Fades lane'.slots lane'.bumpWaits.slots :=
    Fades.map Slot.fades_bumped lane'.slots
  have hwait' := hwait.trans (UInt8.le_iff_toNat_le.mp hslot.wait)
  refine ⟨⟨slot'.bumped, ?_, ?_, ?_, ?_, ?_⟩, hlimit.trans h.limit_eq, ?_⟩
  · rw [hlane]
    show (lane'.slots.map Slot.bumped)[index]? = _
    rw [List.getElem?_map, hget']
    rfl
  · unfold Slot.bumped
    rw [Slot.isFree, hocc']
    rfl
  · exact slot'.fades_bumped.sequence.trans (hslot.sequence.trans hseq)
  · exact slot'.fades_bumped.expiresAt.trans (hslot.expiresAt.trans hexp)
  · unfold Slot.bumped
    rw [Slot.isFree, hocc']
    show _ ≤ (Lane.bump slot'.serviceWait).toNat
    rw [Lane.toNat_bump]
    omega
  · rw [hlane, hsequence]
    exact (Nat.add_le_add_left (hbumped.count_le _) _).trans hahead

/-- What a dequeue of one class does. -/
inductive Dequeues (q : Q) (kind : QueueKind) (now : Instant) :
    Except QueueRefusal (Option DequeuedNpdu) × Q → Prop
  | nothing : Dequeues q kind now (.ok none, (LaneStorage.expire q now).2)
  | oversize (q' : Q) : Dequeues q kind now (.error .oversize, q')
  | handed (q' : Q) (selected : Selected) (npdu : DequeuedNpdu)
      (selection : selectKind (LaneStorage.expire q now).2 kind now = some selected)
      (kind_eq : npdu.kind = kind) (number : npdu.sequence = selected.info.sequence)
      (limit_eq : LaneStorage.limit q' = LaneStorage.limit q)
      (lanes : ∀ k, lane q' k = (if k = kind
        then (lane (LaneStorage.expire q now).2 kind).remove selected.index
        else lane (LaneStorage.expire q now).2 k).bumpWaits) : Dequeues q kind now (.ok (some npdu), q')

theorem dequeues (q : Q) (kind : QueueKind) (now : Instant) (maxLen : ℕ) :
    Dequeues q kind now (LaneStorage.dequeueKind q kind now maxLen) := by
  unfold LaneStorage.dequeueKind
  dsimp only
  cases hselect : selectKind (LaneStorage.expire q now).2 kind now with
  | none => exact .nothing
  | some selected =>
    dsimp only
    by_cases hlong : maxLen < selected.info.len
    · rw [if_pos hlong]
      exact .oversize _
    · rw [if_neg hlong]
      refine .handed _ selected _ hselect rfl rfl ?_ (fun k => ?_)
      · simp [LaneStorage.bumpWaits, LaneStorage.expire]
      · rw [lane_bumpWaits, lane_setLane]

/-- What a dequeue does to an item of either class that does not expire: it waits on, or it is the
one handed over. -/
theorem Waits.dequeueKind (h : Waits q kind index number expiresAt limit c served)
    (hfresh : Fresh q kind) (hlive : expired expiresAt now = false) {k : QueueKind} {maxLen : ℕ}
    {result : Except QueueRefusal (Option DequeuedNpdu)}
    (hcall : LaneStorage.dequeueKind q k now maxLen = (result, q'))
    (hfits : result ≠ .error .oversize) :
    (result = .ok none ∧ Waits q' kind index number expiresAt limit c served) ∨
      ∃ npdu, result = .ok (some npdu) ∧ npdu.kind = k ∧
        (npdu.kind = kind ∧ npdu.sequence = number ∨
          Waits q' kind index number expiresAt limit c
            (served + if npdu.kind = kind then 1 else 0)) := by
  have hspec := dequeues q k now maxLen
  have hsequence : sequence q' = sequence q := by
    rw [← sequence_dequeueKind q k now maxLen, hcall]
  rw [hcall] at hspec
  have hexp := h.expire hlive
  generalize hq₁ : (LaneStorage.expire q now).2 = q₁ at hspec hexp
  have hsequence₁ : sequence q₁ = sequence q := by
    rw [← hq₁]
    simp [LaneStorage.expire]
  have hlimit₁ : LaneStorage.limit q₁ = LaneStorage.limit q := by
    rw [← hq₁]
    simp [LaneStorage.expire]
  have hfresh₁ : Fresh q₁ kind := hq₁ ▸ hfresh.expire now
  cases hspec with
  | nothing => exact .inl ⟨rfl, hq₁ ▸ hexp⟩
  | oversize => exact absurd rfl hfits
  | handed _ selected npdu hselection hkind hnumber hlimit hlanes =>
    rw [hq₁] at hselection hlanes
    refine .inr ⟨npdu, rfl, hkind, ?_⟩
    obtain ⟨slot, hget, hocc, hseq, hexpires, hwait⟩ := hexp.held
    by_cases hown : k = kind
    · subst hown
      obtain ⟨other, hother, hoccother, hinfo, helder⟩ := selectKind_elder hfresh₁ hselection
      by_cases hsame : selected.index = index
      · rw [hsame, hget] at hother
        obtain rfl := Option.some.inj hother
        refine .inl ⟨hkind, ?_⟩
        rw [hnumber, hinfo]
        exact hseq
      · rw [if_pos hkind]
        have hlane := hlanes k
        rw [if_pos rfl] at hlane
        refine .inr (hexp.bump (hlimit.trans hlimit₁.symm) (hsequence.trans hsequence₁.symm) hlane
          ((lane q₁ k).fades_remove _) ?_ (Nat.le_refl _) ?_)
        · intro slot' hget'
          change ((lane q₁ k).slots.modify selected.index _)[index]? = some slot' at hget'
          rw [List.getElem?_modify_ne _ _ hsame, hget] at hget'
          obtain rfl := Option.some.inj hget'
          exact hocc
        · have hahead := hexp.ahead
          by_cases hstarved : limit.toNat ≤ served
          · have hwaited : LaneStorage.limit q₁ ≤ slot.serviceWait := by
              rw [UInt8.le_iff_toNat_le, hexp.limit_eq]
              have hlt := limit.toNat_lt
              omega
            have hage := helder index slot hget hocc (hexpires ▸ hlive) hwaited
            rw [hseq] at hage
            have hcount := @Lane.count_remove _ _ _ hother (noYounger (sequence q₁) number)
              (by rw [hoccother, hage]; rfl)
            omega
          · have hcount := ((lane q₁ k).fades_remove selected.index).count_le
              (noYounger (sequence q₁) number)
            omega
    · have hlane := hlanes kind
      rw [if_neg (Ne.symm hown)] at hlane
      rw [if_neg (by rw [hkind]; exact hown)]
      refine .inr (hexp.bump (hlimit.trans hlimit₁.symm) (hsequence.trans hsequence₁.symm) hlane
        (Fades.refl _) ?_ (Nat.zero_le _) hexp.ahead)
      intro slot' hget'
      rw [hget] at hget'
      obtain rfl := Option.some.inj hget'
      exact hocc

/-! ## Arrivals -/

/-- A new item in a slot that was free. -/
structure Arrives (number : ℕ) (expiresAt : Option Instant) (slots slots' : List Slot) : Prop where
  stays : ∀ (index : ℕ) (slot : Slot), slots[index]? = some slot → slot.occupied = true →
    slots'[index]? = some slot
  count : ∀ p, countItems p slots' = countItems p slots + if p number = true then 1 else 0
  new : ∃ (index : ℕ) (slot : Slot), slots'[index]? = some slot ∧ slot.occupied = true ∧
    slot.sequence = number ∧ slot.expiresAt = expiresAt

theorem arrives_fill {index : ℕ} (hget : slots[index]? = some slot) (hfree : slot.occupied = false)
    (destination : UInt8) (payload : List UInt8) (priority : NetworkPriority) (now : Instant)
    (expiresAt : Option Instant) (number : ℕ) :
    Arrives number expiresAt slots (slots.modify index fun slot =>
      slot.fill destination payload priority now expiresAt number) := by
  refine ⟨?_, ?_, ?_⟩
  · intro other kept hkept hocc
    have hne : index ≠ other := by
      rintro rfl
      rw [hget] at hkept
      obtain rfl := Option.some.inj hkept
      rw [hfree] at hocc
      cases hocc
    rw [List.getElem?_modify_ne _ _ hne, hkept]
  · intro p
    exact countItems_modify hget hfree rfl p
  · refine ⟨index, slot.fill destination payload priority now expiresAt number, ?_, rfl, rfl, rfl⟩
    rw [List.getElem?_modify_eq, hget]
    rfl

/-- Every item is counted, and there is room for `c`. -/
def Bounded (q : Q) (kind : QueueKind) (c : ℕ) : Prop :=
  countItems (fun _ => true) (lane q kind).slots = (lane q kind).depth ∧
    (lane q kind).depth ≤ c ∧ LaneStorage.capacity q kind = c

/-- What an enqueue does to the lane of one class. -/
inductive Offers (q : Q) (destination : UInt8) (expiresAt : Option Instant) (kind : QueueKind) :
    Except QueueRefusal Unit × Q → Prop
  | passed (result : Except QueueRefusal Unit) (q' : Q)
      (elsewhere : result = .ok () → QueueKind.fromDestination destination ≠ kind)
      (number : sequence q' = sequence q ∨ sequence q' = nextSequence (sequence q))
      (limit_eq : LaneStorage.limit q' = LaneStorage.limit q)
      (capacity_eq : LaneStorage.capacity q' kind = LaneStorage.capacity q kind)
      (slots_eq : (lane q' kind).slots = (lane q kind).slots)
      (depth_eq : (lane q' kind).depth = (lane q kind).depth) :
      Offers q destination expiresAt kind (result, q')
  | accepted (q' : Q) (number : sequence q' = nextSequence (sequence q))
      (limit_eq : LaneStorage.limit q' = LaneStorage.limit q)
      (arrives : Arrives (sequence q) expiresAt (lane q kind).slots (lane q' kind).slots)
      (bounded : ∀ c, Bounded q kind c → Bounded q' kind c) :
      Offers q destination expiresAt kind (.ok (), q')

/-- A backend's enqueue takes an item into a free slot of its class or leaves the slots alone. -/
def Accepts (Q : Type) [LaneStorage Q] : Prop :=
  ∀ (q : Q) (destination : UInt8) (payload : List UInt8) (priority : NetworkPriority)
    (now : Instant) (expiresAt : Option Instant) (kind : QueueKind),
    Offers q destination expiresAt kind
      (enqueueNpdu q destination payload priority now expiresAt)

theorem noYounger_next {number other : ℕ} (hnumber : Recent next number)
    (hother : Recent next other) :
    noYounger (nextSequence next) number other = noYounger next number other := by
  unfold noYounger
  rw [numbersSince_next hnumber.1 hnumber.2, numbersSince_next hother.1 hother.2, decide_eq_decide]
  omega

theorem noYounger_new {number : ℕ} (hnumber : Recent next number) :
    noYounger (nextSequence next) number next = false := by
  unfold noYounger
  rw [numbersSince_next hnumber.1 hnumber.2, numbersSince_new, decide_eq_false_iff_not]
  omega

variable {destination : UInt8}

theorem Waits.offer (h : Waits q kind index number expiresAt limit c served) (hfresh : Fresh q kind)
    {expires : Option Instant} {result : Except QueueRefusal Unit}
    (hoffer : Offers q destination expires kind (result, q')) :
    Waits q' kind index number expiresAt limit c served := by
  obtain ⟨slot, hget, hocc, hseq, hexp, hwait⟩ := h.held
  have hrecent : Recent (sequence q) number := hseq ▸ hfresh slot (List.mem_of_getElem? hget) hocc
  have hcount : countItems (noYounger (nextSequence (sequence q)) number) (lane q kind).slots
      = countItems (noYounger (sequence q) number) (lane q kind).slots :=
    countItems_congr fun other hother hoccupied =>
      noYounger_next hrecent (hfresh other hother hoccupied)
  cases hoffer with
  | passed _ _ _ hnumber hlimit _ hslots =>
    refine ⟨⟨slot, by rw [hslots]; exact hget, hocc, hseq, hexp, hwait⟩,
      hlimit.trans h.limit_eq, ?_⟩
    rw [hslots]
    rcases hnumber with hnumber | hnumber
    · rw [hnumber]
      exact h.ahead
    · rw [hnumber, hcount]
      exact h.ahead
  | accepted _ hnumber hlimit harrives =>
    refine ⟨⟨slot, harrives.stays index slot hget hocc, hocc, hseq, hexp, hwait⟩,
      hlimit.trans h.limit_eq, ?_⟩
    rw [hnumber, harrives.count, hcount, noYounger_new hrecent]
    exact h.ahead

/-- An accepted item starts to wait, with room for `c` items in its lane. -/
theorem Waits.start (haccepts : Accepts Q) {payload : List UInt8} {priority : NetworkPriority}
    (hbounded : Bounded q kind c) (hkind : QueueKind.fromDestination destination = kind)
    (hcall : enqueueNpdu q destination payload priority now expiresAt = (.ok (), q')) :
    ∃ index, Waits q' kind index (sequence q) expiresAt (LaneStorage.limit q) c 0 := by
  have hoffer := haccepts q destination payload priority now expiresAt kind
  rw [hcall] at hoffer
  cases hoffer with
  | passed _ _ helsewhere => exact absurd hkind (helsewhere rfl)
  | accepted _ hnumber hlimit harrives hbounded' =>
    obtain ⟨index, slot, hget, hocc, hseq, hexp⟩ := harrives.new
    refine ⟨index, ⟨slot, hget, hocc, hseq, hexp, Nat.zero_le _⟩, hlimit, ?_⟩
    have hroom := hbounded' c hbounded
    have hall : countItems (noYounger (sequence q') (sequence q)) (lane q' kind).slots
        ≤ countItems (fun _ => true) (lane q' kind).slots :=
      List.countP_mono_left fun other _ hother => by
        rw [Bool.and_eq_true] at hother
        rw [hother.1]
        rfl
    have hcap := hroom.2.1
    rw [hroom.1] at hall
    omega

end Queues

end RustyBacnet.Mstp
