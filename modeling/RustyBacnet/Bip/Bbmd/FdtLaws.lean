import Mathlib.Data.List.Induction
import Mathlib.Data.List.Nodup
import Mathlib.Order.Lattice
import RustyBacnet.Bip.Bbmd.Fdt

/-!
# The laws of the foreign device table

A registration that a later reading finds live (`Fdt.holds`) is untouched by every call but a renewal,
a deletion or a replacement of it (`Fdt.holds_apply`), whenever lapsed ones are purged. From this come
the lifetimes, and from what a call does to the addresses (`Fdt.apply_addresses`) their order and
number.
-/

namespace RustyBacnet.Bip

namespace Registration

variable {registration : Registration} {now later : Instant}

theorem isExpiredAt_iff :
    registration.isExpiredAt now = false ↔ now - registration.registeredAt ≤ registration.lifetime := by
  unfold isExpiredAt
  rw [decide_eq_false_iff_not, Nat.not_lt]

theorem isExpiredAt_mono (hle : now ≤ later) (h : registration.isExpiredAt later = false) :
    registration.isExpiredAt now = false := by
  rw [isExpiredAt_iff] at h ⊢
  exact (Nat.sub_le_sub_right hle _).trans h

theorem secondsRemainingAt_mono (hle : now ≤ later) :
    registration.secondsRemainingAt later ≤ registration.secondsRemainingAt now := by
  unfold secondsRemainingAt
  have hpassed : (now - registration.registeredAt) / 1000000000
      ≤ (later - registration.registeredAt) / 1000000000 :=
    Nat.div_le_div_right (Nat.sub_le_sub_right hle _)
  have hleft := min_le_min_right 65535
    (Nat.sub_le_sub_left hpassed (registration.ttl.toNat + graceSeconds))
  rw [UInt16.le_iff_toNat_le, UInt16.toNat_ofNat', UInt16.toNat_ofNat', Nat.mod_eq_of_lt (by omega),
    Nat.mod_eq_of_lt (by omega)]
  exact hleft

end Registration

/-! ## Calls -/

/-- The calls that change a table; the caller's time goes with each. -/
inductive FdtOp where
  | register (source : SocketAddr) (ttl : UInt16) (reservation : Reservation) (admit_ : Bool)
  | delete (address : SocketAddr)
  | purge
  | restore (registration : Registration)

namespace Fdt

variable {N : ℕ} {fdt : Fdt N} {limits : RegistrationLimits} {now later : Instant}

def addresses (fdt : Fdt N) : List SocketAddr := fdt.registrations.map (·.address)

def fromSource (fdt : Fdt N) (ip : Ip) : ℕ :=
  (fdt.registrations.filter fun entry => entry.address.ip == ip).length

def apply (limits : RegistrationLimits) (fdt : Fdt N) (now : Instant) : FdtOp → Fdt N
  | .register source ttl reservation admit_ =>
    (fdt.register source ttl now limits reservation admit_).2
  | .delete address => (fdt.delete address).2
  | .purge => (fdt.purge now).2
  | .restore registration => (fdt.restore registration).2

def run (limits : RegistrationLimits) (fdt : Fdt N) (ops : List (Instant × FdtOp)) : Fdt N :=
  ops.foldl (fun fdt op => fdt.apply limits op.1 op.2) fdt

/-- The call renews, deletes or replaces the registration of the address. -/
def Resets (limits : RegistrationLimits) (fdt : Fdt N) (now : Instant) (address : SocketAddr) :
    FdtOp → Prop
  | .register source ttl reservation admit_ => source = address ∧
    ∃ registered, (fdt.register source ttl now limits reservation admit_).1.1 = .ok registered
  | .delete deleted => deleted = address
  | .purge => False
  | .restore registration => registration.address = address ∧ (fdt.restore registration).1 = .ok ()

/-- No call resets the address's registration. -/
def Untouched (limits : RegistrationLimits) (address : SocketAddr) :
    Fdt N → List (Instant × FdtOp) → Prop
  | _, [] => True
  | fdt, op :: ops =>
    ¬fdt.Resets limits op.1 address op.2 ∧ Untouched limits address (fdt.apply limits op.1 op.2) ops

def adds (limits : RegistrationLimits) (fdt : Fdt N) (now : Instant) : FdtOp → Option SocketAddr
  | .register source ttl reservation admit_ =>
    match (fdt.register source ttl now limits reservation admit_).1.1 with
    | .ok .new => some source
    | _ => none
  | .restore registration =>
    match (fdt.restore registration).1 with
    | .ok () => if (fdt.get registration.address).isSome then none else some registration.address
    | .error _ => none
  | _ => none

/-- The run, the calls made so far, and the number of the call that last added each address. -/
def runSince (limits : RegistrationLimits) (ops : List (Instant × FdtOp)) :
    Fdt N × ℕ × (SocketAddr → ℕ) :=
  ops.foldl (fun (fdt, made, since) op =>
    (fdt.apply limits op.1 op.2, made + 1, fun address =>
      if fdt.adds limits op.1 op.2 = some address then made else since address))
    (new, 0, fun _ => 0)

/-- The number of the call that last added the address. -/
def since (N : ℕ) (limits : RegistrationLimits) (ops : List (Instant × FdtOp)) : SocketAddr → ℕ :=
  (runSince limits ops : Fdt N × ℕ × (SocketAddr → ℕ)).2.2

/-- Storing a registration for an address that has one or that there is room for. -/
def place (fdt : Fdt N) (registration : Registration) : Fdt N :=
  if (fdt.get registration.address).isSome then fdt.replace registration
  else ⟨fdt.registrations ++ [registration]⟩

theorem get_isSome {address : SocketAddr} :
    (fdt.get address).isSome = true ↔ address ∈ fdt.addresses := by
  unfold get addresses
  rw [List.find?_isSome, List.mem_map]
  simp only [beq_iff_eq]

/-! ## Compaction in place -/

/-- One turn of `retain`: the registration at `index` is kept in the slot behind those kept so far. -/
def retainStep (keep : Registration → Bool) (kept : List Registration × ℕ) (index : ℕ) :
    List Registration × ℕ :=
  match kept.1[index]? with
  | none => kept
  | some entry => if keep entry then (kept.1.set kept.2 entry, kept.2 + 1) else kept

/-- `retain` over the slots in use, with how many are kept. -/
def retain (keep : Registration → Bool) (slots : List Registration) : List Registration × ℕ :=
  (List.range slots.length).foldl (retainStep keep) (slots, 0)

/-- After `turns`, the kept ones stand in front and what is behind is untouched. -/
theorem retain_turns (keep : Registration → Bool) (slots : List Registration) (turns : ℕ)
    (hturns : turns ≤ slots.length) :
    let kept := (List.range turns).foldl (retainStep keep) (slots, 0)
    kept.1.length = slots.length ∧ kept.2 ≤ turns ∧
      kept.1.take kept.2 = (slots.take turns).filter keep ∧ kept.1.drop turns = slots.drop turns := by
  induction turns with
  | zero => exact ⟨rfl, Nat.le_refl 0, rfl, rfl⟩
  | succ turns ih =>
    rw [List.range_succ, List.foldl_append, List.foldl_cons, List.foldl_nil]
    obtain ⟨hlength, hle, htake, hdrop⟩ := ih (by omega)
    generalize (List.range turns).foldl (retainStep keep) (slots, 0) = kept at *
    obtain ⟨written, count⟩ := kept
    dsimp only at *
    have hentry : written[turns]? = some slots[turns] := by
      have hhead := congrArg (·[0]?) hdrop
      simp only [List.getElem?_drop, Nat.add_zero] at hhead
      rw [hhead, List.getElem?_eq_getElem]
    have hbehind : written.drop (turns + 1) = slots.drop (turns + 1) := by
      rw [← List.drop_drop, ← List.drop_drop, hdrop]
    unfold retainStep
    rw [hentry, List.take_succ_eq_append_getElem (by omega), List.filter_append, List.filter_singleton]
    dsimp only
    cases hkeep : keep slots[turns] with
    | false =>
      rw [if_neg Bool.false_ne_true]
      refine ⟨hlength, hle.trans (Nat.le_succ turns), ?_, hbehind⟩
      rw [htake]
      exact (List.append_nil _).symm
    | true =>
      rw [if_pos rfl]
      refine ⟨(List.length_set ..).trans hlength, Nat.succ_le_succ hle, ?_, ?_⟩
      · dsimp only
        rw [← htake, List.take_succ_eq_append_getElem (by rw [List.length_set]; omega),
          List.take_set_of_le (Nat.le_refl count), List.getElem_set_self]
        rfl
      · rw [List.drop_set_of_lt (by omega), hbehind]

/-- The table's `retain`: how many registrations go, and the table of the others. -/
def compact (fdt : Fdt N) (keep : Registration → Bool) : ℕ × Fdt N :=
  let (slots, kept) := retain keep fdt.registrations
  (fdt.registrations.length - kept, ⟨slots.take kept⟩)

/-- Compacting in place is filtering, for `purge` and for `delete`. -/
theorem compaction_in_place (fdt : Fdt N) (now : Instant) (address : SocketAddr) :
    fdt.purge now = fdt.compact (fun entry => !entry.isExpiredAt now) ∧
      fdt.delete address = (decide (0 < (fdt.compact fun entry => entry.address != address).1),
        (fdt.compact fun entry => entry.address != address).2) := by
  have hcompact (keep : Registration → Bool) : fdt.compact keep =
      (fdt.registrations.length - (fdt.registrations.filter keep).length,
        ⟨fdt.registrations.filter keep⟩) := by
    obtain ⟨hlength, hle, htake, -⟩ :=
      retain_turns keep fdt.registrations fdt.registrations.length (Nat.le_refl _)
    rw [List.take_length] at htake
    have hkept := congrArg List.length htake
    rw [List.length_take, hlength, Nat.min_eq_left hle] at hkept
    rw [← hkept, ← htake]
    rfl
  rw [hcompact, hcompact]
  exact ⟨rfl, Prod.ext (decide_eq_decide.mpr (Nat.sub_pos_iff_lt).symm) rfl⟩

/-! ## What one call does -/

/-- A registration is refused with no more than the purge, or stored where the limits have room. -/
theorem register_cases (fdt : Fdt N) (source : SocketAddr) (ttl : UInt16) (now : Instant)
    (limits : RegistrationLimits) (reservation : Reservation) (admit_ : Bool) :
    (∃ refused, (fdt.register source ttl now limits reservation admit_).1.1 = .error refused ∧
      (fdt.register source ttl now limits reservation admit_).2 = (fdt.purge now).2) ∨
    ((fdt.register source ttl now limits reservation admit_).1.1 = .ok .renewed ∧
      (fdt.register source ttl now limits reservation admit_).2
        = (fdt.purge now).2.place ⟨source, ttl, now⟩ ∧
      ((fdt.purge now).2.get source).isSome = true) ∨
    ((fdt.register source ttl now limits reservation admit_).1.1 = .ok .new ∧
      (fdt.register source ttl now limits reservation admit_).2
        = (fdt.purge now).2.place ⟨source, ttl, now⟩ ∧
      ¬((fdt.purge now).2.get source).isSome = true ∧
      (fdt.purge now).2.fromSource source.ip < limits.maxEntriesPerSource ∧
      (fdt.purge now).2.registrations.length < N ∧
      (reservation = .ordinary →
        (fdt.purge now).2.registrations.length < N - limits.reservedCapacity)) := by
  have hregister : fdt.register source ttl now limits reservation admit_
      = ((((fdt.purge now).2.admitAndStore source ttl now limits reservation admit_).1,
          (fdt.purge now).1),
        ((fdt.purge now).2.admitAndStore source ttl now limits reservation admit_).2) := rfl
  rw [hregister]
  generalize (fdt.purge now).2 = purged
  unfold admitAndStore
  by_cases httl : ttl = 0 ∨ ttl < limits.minTtl ∨ limits.maxTtl < ttl
  · rw [if_pos httl]
    exact .inl ⟨_, rfl, rfl⟩
  rw [if_neg httl]
  by_cases hadmitted : (!admit_) = true
  · rw [if_pos hadmitted]
    exact .inl ⟨_, rfl, rfl⟩
  rw [if_neg hadmitted]
  unfold place
  by_cases hstored : (purged.get source).isSome = true
  · rw [if_pos hstored, if_pos hstored]
    exact .inr (.inl ⟨rfl, rfl, hstored⟩)
  rw [if_neg hstored, if_neg hstored]
  by_cases hquota : limits.maxEntriesPerSource
      ≤ (purged.registrations.filter fun entry => entry.address.ip == source.ip).length
  · rw [if_pos hquota]
    exact .inl ⟨_, rfl, rfl⟩
  rw [if_neg hquota]
  cases reservation with
  | reserved =>
    by_cases hfull : N ≤ purged.registrations.length
    · exact .inl ⟨_, by rw [if_pos hfull], by rw [if_pos hfull]⟩
    · rw [if_neg hfull]
      exact .inr (.inr ⟨rfl, rfl, hstored, Nat.not_le.mp hquota, Nat.not_le.mp hfull,
        fun h => (nomatch h)⟩)
  | ordinary =>
    by_cases hfull : N - limits.reservedCapacity ≤ purged.registrations.length
    · exact .inl ⟨_, by rw [if_pos hfull], by rw [if_pos hfull]⟩
    · rw [if_neg hfull]
      exact .inr (.inr ⟨rfl, rfl, hstored, Nat.not_le.mp hquota,
        (Nat.not_le.mp hfull).trans_le (Nat.sub_le _ _), fun _ => Nat.not_le.mp hfull⟩)

theorem restore_cases (fdt : Fdt N) (registration : Registration) :
    (∃ full, fdt.restore registration = (.error full, fdt)) ∨
      (fdt.restore registration = (.ok (), fdt.place registration) ∧
        ((fdt.get registration.address).isSome = true ∨ fdt.registrations.length < N)) := by
  unfold restore place
  by_cases hstored : (fdt.get registration.address).isSome = true
  · rw [if_pos hstored, if_pos hstored]
    exact .inr ⟨rfl, .inl hstored⟩
  rw [if_neg hstored, if_neg hstored]
  split_ifs with hroom
  · exact .inr ⟨rfl, .inr hroom⟩
  · exact .inl ⟨_, rfl⟩

/-! ## The live registrations -/

/-- The registration of the address, if `live` says that it is. -/
def find (fdt : Fdt N) (live : Registration → Bool) (address : SocketAddr) : Option Registration :=
  fdt.registrations.find? fun entry => live entry && entry.address == address

section Find

variable {live : Registration → Bool} {registration : Registration} {address deleted : SocketAddr}

theorem find_delete (h : deleted ≠ address) :
    (fdt.delete deleted).2.find live address = fdt.find live address := by
  unfold delete find
  induction fdt.registrations with
  | nil => rfl
  | cons entry entries ih =>
    rw [List.filter_cons]
    by_cases hentry : entry.address = deleted
    · rw [hentry, bne_self_eq_false, if_neg Bool.false_ne_true, ih, List.find?_cons, hentry,
        beq_false_of_ne h, Bool.and_false]
    · rw [if_pos (bne_iff_ne.mpr hentry), List.find?_cons, List.find?_cons, ih]

theorem find_place_of_ne (h : registration.address ≠ address) :
    (fdt.place registration).find live address = fdt.find live address := by
  unfold place
  split_ifs
  · unfold replace find
    induction fdt.registrations with
    | nil => rfl
    | cons entry entries ih =>
      rw [List.map_cons, List.find?_cons, List.find?_cons, ih]
      by_cases hentry : entry.address = registration.address
      · rw [if_pos hentry, hentry, beq_false_of_ne h, Bool.and_false, Bool.and_false]
      · rw [if_neg hentry]
  · unfold find
    rw [List.find?_append, List.find?_singleton, beq_false_of_ne h, Bool.and_false]
    exact Option.or_none

/-- What is stored is what is found. -/
theorem find_place_self (fdt : Fdt N) (live : Registration → Bool) (registration : Registration) :
    (fdt.place registration).find live registration.address =
      if live registration then some registration else none := by
  unfold place
  by_cases hstored : (fdt.get registration.address).isSome = true
  · rw [if_pos hstored]
    rw [get_isSome] at hstored
    unfold replace find
    unfold addresses at hstored
    generalize fdt.registrations = entries at hstored ⊢
    induction entries with
    | nil => exact absurd hstored List.not_mem_nil
    | cons first entries ih =>
      rw [List.map_cons, List.find?_cons]
      by_cases hfirst : first.address = registration.address
      · rw [if_pos hfirst, beq_self_eq_true, Bool.and_true]
        cases hlive : live registration with
        | true => rfl
        | false =>
          rw [if_neg Bool.false_ne_true, List.find?_eq_none]
          intro entry hentry hboth
          obtain ⟨old, -, rfl⟩ := List.mem_map.mp hentry
          obtain ⟨hentry, haddress⟩ := Bool.and_eq_true_iff.mp hboth
          split_ifs at hentry haddress with hold
          · exact Bool.false_ne_true (hlive.symm.trans hentry)
          · exact hold (beq_iff_eq.mp haddress)
      · rw [if_neg hfirst, beq_false_of_ne hfirst, Bool.and_false]
        refine ih ?_
        rw [List.map_cons] at hstored
        exact (List.mem_cons.mp hstored).resolve_left fun heq => hfirst heq.symm
  · rw [if_neg hstored]
    have hnone : fdt.find live registration.address = none := by
      unfold find
      rw [List.find?_eq_none]
      intro entry hentry hboth
      refine hstored (get_isSome.mpr (List.mem_map.mpr ⟨entry, hentry, ?_⟩))
      exact beq_iff_eq.mp (Bool.and_eq_true_iff.mp hboth).2
    unfold find at hnone ⊢
    rw [List.find?_append, hnone, Option.none_or, List.find?_singleton, beq_self_eq_true,
      Bool.and_true]

end Find

/-- The registration of the address that is live at `now`. -/
def holds (fdt : Fdt N) (address : SocketAddr) (now : Instant) : Option Registration :=
  fdt.find (fun entry => !entry.isExpiredAt now) address

theorem liveAt_purge (h : now ≤ later) : (fdt.purge now).2.liveAt later = fdt.liveAt later := by
  show (fdt.registrations.filter _).filter _ = fdt.registrations.filter _
  rw [List.filter_filter]
  refine List.filter_congr fun entry _ => ?_
  cases hlater : entry.isExpiredAt later with
  | true => rfl
  | false =>
    rw [Registration.isExpiredAt_mono h hlater]
    rfl

theorem holds_eq (fdt : Fdt N) (address : SocketAddr) (now : Instant) :
    fdt.holds address now = (fdt.liveAt now).find? fun entry => entry.address == address := by
  unfold holds find liveAt
  rw [List.find?_filter]
  simp only [Bool.decide_and, Bool.decide_eq_true]

theorem holds_purge (h : now ≤ later) (address : SocketAddr) :
    (fdt.purge now).2.holds address later = fdt.holds address later := by
  rw [holds_eq, holds_eq, liveAt_purge h]

theorem holds_apply {op : FdtOp} {address : SocketAddr} (hresets : ¬fdt.Resets limits now address op)
    (hle : now ≤ later) : (fdt.apply limits now op).holds address later = fdt.holds address later := by
  cases op with
  | register source ttl reservation admit_ =>
    unfold apply
    dsimp only
    rcases fdt.register_cases source ttl now limits reservation admit_ with
      ⟨-, -, hnext⟩ | ⟨hok, hnext, -⟩ | ⟨hok, hnext, -⟩
    · rw [hnext]
      exact holds_purge hle address
    all_goals
      have hne : source ≠ address := fun heq => hresets ⟨heq, _, hok⟩
      rw [hnext]
      exact (find_place_of_ne hne).trans (holds_purge hle address)
  | delete deleted => exact find_delete hresets
  | purge => exact holds_purge hle address
  | restore registration =>
    unfold apply
    dsimp only
    rcases fdt.restore_cases registration with ⟨full, hrestore⟩ | ⟨hrestore, -⟩
    · rw [hrestore]
    · rw [hrestore]
      refine find_place_of_ne fun heq => hresets ⟨heq, ?_⟩
      rw [hrestore]

variable {ops : List (Instant × FdtOp)}

theorem holds_run {address : SocketAddr} {fdt : Fdt N} (h : Untouched limits address fdt ops)
    (hle : ∀ op ∈ ops, op.1 ≤ later) :
    (run limits fdt ops).holds address later = fdt.holds address later := by
  induction ops generalizing fdt with
  | nil => rfl
  | cons op ops ih =>
    obtain ⟨hop, hops⟩ := h
    rw [← holds_apply hop (hle op List.mem_cons_self)]
    exact ih hops fun later hlater => hle later (List.mem_cons_of_mem _ hlater)

theorem address_of_find? {entries : List Registration} {address : SocketAddr}
    {registration : Registration}
    (h : entries.find? (fun entry => entry.address == address) = some registration) :
    registration.address = address := by
  have hsome := List.find?_some h
  exact beq_iff_eq.mp hsome

theorem holds_eq_some (hdistinct : fdt.addresses.Nodup) {address : SocketAddr}
    {registration : Registration} :
    fdt.holds address now = some registration ↔
      registration ∈ fdt.liveAt now ∧ registration.address = address := by
  rw [holds_eq]
  constructor
  · intro h
    exact ⟨List.mem_of_find?_eq_some h, address_of_find? h⟩
  · rintro ⟨hlive, rfl⟩
    cases hfind : (fdt.liveAt now).find? fun entry => entry.address == registration.address with
    | none => exact absurd (beq_self_eq_true _) (List.find?_eq_none.mp hfind _ hlive)
    | some found =>
      have hfound := List.mem_of_mem_filter (List.mem_of_find?_eq_some hfind)
      rw [List.inj_on_of_nodup_map hdistinct hfound (List.mem_of_mem_filter hlive)
        (address_of_find? hfind)]

theorem isRegisteredAt_iff (hdistinct : fdt.addresses.Nodup) {address : SocketAddr} :
    fdt.isRegisteredAt address now = true ↔ ∃ entry ∈ fdt.liveAt now, entry.address = address := by
  unfold isRegisteredAt
  rw [Option.any_eq_true]
  constructor
  · rintro ⟨entry, hget, hlive⟩
    exact ⟨entry, List.mem_filter.mpr ⟨List.mem_of_find?_eq_some hget, hlive⟩,
      address_of_find? hget⟩
  · rintro ⟨entry, hentry, rfl⟩
    obtain ⟨hmem, hlive⟩ := List.mem_filter.mp hentry
    obtain ⟨found, hget⟩ := Option.isSome_iff_exists.mp
      (get_isSome.mpr (List.mem_map_of_mem hmem))
    have hfound := List.inj_on_of_nodup_map hdistinct (List.mem_of_find?_eq_some hget) hmem
      (address_of_find? hget)
    exact ⟨found, hget, hfound ▸ hlive⟩

theorem isRegisteredAt_eq (hdistinct : fdt.addresses.Nodup) (address : SocketAddr) :
    fdt.isRegisteredAt address now = (fdt.holds address now).isSome := by
  rw [Bool.eq_iff_iff, isRegisteredAt_iff hdistinct, Option.isSome_iff_exists]
  refine exists_congr fun entry => ?_
  rw [holds_eq_some hdistinct]

/-! ## Addresses -/

theorem addresses_replace (fdt : Fdt N) (registration : Registration) :
    (fdt.replace registration).addresses = fdt.addresses := by
  unfold replace addresses
  rw [List.map_map]
  refine List.map_congr_left fun entry _ => ?_
  show (if entry.address = registration.address then registration else entry).address = entry.address
  split_ifs with haddress
  · exact haddress.symm
  · rfl

theorem addresses_purge (fdt : Fdt N) (now : Instant) :
    (fdt.purge now).2.addresses.Sublist fdt.addresses :=
  List.filter_sublist.map _

/-- A call leaves some of the addresses in their order, and adds one at most, behind them. -/
theorem apply_addresses (limits : RegistrationLimits) (fdt : Fdt N) (now : Instant) (op : FdtOp) :
    (fdt.adds limits now op = none ∧ (fdt.apply limits now op).addresses.Sublist fdt.addresses) ∨
      ∃ added kept, fdt.adds limits now op = some added ∧ kept.Sublist fdt.addresses ∧
        added ∉ kept ∧ kept.length < N ∧ (fdt.apply limits now op).addresses = kept ++ [added] := by
  have happend : ∀ (table : Fdt N) (registration : Registration),
      ¬(table.get registration.address).isSome = true →
      (table.place registration).addresses = table.addresses ++ [registration.address] := by
    intro table registration hget
    unfold place addresses
    rw [if_neg hget, List.map_append]
    rfl
  cases op with
  | register source ttl reservation admit_ =>
    unfold apply adds
    dsimp only
    rcases fdt.register_cases source ttl now limits reservation admit_ with
      ⟨refused, herror, hnext⟩ | ⟨hok, hnext, hstored⟩ | ⟨hok, hnext, hstored, -, hroom, -⟩
    · rw [herror, hnext]
      exact .inl ⟨rfl, fdt.addresses_purge now⟩
    · rw [hok, hnext]
      refine .inl ⟨rfl, ?_⟩
      unfold place
      rw [if_pos hstored, addresses_replace]
      exact fdt.addresses_purge now
    · rw [hok, hnext]
      exact .inr ⟨source, _, rfl, fdt.addresses_purge now, fun hmem => hstored (get_isSome.mpr hmem),
        (List.length_map _).trans_lt hroom, happend _ _ hstored⟩
  | delete address => exact .inl ⟨rfl, List.filter_sublist.map _⟩
  | purge => exact .inl ⟨rfl, fdt.addresses_purge now⟩
  | restore registration =>
    unfold apply adds
    dsimp only
    rcases fdt.restore_cases registration with ⟨full, hrestore⟩ | ⟨hrestore, hroom⟩
    · rw [hrestore]
      exact .inl ⟨rfl, List.Sublist.refl _⟩
    · rw [hrestore]
      by_cases hstored : (fdt.get registration.address).isSome = true
      · rw [if_pos hstored]
        refine .inl ⟨rfl, ?_⟩
        unfold place
        rw [if_pos hstored, addresses_replace]
      · rw [if_neg hstored]
        exact .inr ⟨registration.address, _, rfl, List.Sublist.refl _,
          fun hmem => hstored (get_isSome.mpr hmem),
          (List.length_map _).trans_lt (hroom.resolve_left hstored), happend _ _ hstored⟩

/-- A table fits its storage, and its addresses stand in the order they were added in. -/
structure Ordered (fdt : Fdt N) (made : ℕ) (since : SocketAddr → ℕ) : Prop where
  fits : fdt.registrations.length ≤ N
  order : fdt.addresses.Pairwise fun first second => since first < since second
  made : ∀ address ∈ fdt.addresses, since address < made

theorem Ordered.distinct {made : ℕ} {since : SocketAddr → ℕ} (h : Ordered fdt made since) :
    fdt.addresses.Nodup := by
  show fdt.addresses.Pairwise (· ≠ ·)
  refine h.order.imp ?_
  rintro first second hlt rfl
  exact Nat.lt_irrefl _ hlt

theorem Ordered.apply {made : ℕ} {since : SocketAddr → ℕ} (h : Ordered fdt made since)
    (limits : RegistrationLimits) (now : Instant) (op : FdtOp) :
    Ordered (fdt.apply limits now op) (made + 1) fun address =>
      if fdt.adds limits now op = some address then made else since address := by
  have hlength : ∀ table : Fdt N, table.addresses.length = table.registrations.length :=
    fun table => List.length_map _
  rcases fdt.apply_addresses limits now op with ⟨hadds, hsub⟩ | ⟨added, kept, hadds, hsub, hnew, hroom, heq⟩
  · rw [hadds]
    refine ⟨?_, h.order.sublist hsub, fun address haddress => ?_⟩
    · rw [← hlength]
      exact hsub.length_le.trans ((hlength fdt).trans_le h.fits)
    · exact (h.made address (hsub.subset haddress)).trans (Nat.lt_succ_self made)
  · rw [hadds]
    have hkept : ∀ address ∈ kept, ¬some added = some address := by
      rintro address haddress heq
      exact hnew (Option.some.inj heq ▸ haddress)
    refine ⟨?_, ?_, fun address haddress => ?_⟩
    · rw [← hlength, heq, List.length_append, List.length_singleton]
      exact hroom
    · rw [heq, List.pairwise_append]
      refine ⟨?_, List.pairwise_singleton _ _, ?_⟩
      · refine (h.order.sublist hsub).imp_of_mem fun hfirst hsecond hlt => ?_
        rw [if_neg (hkept _ hfirst), if_neg (hkept _ hsecond)]
        exact hlt
      · intro address haddress last hlast
        rw [List.mem_singleton.mp hlast, if_neg (hkept _ haddress), if_pos rfl]
        exact h.made address (hsub.subset haddress)
    · split_ifs with hadded
      · exact Nat.lt_succ_self made
      · rw [heq] at haddress
        rcases List.mem_append.mp haddress with haddress | haddress
        · exact (h.made address (hsub.subset haddress)).trans (Nat.lt_succ_self made)
        · exact absurd (congrArg some (List.mem_singleton.mp haddress).symm) hadded

theorem runSince_concat (limits : RegistrationLimits) (ops : List (Instant × FdtOp))
    (op : Instant × FdtOp) :
    (runSince limits (ops ++ [op]) : Fdt N × ℕ × (SocketAddr → ℕ)) =
      let before := runSince limits ops
      (before.1.apply limits op.1 op.2, before.2.1 + 1, fun address =>
        if before.1.adds limits op.1 op.2 = some address then before.2.1 else before.2.2 address) := by
  unfold runSince
  rw [List.foldl_append]
  rfl

theorem run_concat (limits : RegistrationLimits) (fdt : Fdt N) (ops : List (Instant × FdtOp))
    (op : Instant × FdtOp) :
    run limits fdt (ops ++ [op]) = (run limits fdt ops).apply limits op.1 op.2 := by
  unfold run
  rw [List.foldl_append]
  rfl

theorem runSince_ordered (limits : RegistrationLimits) (ops : List (Instant × FdtOp)) :
    (runSince limits ops : Fdt N × ℕ × (SocketAddr → ℕ)).1 = run limits new ops ∧
      Ordered (run limits new ops : Fdt N)
        (runSince limits ops : Fdt N × ℕ × (SocketAddr → ℕ)).2.1 (since N limits ops) := by
  induction ops using List.reverseRecOn with
  | nil => exact ⟨rfl, Nat.zero_le N, List.Pairwise.nil, fun address h => absurd h List.not_mem_nil⟩
  | append_singleton ops op ih =>
    unfold since at ih ⊢
    rw [runSince_concat, run_concat]
    dsimp only
    rw [ih.1]
    exact ⟨rfl, ih.2.apply limits op.1 op.2⟩

/-! ## Quotas -/

theorem fromSource_eq (fdt : Fdt N) (ip : Ip) :
    fdt.fromSource ip = (fdt.addresses.filter fun address => address.ip == ip).length := by
  unfold fromSource addresses
  rw [List.filter_map, List.length_map]
  rfl

theorem length_registrations (fdt : Fdt N) : fdt.registrations.length = fdt.addresses.length :=
  (List.length_map _).symm

theorem fromSource_le {before : Fdt N} (h : fdt.addresses.Sublist before.addresses) (ip : Ip) :
    fdt.fromSource ip ≤ before.fromSource ip := by
  rw [fromSource_eq, fromSource_eq]
  exact (h.filter _).length_le

/-- What one registration makes of the quotas: it adds to none that is full. -/
theorem register_quotas (fdt : Fdt N) (source : SocketAddr) (ttl : UInt16) (now : Instant)
    (limits : RegistrationLimits) (reservation : Reservation) (admit_ : Bool) :
    (∀ ip, (fdt.register source ttl now limits reservation admit_).2.fromSource ip
      ≤ max (fdt.fromSource ip) limits.maxEntriesPerSource) ∧
    (reservation = .ordinary →
      (fdt.register source ttl now limits reservation admit_).2.registrations.length
        ≤ max fdt.registrations.length (N - limits.reservedCapacity)) ∧
    ((fdt.register source ttl now limits reservation admit_).1.1 = .ok .new →
      (fdt.register source ttl now limits reservation admit_).2.fromSource source.ip
        ≤ limits.maxEntriesPerSource ∧
      (reservation = .ordinary →
        (fdt.register source ttl now limits reservation admit_).2.registrations.length
          ≤ N - limits.reservedCapacity)) := by
  have hpurge := fdt.addresses_purge now
  rcases fdt.register_cases source ttl now limits reservation admit_ with
    ⟨refused, herror, hnext⟩ | ⟨hok, hnext, hstored⟩ | ⟨hok, hnext, hstored, hquota, -, hroom⟩
  · rw [herror, hnext]
    refine ⟨fun ip => (fromSource_le hpurge ip).trans (le_max_left _ _), fun _ => ?_,
      fun h => (nomatch h)⟩
    rw [length_registrations, length_registrations]
    exact hpurge.length_le.trans (le_max_left _ _)
  · have haddresses : ((fdt.purge now).2.place ⟨source, ttl, now⟩).addresses
        = (fdt.purge now).2.addresses := by
      unfold place
      rw [if_pos hstored, addresses_replace]
    rw [hok, hnext]
    refine ⟨fun ip => ?_, fun _ => ?_, fun h => (nomatch h)⟩
    · refine (fromSource_le ?_ ip).trans (le_max_left _ _)
      rw [haddresses]
      exact hpurge
    · rw [length_registrations, length_registrations, haddresses]
      exact hpurge.length_le.trans (le_max_left _ _)
  · have haddresses : ((fdt.purge now).2.place ⟨source, ttl, now⟩).addresses
        = (fdt.purge now).2.addresses ++ [source] := by
      unfold place addresses
      rw [if_neg hstored, List.map_append]
      rfl
    have hlength : ((fdt.purge now).2.place ⟨source, ttl, now⟩).registrations.length
        = (fdt.purge now).2.registrations.length + 1 := by
      rw [length_registrations, haddresses, List.length_append, length_registrations]
      rfl
    have hfromSource : ∀ ip, ((fdt.purge now).2.place ⟨source, ttl, now⟩).fromSource ip
        = (fdt.purge now).2.fromSource ip + (if source.ip = ip then 1 else 0) := by
      intro ip
      rw [fromSource_eq, haddresses, List.filter_append, List.length_append, ← fromSource_eq]
      rw [List.filter_singleton]
      by_cases hip : source.ip = ip
      · rw [if_pos hip, beq_iff_eq.mpr hip]
        rfl
      · rw [if_neg hip, beq_false_of_ne hip]
        rfl
    rw [hok, hnext]
    refine ⟨fun ip => ?_, fun hordinary => ?_, fun _ => ⟨?_, fun hordinary => ?_⟩⟩
    · rw [hfromSource]
      split_ifs with hip
      · rw [← hip]
        exact (Nat.succ_le_of_lt hquota).trans (le_max_right _ _)
      · exact (fromSource_le hpurge ip).trans (le_max_left _ _)
    · rw [hlength]
      exact (Nat.succ_le_of_lt (hroom hordinary)).trans (le_max_right _ _)
    · rw [hfromSource, if_pos rfl]
      exact hquota
    · rw [hlength]
      exact hroom hordinary

variable {reservation : Reservation} {source : SocketAddr} {admit_ : Bool} {ttl : UInt16}

/-- A refused registration leaves every registration that is live then or later. -/
theorem register_refused {refused : RegistrationRefusal}
    (h : (fdt.register source ttl now limits reservation admit_).1.1 = .error refused)
    (hle : now ≤ later) :
    (fdt.register source ttl now limits reservation admit_).2.liveAt later = fdt.liveAt later := by
  rcases fdt.register_cases source ttl now limits reservation admit_ with
    ⟨refused, -, hnext⟩ | ⟨hok, -⟩ | ⟨hok, -⟩
  · rw [hnext]
    exact liveAt_purge hle
  all_goals
    rw [hok] at h
    cases h

/-- A call that stores nothing unchecked. -/
def Checked : FdtOp → Prop
  | .restore _ => False
  | _ => True

/-- And takes no reserved room. -/
def Ordinary : FdtOp → Prop
  | .register _ _ reservation _ => reservation = .ordinary
  | .restore _ => False
  | _ => True

theorem run_quotas (limits : RegistrationLimits) (ops : List (Instant × FdtOp)) :
    ((∀ op ∈ ops, Checked op.2) →
      ∀ ip, (run limits new ops : Fdt N).fromSource ip ≤ limits.maxEntriesPerSource) ∧
    ((∀ op ∈ ops, Ordinary op.2) →
      (run limits new ops : Fdt N).registrations.length ≤ N - limits.reservedCapacity) := by
  induction ops using List.reverseRecOn with
  | nil => exact ⟨fun _ ip => Nat.zero_le _, fun _ => Nat.zero_le _⟩
  | append_singleton ops op ih =>
    rw [run_concat]
    obtain ⟨now, op⟩ := op
    have hlast : (now, op) ∈ ops ++ [(now, op)] := List.mem_append_right _ List.mem_cons_self
    refine ⟨fun hchecked ip => ?_, fun hordinary => ?_⟩
    · have hbefore := ih.1 (fun op hop => hchecked op (List.mem_append_left _ hop)) ip
      have hop := hchecked _ hlast
      cases op with
      | register source ttl reservation admit_ =>
        exact ((register_quotas _ source ttl now limits reservation admit_).1 ip).trans
          (max_le hbefore (Nat.le_refl _))
      | delete address => exact (fromSource_le (List.filter_sublist.map _) ip).trans hbefore
      | purge => exact (fromSource_le (addresses_purge _ now) ip).trans hbefore
      | restore registration => exact hop.elim
    · have hbefore := ih.2 fun op hop => hordinary op (List.mem_append_left _ hop)
      have hop := hordinary _ hlast
      cases op with
      | register source ttl reservation admit_ =>
        exact ((register_quotas _ source ttl now limits reservation admit_).2.1 hop).trans
          (max_le hbefore (Nat.le_refl _))
      | delete address => exact (List.length_filter_le _ _).trans hbefore
      | purge => exact (List.length_filter_le _ _).trans hbefore
      | restore registration => exact hop.elim

/-! ## Lifetimes -/

theorem registered_iff {fdt : Fdt N} {registered : Registered}
    (hok : (fdt.register source ttl now limits reservation admit_).1.1 = .ok registered)
    (huntouched : Untouched limits source
      (fdt.apply limits now (.register source ttl reservation admit_)) ops)
    (hdistinct : (run limits (fdt.apply limits now (.register source ttl reservation admit_))
      ops).addresses.Nodup) (hle : ∀ op ∈ ops, op.1 ≤ later) :
    (run limits (fdt.apply limits now (.register source ttl reservation admit_)) ops).isRegisteredAt
      source later = true ↔ later ≤ now + fromSecs (ttl.toNat + graceSeconds) := by
  have hplaced : (fdt.apply limits now (.register source ttl reservation admit_))
      = (fdt.purge now).2.place ⟨source, ttl, now⟩ := by
    rcases fdt.register_cases source ttl now limits reservation admit_ with
      ⟨refused, herror, -⟩ | ⟨-, hnext, -⟩ | ⟨-, hnext, -⟩
    · rw [herror] at hok
      cases hok
    all_goals exact hnext
  rw [isRegisteredAt_eq hdistinct, holds_run huntouched hle, hplaced]
  have hfind := find_place_self (fdt.purge now).2 (fun entry => !entry.isExpiredAt later)
    ⟨source, ttl, now⟩
  have hlive : (!(Registration.mk source ttl now).isExpiredAt later) = true ↔
      later ≤ now + fromSecs (ttl.toNat + graceSeconds) := by
    rw [Bool.not_eq_true', Registration.isExpiredAt_iff]
    exact Nat.sub_le_iff_le_add'
  unfold holds
  rw [hfind, ← hlive]
  split_ifs with h
  · exact iff_of_true rfl h
  · exact iff_of_false Bool.false_ne_true h

theorem remaining_mono {fdt : Fdt N} {address : SocketAddr}
    (huntouched : Untouched limits address fdt ops) (hdistinct : fdt.addresses.Nodup)
    (hafter : (run limits fdt ops).addresses.Nodup) (hnow : now ≤ later)
    (hle : ∀ op ∈ ops, op.1 ≤ later) {entry : Registration} (hentry : entry ∈ fdt.liveAt now)
    (haddress : entry.address = address) {last : Registration}
    (hlast : last ∈ (run limits fdt ops).liveAt later) (hsame : last.address = address) :
    last.secondsRemainingAt later ≤ entry.secondsRemainingAt now := by
  have hholds := (holds_eq_some hafter).mpr ⟨hlast, hsame⟩
  rw [holds_run huntouched hle] at hholds
  have hstored := List.mem_of_mem_filter ((holds_eq_some hdistinct).mp hholds).1
  rw [List.inj_on_of_nodup_map hdistinct hstored (List.mem_of_mem_filter hentry)
    (hsame.trans haddress.symm)]
  exact Registration.secondsRemainingAt_mono hnow

variable {room : ℕ}

theorem wireEntries_fits (h : fdt.registrations.length ≤ room) :
    ∃ entries, fdt.wireEntries now room = .ok entries := by
  exact ⟨_, if_neg (Nat.not_lt.mpr ((List.length_filter_le _ _).trans h))⟩

theorem wireEntries_ok {entries : List FdtEntry} (h : fdt.wireEntries now room = .ok entries) :
    entries = (fdt.liveAt now).map fun entry => entry.wireEntryAt now := by
  unfold wireEntries at h
  dsimp only at h
  split_ifs at h
  exact (Except.ok.inj h).symm

end Fdt

/-! ## The result -/

/-- The laws of a table after any calls. Its readings may come at any time behind the calls'. -/
theorem fdt_rules {N : ℕ} (limits : RegistrationLimits) (ops : List (Instant × FdtOp)) :
    let fdt : Fdt N := Fdt.run limits .new ops
    (fdt.registrations.length ≤ N ∧ fdt.addresses.Nodup ∧
      fdt.addresses.Pairwise fun first second =>
        Fdt.since N limits ops first < Fdt.since N limits ops second) ∧
    (((∀ op ∈ ops, Fdt.Checked op.2) → ∀ ip, fdt.fromSource ip ≤ limits.maxEntriesPerSource) ∧
      ((∀ op ∈ ops, Fdt.Ordinary op.2) →
        fdt.registrations.length ≤ N - limits.reservedCapacity)) ∧
    (∀ source ttl now reservation admit_,
      let answer := fdt.register source ttl now limits reservation admit_
      (∀ ip, answer.2.fromSource ip ≤ max (fdt.fromSource ip) limits.maxEntriesPerSource) ∧
      (reservation = .ordinary → answer.2.registrations.length
        ≤ max fdt.registrations.length (N - limits.reservedCapacity)) ∧
      (answer.1.1 = .ok .new → answer.2.fromSource source.ip ≤ limits.maxEntriesPerSource ∧
        (reservation = .ordinary →
          answer.2.registrations.length ≤ N - limits.reservedCapacity)) ∧
      ∀ refused, answer.1.1 = .error refused → ∀ later, now ≤ later →
        answer.2.liveAt later = fdt.liveAt later) ∧
    (∀ before t source ttl reservation admit_ behind,
      ops = before ++ (t, .register source ttl reservation admit_) :: behind →
      let stored : Fdt N := Fdt.run limits .new before
      let next := stored.apply limits t (.register source ttl reservation admit_)
      ∀ registered, (stored.register source ttl t limits reservation admit_).1.1 = .ok registered →
        Fdt.Untouched limits source next behind →
        ∀ now, t ≤ now → (∀ op ∈ behind, op.1 ≤ now) →
          (fdt.isRegisteredAt source now = true ↔
            now ≤ t + fromSecs (ttl.toNat + graceSeconds))) ∧
    (∀ now room, N ≤ room → ∃ entries, fdt.wireEntries now room = .ok entries) ∧
    (∀ now room entries, fdt.wireEntries now room = .ok entries →
      entries = (fdt.liveAt now).map (·.wireEntryAt now) ∧
      ∀ address, (∃ entry ∈ entries, entry.address = address) ↔
        fdt.isRegisteredAt address now = true) ∧
    ∀ before behind, ops = before ++ behind →
      let earlier : Fdt N := Fdt.run limits .new before
      ∀ address, Fdt.Untouched limits address earlier behind →
        ∀ now later, now ≤ later → (∀ op ∈ behind, op.1 ≤ later) →
          ∀ room entries, earlier.wireEntries now room = .ok entries →
          ∀ room' entries', fdt.wireEntries later room' = .ok entries' →
          ∀ entry ∈ entries, entry.address = address →
          ∀ last ∈ entries', last.address = address → last.remaining ≤ entry.remaining := by
  intro fdt
  have hordered : ∀ ops, (Fdt.run limits .new ops : Fdt N).addresses.Nodup :=
    fun ops => (Fdt.runSince_ordered limits ops).2.distinct
  have hall := (Fdt.runSince_ordered (N := N) limits ops).2
  refine ⟨⟨hall.fits, hall.distinct, hall.order⟩, Fdt.run_quotas limits ops, ?_, ?_,
    fun now room hroom => Fdt.wireEntries_fits (hall.fits.trans hroom), ?_, ?_⟩
  · intro source ttl now reservation admit_ answer
    obtain ⟨hsources, htotal, hnew⟩ := fdt.register_quotas source ttl now limits reservation admit_
    exact ⟨hsources, htotal, hnew, fun refused h later hle => Fdt.register_refused h hle⟩
  · rintro before t source ttl reservation admit_ behind hops stored next registered hok huntouched
      now - hle
    have hfdt : fdt = Fdt.run limits next behind := by
      show Fdt.run limits .new ops = _
      rw [hops]
      exact List.foldl_append
    have hdistinct := hall.distinct
    have hrun := hfdt
    rw [show Fdt.run limits .new ops = fdt from rfl, hfdt] at hdistinct
    rw [hrun]
    exact Fdt.registered_iff hok huntouched hdistinct hle
  · intro now room entries hentries
    refine ⟨Fdt.wireEntries_ok hentries, fun address => ?_⟩
    rw [Fdt.isRegisteredAt_iff hall.distinct, Fdt.wireEntries_ok hentries]
    constructor
    · rintro ⟨entry, hentry, rfl⟩
      obtain ⟨live, hlive, rfl⟩ := List.mem_map.mp hentry
      exact ⟨live, hlive, rfl⟩
    · rintro ⟨live, hlive, rfl⟩
      exact ⟨_, List.mem_map_of_mem hlive, rfl⟩
  · rintro before behind hops earlier address huntouched now later hnow hle room entries hentries
      room' entries' hentries' entry hentry haddress last hlast hsame
    have hfdt : fdt = Fdt.run limits earlier behind := by
      show Fdt.run limits .new ops = _
      rw [hops]
      exact List.foldl_append
    have hdistinct := hall.distinct
    rw [show Fdt.run limits .new ops = fdt from rfl, hfdt] at hdistinct
    rw [Fdt.wireEntries_ok hentries] at hentry
    rw [Fdt.wireEntries_ok hentries', hfdt] at hlast
    obtain ⟨live, hlive, rfl⟩ := List.mem_map.mp hentry
    obtain ⟨lastLive, hlastLive, rfl⟩ := List.mem_map.mp hlast
    exact Fdt.remaining_mono huntouched (hordered before) hdistinct hnow hle hlive haddress hlastLive
      hsame

end RustyBacnet.Bip
