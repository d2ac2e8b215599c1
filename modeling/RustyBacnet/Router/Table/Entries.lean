import RustyBacnet.Router.Table.Holds

/-!
# The table as a map

`entry` is what the table stores for a network. On a sorted table each operation that edits the
array is an update of that map and keeps the table sorted; the operations of `Table` are built of
`put`, `remove`, `modifySlot`, `mapSlots` and `purgeStale`, so these five have all the proofs about
the array.
-/

namespace RustyBacnet.Router.Table

open Swaps SortedArray

variable {R H : ℕ} {table : Table R H} {network : UInt16}

/-- The slots are in strictly increasing order of their networks. -/
def InOrder (table : Table R H) : Prop := Sorted Slot.key table.slots

def entry (table : Table R H) (network : UInt16) : Option Slot :=
  SortedArray.entry Slot.key table.slots network.toNat

variable {slot : Slot}

theorem entry_network (h : table.entry network = some slot) : slot.network = network :=
  UInt16.toNat_inj.mp (mem_of_entry h).2

theorem entry_mem (h : table.entry network = some slot) : slot ∈ table.slots :=
  (mem_of_entry h).1

theorem InOrder.entry_of_mem (hs : table.InOrder) (h : slot ∈ table.slots) :
    table.entry slot.network = some slot :=
  Sorted.entry_of_mem hs h

theorem find_cases (hs : table.InOrder) (network : UInt16) :
    (∃ front slot back, table.slots = front ++ slot :: back ∧ slot.network = network
      ∧ Around Slot.key network.toNat front back ∧ table.find network = .ok front.length
      ∧ table.entry network = some slot)
    ∨ ∃ front back, table.slots = front ++ back ∧ Around Slot.key network.toNat front back
      ∧ table.find network = .error front.length ∧ table.entry network = none := by
  rcases search_cases hs network.toNat with
    ⟨front, slot, back, hslots, hkey, haround, hfind⟩ | ⟨front, back, hslots, haround, hfind⟩
  · left
    refine ⟨front, slot, back, hslots, UInt16.toNat_inj.mp hkey, haround, hfind, ?_⟩
    rw [entry, hslots]
    exact haround.entry_self hkey
  · right
    refine ⟨front, back, hslots, haround, hfind, ?_⟩
    rw [entry, hslots]
    exact haround.entry_none

theorem toNat_eq_iff {m n : UInt16} : m.toNat = n.toNat ↔ m = n := UInt16.toNat_inj

theorem entry_around {front back : List Slot} {k : UInt16} (h : Around Slot.key k.toNat front back)
    (hk : slot.network = k) (m : UInt16) :
    SortedArray.entry Slot.key (front ++ slot :: back) m.toNat
      = if m = k then some slot else SortedArray.entry Slot.key (front ++ back) m.toNat := by
  rw [h.entry_insert (show slot.key = k.toNat by rw [← hk]; rfl)]
  simp only [toNat_eq_iff]

theorem slotOf_eq (hs : table.InOrder) (network : UInt16) :
    table.slotOf network = table.entry network := by
  unfold slotOf
  rcases find_cases hs network with
    ⟨front, slot, back, hslots, -, -, hfind, hentry⟩ | ⟨front, back, -, -, hfind, hentry⟩
  · rw [hfind, hentry, hslots]
    simp
  · rw [hfind, hentry]

theorem lookup_eq (hs : table.InOrder) (network : UInt16) :
    table.lookup network = (table.entry network).map Slot.route := by
  rw [lookup, slotOf_eq hs]

/-! ## Storing -/

variable {route : Route}

theorem put_eq_true (hs : table.InOrder) (h : (table.put network route).2 = true) :
    (table.put network route).1.InOrder
      ∧ (table.put network route).1.entry
        = Function.update table.entry network (some ⟨network, route, none⟩)
      ∧ (table.len ≤ R → (table.put network route).1.len ≤ R) := by
  unfold put at h ⊢
  rcases find_cases hs network with
    ⟨front, slot, back, hslots, hnet, haround, hfind, -⟩ | ⟨front, back, hslots, haround, hfind, -⟩
  · rw [hfind]
    dsimp only
    have hset : table.slots.set front.length ⟨network, route, none⟩
        = front ++ ⟨network, route, none⟩ :: back := by
      rw [hslots, List.set_append_right _ _ (Nat.le_refl _), Nat.sub_self, List.set_cons_zero]
    rw [hset]
    have herased : Sorted Slot.key (front ++ back) := by
      rw [InOrder, hslots] at hs
      exact hs.erase
    refine ⟨haround.sorted_insert rfl herased, ?_, ?_⟩
    · funext m
      rw [Function.update_apply]
      show SortedArray.entry _ _ _ = _
      rw [entry_around haround rfl]
      split_ifs with hm
      · rfl
      · rw [entry, hslots, entry_around haround hnet, if_neg hm]
    · intro hle
      unfold len at hle ⊢
      rw [hslots] at hle
      simpa using hle
  · rw [hfind] at h ⊢
    split_ifs at h ⊢ with hfull
    dsimp only
    have hsink : sink (table.slots ++ [⟨network, route, none⟩]) front.length
        = front ++ ⟨network, route, none⟩ :: back := by
      rw [hslots, sink_eq]
    rw [hsink]
    refine ⟨haround.sorted_insert rfl (by rw [InOrder, hslots] at hs; exact hs), ?_, ?_⟩
    · funext m
      rw [Function.update_apply]
      show SortedArray.entry _ _ _ = _
      rw [entry_around haround rfl, entry, hslots]
    · intro hle
      have hlt : table.slots.length < R := Nat.lt_of_le_of_ne hle hfull
      unfold len
      rw [hslots, List.length_append] at hlt
      simp only [List.length_append, List.length_cons]
      omega

/-- A network that is stored, or room for it, is what `put` needs. -/
theorem put_snd (hs : table.InOrder) (route : Route) :
    (table.put network route).2 = ((table.entry network).isSome || table.len != R) := by
  unfold put
  rcases find_cases hs network with
    ⟨front, slot, back, -, -, -, hfind, hentry⟩ | ⟨front, back, -, -, hfind, hentry⟩
  · rw [hfind, hentry]
    rfl
  · rw [hfind, hentry]
    split_ifs with hfull
    · simp [hfull]
    · simp [hfull]

theorem put_eq_false (h : (table.put network route).2 = false) :
    (table.put network route).1 = table := by
  unfold put at h ⊢
  split at h
  · cases h
  · split_ifs at h ⊢
    rfl

@[simp] theorem put_holds (route : Route) : (table.put network route).1.holds = table.holds := by
  unfold put
  split
  · rfl
  · split_ifs <;> rfl

@[simp] theorem put_convergence (route : Route) :
    (table.put network route).1.convergence = table.convergence := by
  unfold put
  split
  · rfl
  · split_ifs <;> rfl

@[simp] theorem put_counters (route : Route) :
    (table.put network route).1.counters = table.counters := by
  unfold put
  split
  · rfl
  · split_ifs <;> rfl

theorem remove_eq (hs : table.InOrder) (network : UInt16) :
    (table.remove network).2 = (table.entry network).map Slot.route
      ∧ (table.remove network).1.InOrder
      ∧ (table.remove network).1.entry = Function.update table.entry network none
      ∧ (table.remove network).1.len ≤ table.len := by
  unfold remove
  rcases find_cases hs network with
    ⟨front, slot, back, hslots, hnet, haround, hfind, hentry⟩ |
      ⟨front, back, -, -, hfind, hentry⟩
  · rw [hfind, hentry]
    dsimp only
    have hfloat : (float table.slots front.length).dropLast = front ++ back := by
      rw [hslots, float_eq, List.dropLast_concat]
    rw [hfloat]
    have herased : Sorted Slot.key (front ++ back) := by
      rw [InOrder, hslots] at hs
      exact hs.erase
    refine ⟨by rw [lookup_eq hs, hentry], herased, ?_, ?_⟩
    · funext m
      rw [Function.update_apply]
      show SortedArray.entry _ _ _ = _
      split_ifs with hm
      · rw [hm]
        exact haround.entry_none
      · rw [entry, hslots, entry_around haround hnet, if_neg hm]
    · unfold len
      rw [hslots]
      simp
  · rw [hfind, hentry]
    refine ⟨rfl, hs, ?_, Nat.le_refl _⟩
    rw [← hentry, Function.update_eq_self]

/-! ## Changing slots in place -/

section Change

variable {change : Slot → Slot} (hkey : ∀ slot, (change slot).network = slot.network)

include hkey

theorem key_change (slot : Slot) : (change slot).key = slot.key := congrArg UInt16.toNat (hkey slot)

theorem modifySlot_eq (hs : table.InOrder) (network : UInt16) :
    (table.modifySlot network change).InOrder
      ∧ (table.modifySlot network change).entry
        = Function.update table.entry network ((table.entry network).map change)
      ∧ (table.modifySlot network change).len = table.len := by
  unfold modifySlot
  rcases find_cases hs network with
    ⟨front, slot, back, hslots, hnet, haround, hfind, hentry⟩ |
      ⟨front, back, -, -, hfind, hentry⟩
  · rw [hfind, hentry]
    dsimp only
    have hmodify : table.slots.modify front.length change = front ++ change slot :: back := by
      rw [hslots, List.modify_eq_set_getElem?]
      simp
    rw [hmodify]
    have herased : Sorted Slot.key (front ++ back) := by
      rw [InOrder, hslots] at hs
      exact hs.erase
    have hchanged : (change slot).network = network := by rw [hkey, hnet]
    refine ⟨haround.sorted_insert (by rw [Slot.key, hchanged]) herased, ?_, ?_⟩
    · funext m
      rw [Function.update_apply]
      show SortedArray.entry _ _ _ = _
      rw [entry_around haround hchanged]
      split_ifs with hm
      · rfl
      · rw [entry, hslots, entry_around haround hnet, if_neg hm]
    · unfold len
      rw [hslots]
      simp
  · rw [hfind, hentry]
    refine ⟨hs, ?_, rfl⟩
    rw [Option.map_none, ← hentry, Function.update_eq_self]

theorem mapSlots_eq (hs : table.InOrder) :
    (table.mapSlots change).InOrder
      ∧ (table.mapSlots change).entry = fun m => (table.entry m).map change :=
  ⟨hs.map (key_change hkey), funext fun _ => entry_map (key_change hkey) _ _⟩

end Change

@[simp] theorem modifySlot_holds (change : Slot → Slot) :
    (table.modifySlot network change).holds = table.holds := by
  unfold modifySlot
  split <;> rfl

@[simp] theorem modifySlot_counters (change : Slot → Slot) :
    (table.modifySlot network change).counters = table.counters := by
  unfold modifySlot
  split <;> rfl

@[simp] theorem modifySlot_convergence (change : Slot → Slot) :
    (table.modifySlot network change).convergence = table.convergence := by
  unfold modifySlot
  split <;> rfl

/-! ## Forgetting holds and purging -/

theorem forget_eq (holds : List Hold) (network : UInt16) :
    forget holds network = holds.filter fun hold => hold.network != network :=
  compact_eq_filter _ _

theorem foldl_forget (networks : List UInt16) (holds : List Hold) :
    networks.foldl forget holds = holds.filter fun hold => !networks.contains hold.network := by
  induction networks generalizing holds with
  | nil => simp
  | cons network rest ih =>
    rw [List.foldl_cons, ih, forget_eq, List.filter_filter]
    congr 1
    funext hold
    simp only [List.contains_cons, Bool.not_or, bne]
    exact Bool.and_comm _ _

theorem purgeStale_eq (hs : table.InOrder) (now : Instant) (maxAge : Duration) :
    (table.purgeStale now maxAge).1.InOrder
      ∧ (table.purgeStale now maxAge).1.entry
        = (fun m => (table.entry m).filter fun slot => !slot.route.stale now maxAge)
      ∧ (table.purgeStale now maxAge).1.len ≤ table.len := by
  unfold purgeStale
  rw [compact_eq_filter]
  refine ⟨hs.filter _, ?_, List.length_filter_le _ _⟩
  funext m
  exact hs.entry_filter _ _

theorem purgeStale_holds (table : Table R H) (now : Instant) (maxAge : Duration) :
    (table.purgeStale now maxAge).1.holds
      = table.holds.filter fun hold => !(table.purgeStale now maxAge).2.contains hold.network :=
  foldl_forget _ _

theorem InOrder.mem_purged (hs : table.InOrder) {now : Instant} {maxAge : Duration} :
    network ∈ (table.purgeStale now maxAge).2
      ↔ ∃ slot, table.entry network = some slot ∧ slot.route.stale now maxAge = true := by
  unfold purgeStale
  simp only [List.mem_map, List.mem_filter]
  constructor
  · rintro ⟨slot, ⟨hmem, hstale⟩, rfl⟩
    exact ⟨slot, hs.entry_of_mem hmem, hstale⟩
  · rintro ⟨slot, hentry, hstale⟩
    exact ⟨slot, ⟨entry_mem hentry, hstale⟩, entry_network hentry⟩

end RustyBacnet.Router.Table
