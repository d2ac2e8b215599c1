import RustyBacnet.Router.Announced

/-!
# Reserved networks in an announcement

An announcement and the same one without its reserved networks.

1. What one claim of a message changes, no later one undoes (`Apart`), so a message changes nothing
   exactly when none of its claims would on its own (`heedAll_agree_iff`).
2. `Undisturbed` reads off the table before the message whether a reserved network ends its learning
   ahead of a claim that counts (`Reading.compare`).
3. An Initialize-Routing-Table-Ack is read without its reserved networks; an I-Am-Router is not
   (`reserved_networks_inert`).
-/

namespace RustyBacnet.Router

open Swaps SortedArray

namespace Table

variable {R H : ℕ} {table next base : Table R H} {network other : UInt16} {at_ : Arrival}
  {options : Options} {claimed more : List UInt16}

/-! ## A change of one message is not undone by it -/

/-- What keeps a network apart from what `base` has of it: no further claim changes it, or it has
come to the arrival port. -/
def Apart (base table : Table R H) (at_ : Arrival) (timing : Timing) (claimed : List UInt16)
    (network : UInt16) : Prop :=
  table.claimsLeft at_ timing claimed network = 0 ∧
      (table.entry network ≠ base.entry network ∨ table.unheld network ≠ base.unheld network) ∨
    ∃ slot, table.entry network = some slot ∧ slot.route.direct = false ∧
      slot.route.port = at_.port ∧ ∀ old, base.entry network = some old → old.route.port ≠ at_.port

/-- The same routes, pending claims and hold-down records. -/
def Agree (a b : Table R H) : Prop := a.slots = b.slots ∧ a.holds = b.holds

theorem Unchanged.agree (h : Unchanged table next) : Agree next table := ⟨h.slots, h.holds⟩

variable {timing : Timing}

theorem Apart.not_agree (h : Apart base table at_ timing claimed network) : ¬Agree table base := by
  rintro ⟨hslots, hholds⟩
  have hentry : table.entry network = base.entry network := by
    unfold Table.entry
    rw [hslots]
  rcases h with ⟨-, hne | hne⟩ | ⟨slot, hslot, -, hport, hbase⟩
  · exact hne hentry
  · refine hne ?_
    unfold unheld
    rw [hholds]
  · exact hbase slot (hentry ▸ hslot) hport

theorem Apart.congr (h : Apart base table at_ timing claimed network)
    (hentry : next.entry network = table.entry network)
    (hheld : next.unheld network = table.unheld network)
    (hleft : next.claimsLeft at_ timing more network = table.claimsLeft at_ timing claimed network)
    : Apart base next at_ timing more network := by
  unfold Apart
  rw [hentry, hheld, hleft]
  exact h

theorem Apart.unchanged (h : Apart base table at_ timing claimed network)
    (hsame : Unchanged table next) : Apart base next at_ timing claimed network := by
  refine h.congr (congrFun hsame.entry network) ?_ (hsame.claimsLeft timing network)
  unfold unheld
  rw [hsame.holds]

theorem claimedSlot_port {slot : Slot} (hslot : table.entry network = some slot)
    (hlearned : slot.route.direct = false) (hport : slot.route.port = at_.port) (timing : Timing) :
    (table.claimedSlot at_ timing network).route.direct = false ∧
      (table.claimedSlot at_ timing network).route.port = at_.port := by
  unfold claimedSlot
  rw [hslot]
  simp [waits, hport, claimedRoute, hlearned, Route.learned, Route.used]

section Heed

variable (hv : table.Valid) (hclaimed : ClaimedOf table claimed) (hcap : options.cap R ≤ R)

include hv hclaimed hcap

/-- Each claim that its network still takes keeps it apart from what it was. -/
theorem apart_of_heed (husable : isReserved network = false)
    (h : table.admits options network = true)
    (hleft : table.claimsLeft at_ options.timing claimed network ≠ 0) {more : List UInt16}
    (hheed : table.heed at_ options claimed network = (next, more, true)) :
    Apart table next at_ options.timing more network := by
  have hroom := room_of_admits hv hcap h
  obtain ⟨next', more', hheed', hheeded⟩ := @heed_heeded _ _ _ _ at_ _ _ hv hclaimed hcap husable h
  obtain ⟨rfl, rfl⟩ : next = next' ∧ more = more' := by
    rw [hheed] at hheed'
    cases hheed'
    exact ⟨rfl, rfl⟩
  rcases heed_claimed at_ hv hclaimed h with
    ⟨hmoving, hmem, -⟩ | ⟨hfresh, more', hput, -, -, -⟩
  · exact absurd (claimsLeft_moved hmoving hmem options.timing) hleft
  have hnext : next = table.putClaim at_ options network := by
    rw [hheed] at hput
    exact congrArg Prod.fst hput
  have hentry : next.entry network = some (table.claimedSlot at_ options.timing network) :=
    hnext ▸ putClaim_entry_self hv husable hroom
  have hone := hheeded.left network
  rw [if_pos rfl] at hone
  unfold claimsLeft at hleft
  cases hslot : table.entry network with
  | none =>
    refine .inl ⟨hone.trans ?_, .inl ?_⟩
    · unfold claimsLeft
      rw [hslot]
      rfl
    · rw [hentry, hslot]
      exact Option.some_ne_none _
  | some slot =>
    rw [hslot] at hleft
    dsimp only at hleft
    by_cases hdirect : slot.route.direct = true
    · rw [if_pos hdirect] at hleft
      exact absurd rfl hleft
    rw [if_neg hdirect] at hleft
    by_cases hport : slot.route.port = at_.port
    · rw [if_pos hport] at hleft
      refine .inl ⟨hone.trans ?_, ?_⟩
      · unfold claimsLeft
        rw [hslot]
        dsimp only
        rw [if_neg hdirect, if_pos hport]
        split_ifs <;> rfl
      · have hnot : ¬(slot = refreshed slot at_ ∧ table.unheld network = true) := fun hboth =>
          hleft (if_pos hboth)
        by_cases hself : slot = refreshed slot at_
        · right
          rw [hnext, putClaim_unheld hv husable hroom, hslot]
          simp [waits, hport, Bool.eq_false_iff.mpr fun hheld => hnot ⟨hself, hheld⟩]
        · left
          rw [hentry, hslot]
          intro hsame
          refine hself ((Option.some.inj hsame).symm.trans ?_)
          unfold claimedSlot refreshed
          rw [hslot]
          simp [waits, hport, claimedRoute, hdirect, entry_network hslot]
    · rw [if_neg hport] at hleft
      have hmoving : table.moving at_ network = true := by simp [moving, hslot, hdirect, hport]
      have hmem : network ∉ claimed := fun hmem => hfresh ⟨hmoving, hmem⟩
      rw [if_neg hmem] at hleft
      by_cases hwaits : table.waits slot at_ options.timing = true
      · refine .inl ⟨hone.trans ?_, .inl ?_⟩
        · unfold claimsLeft
          rw [hslot]
          simp [hdirect, hport, hmem, hwaits]
        · -- A claim pending for this port at this time would be live, and the route would move.
          rw [hentry, hslot]
          intro hsame
          have hself := Option.some.inj hsame
          unfold claimedSlot at hself
          rw [hslot] at hself
          dsimp only at hself
          rw [if_pos hwaits] at hself
          have hpending : slot.pending = some ⟨at_.port, at_.now⟩ := by rw [← hself]
          simp [waits, moves, hpending, Pending.expired] at hwaits
      · right
        refine ⟨_, hentry, ?_⟩
        have hclaimedSlot : table.claimedSlot at_ options.timing network
            = ⟨network, claimedRoute (some slot.route) at_.port at_.sourceMac at_.now, none⟩ := by
          unfold claimedSlot
          rw [hslot]
          dsimp only
          rw [if_neg hwaits]
        rw [hclaimedSlot]
        refine ⟨?_, ?_, ?_⟩
        · simp [claimedRoute, hdirect, hport, Route.learned, Route.changedPort]
        · simp [claimedRoute, hdirect, hport, Route.learned, Route.changedPort]
        · intro old hold
          rw [hslot] at hold
          cases hold
          exact hport

/-- No claim brings a network back. -/
theorem Apart.heed (hapart : Apart base table at_ options.timing claimed network) (m : UInt16) :
    Apart base (table.heed at_ options claimed m).1 at_ options.timing
      (table.heed at_ options claimed m).2.1 network := by
  cases hadmits : table.admits options m with
  | false =>
    rw [heed_ended hadmits]
    have hsame : Unchanged table table.recordLearningCap := .count table _
    exact hapart.unchanged hsame
  | true =>
    cases husable : isReserved m with
    | true =>
      rw [heed_reserved hv husable hadmits]
      exact hapart
    | false =>
      obtain ⟨next, more, hheed, hheeded⟩ :=
        @heed_heeded _ _ _ _ at_ _ _ hv hclaimed hcap husable hadmits
      rw [hheed]
      by_cases hm : network = m
      · subst hm
        rcases hapart with ⟨hleft, hne⟩ | ⟨slot, hslot, hlearned, hport, hbase⟩
        · obtain ⟨next', hidle, hsame⟩ := heed_idle hv hclaimed hcap husable hadmits hleft
          rw [hheed] at hidle
          cases hidle
          exact Apart.unchanged (.inl ⟨hleft, hne⟩) hsame
        · rcases heed_claimed at_ hv hclaimed hadmits with
            ⟨-, -, hput⟩ | ⟨-, more', hput, -, -, -⟩
          · rw [hheed] at hput
            cases hput
            exact .inr ⟨slot, hslot, hlearned, hport, hbase⟩
          · rw [hheed] at hput
            cases hput
            obtain ⟨hdirect', hport'⟩ := claimedSlot_port hslot hlearned hport options.timing
            exact .inr ⟨_, putClaim_entry_self hv husable (room_of_admits hv hcap hadmits),
              hdirect', hport', hbase⟩
      · obtain ⟨hentry, hheld⟩ := hheeded.others network hm
        refine hapart.congr hentry hheld ?_
        rw [hheeded.left, if_neg hm, Nat.sub_zero]

end Heed

theorem heed_kept (hv : table.Valid) (hclaimed : ClaimedOf table claimed)
    (hcap : options.cap R ≤ R) (at_ : Arrival) (network : UInt16) :
    (table.heed at_ options claimed network).1.Valid ∧
      ClaimedOf (table.heed at_ options claimed network).1
        (table.heed at_ options claimed network).2.1 := by
  cases hadmits : table.admits options network with
  | false =>
    rw [heed_ended hadmits]
    have hsame : Unchanged table table.recordLearningCap := .count table _
    exact ⟨hsame.valid hv, hsame.claimedOf hclaimed⟩
  | true =>
    cases husable : isReserved network with
    | true =>
      rw [heed_reserved hv husable hadmits]
      exact ⟨hv, hclaimed⟩
    | false =>
      obtain ⟨next, more, hheed, hheeded⟩ :=
        @heed_heeded _ _ _ _ at_ _ _ hv hclaimed hcap husable hadmits
      rw [hheed]
      exact ⟨hheeded.valid, hheeded.claimedOf⟩

theorem Apart.heedAll (hcap : options.cap R ≤ R) (networks : List UInt16) :
    ∀ {table : Table R H} {claimed : List UInt16}, table.Valid → ClaimedOf table claimed →
      Apart base table at_ options.timing claimed network →
      ¬Agree (table.heedAll at_ options networks claimed) base := by
  induction networks with
  | nil => exact fun _ _ hapart => hapart.not_agree
  | cons m rest ih =>
    intro table claimed hv hclaimed hapart
    obtain ⟨hvalid, hclaimed'⟩ := heed_kept hv hclaimed hcap at_ m
    have hapart' := hapart.heed hv hclaimed hcap m
    unfold Table.heedAll
    generalize table.heed at_ options claimed m = heeded at hvalid hclaimed' hapart' ⊢
    obtain ⟨next, more, _ | _⟩ := heeded
    · exact hapart'.not_agree
    · exact ih hvalid hclaimed' hapart'

/-- A message leaves what the table stores exactly when each network it comes to is reserved or
takes no more claims. -/
theorem heedAll_agree_iff (hcap : options.cap R ≤ R) (networks : List UInt16) :
    ∀ {table : Table R H} {claimed : List UInt16}, table.Valid → ClaimedOf table claimed →
      (Agree (table.heedAll at_ options networks claimed) table ↔
        ∀ m ∈ networks.takeWhile (table.admits options),
          isReserved m = true ∨ table.claimsLeft at_ options.timing claimed m = 0) := by
  induction networks with
  | nil => exact fun _ _ => ⟨fun _ m hm => absurd hm List.not_mem_nil, fun _ => ⟨rfl, rfl⟩⟩
  | cons m rest ih =>
    intro table claimed hv hclaimed
    unfold heedAll
    cases hadmits : table.admits options m with
    | false =>
      rw [heed_ended hadmits, List.takeWhile_cons, hadmits]
      exact ⟨fun _ m hm => absurd hm List.not_mem_nil, fun _ => ⟨rfl, rfl⟩⟩
    | true =>
      rw [List.takeWhile_cons, hadmits, if_pos rfl, List.forall_mem_cons]
      cases husable : isReserved m with
      | true =>
        rw [heed_reserved hv husable hadmits]
        exact (ih hv hclaimed).trans (and_iff_right (.inl rfl)).symm
      | false =>
        by_cases hleft : table.claimsLeft at_ options.timing claimed m = 0
        · obtain ⟨next, hheed, hsame⟩ := heed_idle hv hclaimed hcap husable hadmits hleft
          rw [hheed]
          have hnext := @ih next claimed (hsame.valid hv) (hsame.claimedOf hclaimed)
          have hadmits' : next.admits options = table.admits options :=
            funext (hsame.admits hv.inOrder options)
          rw [hadmits'] at hnext
          simp only [hsame.claimsLeft] at hnext
          have hagree : Agree (next.heedAll at_ options rest claimed) table ↔
              Agree (next.heedAll at_ options rest claimed) next := by
            unfold Agree
            rw [hsame.slots, hsame.holds]
          rw [hagree, hnext]
          exact (and_iff_right (.inr hleft)).symm
        · obtain ⟨next, more, hheed, hheeded⟩ :=
            @heed_heeded _ _ _ _ at_ _ _ hv hclaimed hcap husable hadmits
          rw [hheed]
          have hapart := apart_of_heed hv hclaimed hcap husable hadmits hleft hheed
          refine iff_of_false (hapart.heedAll hcap rest hheeded.valid hheeded.claimedOf) ?_
          rintro ⟨hreserved | hidle, -⟩
          · cases hreserved
          · exact hleft hidle

/-! ## With and without the reserved networks -/

def usable (network : UInt16) : Bool := !isReserved network

/-- Whether no reserved network of a list is come to at the route cap before a claim that would
still change the table. `known` is what is stored, `heeded` what the message has claimed so far. -/
def Undisturbed (table : Table R H) (at_ : Arrival) (options : Options) :
    List UInt16 → List UInt16 → List UInt16 → Prop
  | _, _, [] => True
  | known, heeded, network :: rest =>
    if network ∈ known then Undisturbed table at_ options known (network :: heeded) rest
    else if options.cap R ≤ known.length then
      isReserved network = true →
        ∀ m ∈ (rest.filter usable).takeWhile fun m => decide (m ∈ known),
          table.claimsLeft at_ options.timing [] m ≤ heeded.count m
    else if isReserved network then Undisturbed table at_ options known heeded rest
    else Undisturbed table at_ options (network :: known) (network :: heeded) rest

/-- How far a message has come: what is stored by now and what each network still takes. -/
structure Reading (base : Table R H) (at_ : Arrival) (options : Options)
    (known heeded : List UInt16) (table : Table R H) (claimed : List UInt16) : Prop where
  valid : table.Valid
  claimedOf : ClaimedOf table claimed
  nodup : known.Nodup
  known : ∀ m, m ∈ known ↔ (table.entry m).isSome = true
  left : ∀ m, table.claimsLeft at_ options.timing claimed m
    = base.claimsLeft at_ options.timing [] m - heeded.count m

variable {known heeded : List UInt16}

theorem Reading.start (hv : table.Valid) (at_ : Arrival) (options : Options) :
    Reading table at_ options table.networks [] table [] where
  valid := hv
  claimedOf := ⟨sorted_nil, fun m hm => absurd hm List.not_mem_nil⟩
  nodup := networks_nodup hv.inOrder
  known := fun m => mem_networks hv.inOrder
  left := fun m => by rw [List.count_nil, Nat.sub_zero]

theorem Reading.length (h : Reading base at_ options known heeded table claimed) :
    known.length = table.len := by
  have hperm : known.Perm table.networks := by
    rw [List.perm_ext_iff_of_nodup h.nodup (networks_nodup h.valid.inOrder)]
    intro m
    rw [h.known, mem_networks h.valid.inOrder]
  rw [hperm.length_eq, networks, List.length_map, len]

theorem Reading.admits (h : Reading base at_ options known heeded table claimed)
    (network : UInt16) : table.admits options network = true ↔
      (options.cap R ≤ known.length → network ∈ known) := by
  rw [admits_eq h.valid.inOrder, h.length, h.known]

theorem Reading.usable_of_known (h : Reading base at_ options known heeded table claimed)
    (hmem : network ∈ known) : isReserved network = false := by
  obtain ⟨slot, hslot⟩ := Option.isSome_iff_exists.mp ((h.known network).mp hmem)
  rw [← entry_network hslot]
  exact (h.valid.entry hslot).usable

theorem Reading.heed (h : Reading base at_ options known heeded table claimed)
    (hheeded : Heeded table at_ options claimed network next more) {known' : List UInt16}
    (hnodup : known'.Nodup) (hknown : ∀ m, m ∈ known' ↔ m ∈ known ∨ m = network) :
    Reading base at_ options known' (network :: heeded) next more where
  valid := hheeded.valid
  claimedOf := hheeded.claimedOf
  nodup := hnodup
  known := fun m => by rw [hknown, hheeded.stored, h.known]
  left := by
    intro m
    rw [hheeded.left, h.left, List.count_cons, Nat.sub_sub]
    by_cases hm : m = network
    · simp [hm]
    · simp [hm, Ne.symm hm]

/-- The rest of a list without its reserved networks, at the route cap, changes nothing exactly when
the networks come to take no more claims. -/
theorem Reading.agree_iff (h : Reading base at_ options known heeded table claimed)
    (hcap : options.cap R ≤ R) (hmet : options.cap R ≤ known.length) (rest : List UInt16) :
    Agree (table.heedAll at_ options (rest.filter usable) claimed) table ↔
      ∀ m ∈ (rest.filter usable).takeWhile fun m => decide (m ∈ known),
        base.claimsLeft at_ options.timing [] m ≤ heeded.count m := by
  have hadmits : table.admits options = fun m => decide (m ∈ known) := by
    funext m
    rw [Bool.eq_iff_iff, h.admits, decide_eq_true_iff]
    exact ⟨fun hm => hm hmet, fun hm _ => hm⟩
  rw [heedAll_agree_iff hcap _ h.valid h.claimedOf, hadmits]
  refine forall₂_congr fun m hm => ?_
  have husable : isReserved m = false := by
    have hfilter := (List.takeWhile_sublist _).subset hm
    simpa [usable] using (List.mem_filter.mp hfilter).2
  rw [husable, h.left, Nat.sub_eq_zero_iff_le]
  simp

theorem Reading.compare (hcap : options.cap R ≤ R) (networks : List UInt16) :
    ∀ {known heeded : List UInt16} {table : Table R H} {claimed : List UInt16},
      Reading base at_ options known heeded table claimed →
      (Agree (table.heedAll at_ options networks claimed)
          (table.heedAll at_ options (networks.filter usable) claimed) ↔
        base.Undisturbed at_ options known heeded networks) := by
  induction networks with
  | nil => exact fun _ => ⟨fun _ => trivial, fun _ => ⟨rfl, rfl⟩⟩
  | cons network rest ih =>
    intro known heeded table claimed h
    unfold Undisturbed
    by_cases hknown : network ∈ known
    · -- A stored network is read alike by both lists.
      rw [if_pos hknown]
      have husable := h.usable_of_known hknown
      obtain ⟨next, more, hheed, hheeded⟩ := @heed_heeded _ _ _ _ at_ _ _ h.valid h.claimedOf hcap
        husable ((h.admits network).mpr fun _ => hknown)
      have hnext := h.heed hheeded h.nodup fun m =>
        ⟨.inl, fun hm => hm.elim id fun heq => heq ▸ hknown⟩
      rw [List.filter_cons_of_pos (by simp [usable, husable])]
      unfold heedAll
      rw [hheed]
      exact ih hnext
    rw [if_neg hknown]
    by_cases hmet : options.cap R ≤ known.length
    · -- Any other network ends the learning at the cap, in the list it stands in.
      rw [if_pos hmet]
      have hended : table.admits options network = false := by
        rw [← Bool.not_eq_true, h.admits]
        exact fun hadmits => hknown (hadmits hmet)
      have hcut : table.heedAll at_ options (network :: rest) claimed
          = table.recordLearningCap := by
        unfold heedAll
        rw [heed_ended hended]
      rw [hcut]
      cases hreserved : isReserved network with
      | false =>
        rw [List.filter_cons_of_pos (by simp [usable, hreserved])]
        have hcut' : table.heedAll at_ options (network :: rest.filter usable) claimed
            = table.recordLearningCap := by
          unfold heedAll
          rw [heed_ended hended]
        rw [hcut']
        exact ⟨fun _ hfalse => absurd hfalse Bool.false_ne_true, fun _ => ⟨rfl, rfl⟩⟩
      | true =>
        rw [List.filter_cons_of_neg (by simp [usable, hreserved]), ← h.agree_iff hcap hmet rest]
        exact ⟨fun hagree _ => ⟨hagree.1.symm, hagree.2.symm⟩,
          fun hagree => ⟨(hagree rfl).1.symm, (hagree rfl).2.symm⟩⟩
    rw [if_neg hmet]
    have hadmits := (h.admits network).mpr fun hle => absurd hle hmet
    cases hreserved : isReserved network with
    | true =>
      rw [if_pos rfl, List.filter_cons_of_neg (by simp [usable, hreserved])]
      refine Iff.trans ?_ (ih h)
      have hskip : table.heedAll at_ options (network :: rest) claimed
          = table.heedAll at_ options rest claimed := by
        conv_lhs => unfold heedAll
        rw [heed_reserved h.valid hreserved hadmits]
      rw [hskip]
    | false =>
      rw [if_neg Bool.false_ne_true, List.filter_cons_of_pos (by simp [usable, hreserved])]
      obtain ⟨next, more, hheed, hheeded⟩ :=
        @heed_heeded _ _ _ _ at_ _ _ h.valid h.claimedOf hcap hreserved hadmits
      have hnext := h.heed hheeded (List.nodup_cons.mpr ⟨hknown, h.nodup⟩) fun m => by
        rw [List.mem_cons, or_comm]
      unfold heedAll
      rw [hheed]
      exact ih hnext

/-- Whether a message leaves what the table stores: each network it comes to is reserved or takes no
claims. -/
def Idle (table : Table R H) (at_ : Arrival) (options : Options) (networks : List UInt16) : Prop :=
  ∀ m ∈ networks.takeWhile (table.admits options),
    isReserved m = true ∨ table.claimsLeft at_ options.timing [] m = 0

theorem agree_congr {a a' b b' : Table R H} (ha : Agree a a') (hb : Agree b b') :
    Agree a b ↔ Agree a' b' := by
  unfold Agree
  rw [ha.1, ha.2, hb.1, hb.2]

/-- A message that is learned and one that is not leave the same exactly when the first is idle. -/
theorem heedAll_idle_iff {table : Table R H} {options : Options} (hv : table.Valid)
    (hcap : options.cap R ≤ R) (at_ : Arrival) (networks : List UInt16) :
    Agree (table.heedAll at_ options networks []) table ↔ Idle table at_ options networks :=
  heedAll_agree_iff hcap networks hv
    ⟨SortedArray.sorted_nil, fun _ hm => absurd hm List.not_mem_nil⟩

end Table

/-! ## The two announcements -/

namespace Storage

open Table

variable {R H D B : ℕ} {G : Type} {s t : Storage R H D B G}

theorem unchanged_of_trail (h : Trail (fun _ => False) s t) : Unchanged s.table t.table := by
  have hrun : ∀ {table next : Table R H} {notes later : List Note},
      TableRun (fun _ => False) table notes next later → Unchanged table next := by
    intro table next notes later hrun
    induction hrun with
    | refl => exact .refl _
    | plain _ _ ih => exact ih
    | count _ change ih => exact ih.trans (.count _ change)
    | op _ hnone _ => exact hnone.elim
  exact hrun h

@[simp] theorem table_repeatedRelay (s : Storage R H D B G) (at_ : Arrival) (npdu : Npdu)
    (kind : NetworkMessageType) (options : Options) :
    (s.repeatedRelay at_ npdu kind options).1.table = s.table := by
  unfold repeatedRelay
  split
  · rfl
  · dsimp only
    split_ifs
    · rfl
    · rfl

/-- Whether the host allows an I-Am-Router and it repeats no recent one. -/
def announces (s : Storage R H D B G) (at_ : Arrival) (npdu : Npdu) (options : Options)
    (host : Claim → Bool) (list : Networks) : Bool :=
  host (claimOf at_ npdu .iAm (.networks list)) &&
    !(s.repeatedRelay at_ npdu .iAmRouterToNetwork options).2

variable {host : Claim → Bool} {npdu : Npdu}

/-- What an I-Am-Router leaves of the table. -/
theorem iAmRouter_table (s : Storage R H D B G) {at_ : Arrival} {options : Options}
    {list : Networks} (hparse : Networks.parse npdu.payload = .ok list) (hsome : list.iter ≠ []) :
    Agree (s.iAmRouter at_ npdu options host).1.table
      (if s.announces at_ npdu options host list then s.table.heedAll at_ options list.iter []
      else s.table) := by
  have hempty : (!list.isEmpty) = true := by
    unfold Networks.isEmpty
    rw [Bool.not_eq_true', List.isEmpty_eq_false_iff]
    intro hnil
    apply hsome
    unfold Networks.iter
    rw [hnil]
    rfl
  have hread : (Networks.parse npdu.payload).toOption.filter (fun list => !list.isEmpty)
      = some list := by
    rw [hparse]
    exact Option.filter_some_pos hempty
  unfold iAmRouter announces authorized
  rw [hread]
  dsimp only
  cases hhost : host (claimOf at_ npdu .iAm (.networks list)) with
  | false => exact ⟨rfl, rfl⟩
  | true =>
    rw [if_pos rfl, Bool.true_and]
    have htable := table_repeatedRelay s at_ npdu .iAmRouterToNetwork options
    generalize s.repeatedRelay at_ npdu .iAmRouterToNetwork options = repeated at htable ⊢
    obtain ⟨t, _ | _⟩ := repeated
    · have hsame := unchanged_of_trail
        (trail_relayed (A := fun _ => False) (t.claimAll at_ .iAm options list.iter []) at_
          (.message .iAmRouterToNetwork npdu.payload) .iAmRouterToNetwork)
      rw [table_claimAll] at hsame
      rw [← htable]
      exact hsame.agree
    · rw [← htable]
      exact ⟨rfl, rfl⟩

/-- The networks an Initialize-Routing-Table-Ack claims. -/
def ackNetworks (entries : RoutingEntries) : List UInt16 :=
  (entries.iter.map RoutingEntry.network).filter usable

theorem routingTableAck_table (s : Storage R H D B G) {at_ : Arrival} {options : Options}
    {entries : RoutingEntries} (hparse : RoutingEntries.parse npdu.payload = .ok entries) :
    (s.routingTableAck at_ npdu options host).1.table
      = if host (claimOf at_ npdu .initAck (.entries entries)) then
          s.table.heedAll at_ options (ackNetworks entries) []
        else s.table := by
  have hsome : ¬npdu.payload.isEmpty = true := by
    rw [List.isEmpty_iff]
    intro hnil
    rw [hnil] at hparse
    cases hparse
  have husable : usable = fun network => network != 0 && network != globalNetwork := by
    funext network
    unfold usable isReserved
    rw [Bool.not_or]
    rfl
  unfold routingTableAck authorized ackNetworks
  rw [if_neg hsome, hparse, husable]
  dsimp only
  split_ifs
  · exact table_claimAll at_ .initAck options _ s []
  · rfl

end Storage

namespace Engine

open Storage Table

variable {R H D B : ℕ} {G : Type} [GroupClassifier G] {router : Engine R H D B G}

theorem step_options (router : Engine R H D B G) (call : Call) :
    (router.step call).1.options = router.options := by
  cases call with
  | announcePort port =>
    unfold step
    dsimp only
    split_ifs
    · rfl
    · rfl
  | egressBacklog port backlog now =>
    unfold step
    dsimp only
    split
    · rfl
    · rfl
  | _ => rfl

theorem Reachable.cap (h : Reachable router) : router.options.cap R ≤ R := by
  induction h with
  | @new capacity scratch ports options now router hnew =>
    obtain ⟨hconfig, table, -, rfl⟩ := new_cases hnew
    unfold Options.cap
    cases hroute : options.routeCap with
    | none => exact Nat.le_refl R
    | some cap =>
      by_contra hover
      have hany : (options.routeCap.any fun cap => decide (R < cap)) = true := by
        rw [hroute, Option.any_some, decide_eq_true_iff]
        exact Nat.lt_of_not_le hover
      unfold checkConfig at hconfig
      by_cases hnone : ports = []
      · rw [if_pos hnone] at hconfig
        cases hconfig
      by_cases hmany : min capacity 255 < ports.length
      · rw [if_neg hnone, if_pos hmany] at hconfig
        cases hconfig
      rw [if_neg hnone, if_neg hmany, if_pos hany] at hconfig
      split at hconfig
      · cases hconfig
      · cases hconfig
  | @step router _ call ih =>
    rw [step_options]
    exact ih

theorem handle_iAm (s : Storage R H D B G) (at_ : Arrival) (npdu : Npdu) (options : Options)
    (host : Claim → Bool) :
    s.handleMessage at_ npdu .iAmRouterToNetwork options host
      = s.iAmRouter at_ npdu options host := by
  unfold handleMessage
  rw [if_neg (by decide), if_pos rfl]

theorem handle_ack (s : Storage R H D B G) (at_ : Arrival) (npdu : Npdu) (options : Options)
    (host : Claim → Bool) :
    s.handleMessage at_ npdu .initializeRoutingTableAck options host
      = s.routingTableAck at_ npdu options host := by
  unfold handleMessage
  rw [if_neg (by decide), if_neg (by decide), if_neg (by decide), if_neg (by decide),
    if_neg (by decide), if_neg (by decide), if_neg (by decide), if_pos rfl]

/-- An announcement with and without its reserved networks leaves the same routes, pending claims
and hold-down records exactly when no reserved network of an I-Am-Router ends the learning at the
route cap ahead of a claim that would change something; where the host or the duplicate check treats
the two apart, when the one that is learned changes nothing. -/
theorem reserved_networks_inert (router : Engine R H D B G) (hreach : router.Reachable)
    (at_ : Arrival) (npdu npdu' : Npdu) (host : Claim → Bool) :
    (∀ list list' : Networks, Networks.parse npdu.payload = .ok list →
      Networks.parse npdu'.payload = .ok list' → list'.iter = list.iter.filter usable →
      list'.iter ≠ [] →
      (Agree
          (router.storage.handleMessage at_ npdu .iAmRouterToNetwork router.options host).1.table
          (router.storage.handleMessage at_ npdu' .iAmRouterToNetwork router.options host).1.table ↔
        match router.storage.announces at_ npdu router.options host list,
          router.storage.announces at_ npdu' router.options host list' with
        | true, true => router.storage.table.Undisturbed at_ router.options
            router.storage.table.networks [] list.iter
        | true, false => Idle router.storage.table at_ router.options list.iter
        | false, true => Idle router.storage.table at_ router.options list'.iter
        | false, false => True)) ∧
    ∀ entries entries' : RoutingEntries, RoutingEntries.parse npdu.payload = .ok entries →
      RoutingEntries.parse npdu'.payload = .ok entries' →
      entries'.iter = entries.iter.filter (fun entry => usable entry.network) →
      (Agree
          (router.storage.handleMessage at_ npdu .initializeRoutingTableAck
            router.options host).1.table
          (router.storage.handleMessage at_ npdu' .initializeRoutingTableAck
            router.options host).1.table ↔
        (host (claimOf at_ npdu .initAck (.entries entries))
            ≠ host (claimOf at_ npdu' .initAck (.entries entries')) →
          Idle router.storage.table at_ router.options (ackNetworks entries))) := by
  have hv := hreach.valid
  have hcap := hreach.cap
  constructor
  · intro list list' hparse hparse' hkept hsome
    have hlist : list.iter ≠ [] := by
      intro hnil
      rw [hkept, hnil] at hsome
      exact hsome rfl
    rw [handle_iAm, handle_iAm,
      agree_congr (iAmRouter_table router.storage hparse hlist)
        (iAmRouter_table router.storage hparse' hsome)]
    cases router.storage.announces at_ npdu router.options host list with
    | true =>
      cases router.storage.announces at_ npdu' router.options host list' with
      | true =>
        rw [if_pos rfl, if_pos rfl, hkept]
        exact (Reading.start hv at_ router.options).compare hcap list.iter
      | false => exact heedAll_idle_iff hv hcap at_ list.iter
    | false =>
      cases router.storage.announces at_ npdu' router.options host list' with
      | true =>
        refine Iff.trans ?_ (heedAll_idle_iff hv hcap at_ list'.iter)
        exact ⟨fun h => ⟨h.1.symm, h.2.symm⟩, fun h => ⟨h.1.symm, h.2.symm⟩⟩
      | false => exact ⟨fun _ => trivial, fun _ => ⟨rfl, rfl⟩⟩
  · intro entries entries' hparse hparse' hkept
    have hnetworks : ackNetworks entries' = ackNetworks entries := by
      have hmap : entries'.iter.map RoutingEntry.network = ackNetworks entries := by
        rw [hkept, ackNetworks, List.filter_map]
        rfl
      rw [ackNetworks, hmap, ackNetworks, List.filter_filter]
      simp
    rw [handle_ack, handle_ack, routingTableAck_table _ hparse, routingTableAck_table _ hparse',
      hnetworks]
    have hidle := heedAll_idle_iff hv hcap at_ (ackNetworks entries)
    cases host (claimOf at_ npdu .initAck (.entries entries)) with
    | true =>
      cases host (claimOf at_ npdu' .initAck (.entries entries')) with
      | true => exact ⟨fun _ h => absurd rfl h, fun _ => ⟨rfl, rfl⟩⟩
      | false => exact hidle.trans ⟨fun h _ => h, fun h => h (by decide)⟩
    | false =>
      cases host (claimOf at_ npdu' .initAck (.entries entries')) with
      | true =>
        refine Iff.trans ⟨fun h => ⟨h.1.symm, h.2.symm⟩, fun h => ⟨h.1.symm, h.2.symm⟩⟩
          (hidle.trans ⟨fun h _ => h, fun h => h (by decide)⟩)
      | false => exact ⟨fun _ h => absurd rfl h, fun _ => ⟨rfl, rfl⟩⟩

theorem bench_capped :
    checkConfig 4 4 2 64 benchPorts { Options.standard with routeCap := some 3 } = none := by decide

theorem seven_le : ([7] : List UInt8).length ≤ maxMacLen := by decide

/-- The router with `benchPorts` and room for one learned route, which it has for network 5. -/
def cappedRouter : Engine 4 2 2 4 Groups :=
  ((bench { Options.standard with routeCap := some 3 } bench_capped).step
    (.table (.addLearned 5 ⟨0⟩ ⟨[7], seven_le⟩ 0))).1

def fromSeven (now : Instant) : Arrival := ⟨⟨0⟩, 1, [7], ⟨[7], seven_le⟩, true, now⟩

theorem reachable_capped : cappedRouter.Reachable :=
  .step (.new (new_bench _ _)) _

/-- With network 0 listed ahead of it, network 5 is not refreshed. -/
theorem reserved_network_ends_learning :
    cappedRouter.Reachable ∧
      Networks.iter ⟨[0, 5]⟩ = (Networks.iter ⟨[0, 0, 0, 5]⟩).filter usable ∧
      ¬Agree
        (cappedRouter.storage.handleMessage (fromSeven 10)
          (.message .iAmRouterToNetwork [0, 0, 0, 5]) .iAmRouterToNetwork cappedRouter.options
          fun _ => true).1.table
        (cappedRouter.storage.handleMessage (fromSeven 10)
          (.message .iAmRouterToNetwork [0, 5]) .iAmRouterToNetwork cappedRouter.options
          fun _ => true).1.table := by
  refine ⟨reachable_capped, by decide, ?_⟩
  unfold Agree
  decide +kernel

/-- Listed behind network 5, network 0 does no harm. -/
theorem reserved_networks_inert_capped :
    Agree
      (cappedRouter.storage.handleMessage (fromSeven 10)
        (.message .iAmRouterToNetwork [0, 5, 0, 0]) .iAmRouterToNetwork cappedRouter.options
        fun _ => true).1.table
      (cappedRouter.storage.handleMessage (fromSeven 10)
        (.message .iAmRouterToNetwork [0, 5]) .iAmRouterToNetwork cappedRouter.options
        fun _ => true).1.table := by
  have h := ((reserved_networks_inert cappedRouter reachable_capped (fromSeven 10)
    (.message .iAmRouterToNetwork [0, 5, 0, 0]) (.message .iAmRouterToNetwork [0, 5])
    fun _ => true).1 ⟨[0, 5, 0, 0]⟩ ⟨[0, 5]⟩ (by decide) (by decide) (by decide) (by decide)).mpr
  apply h
  have hheard : ∀ payload list, cappedRouter.storage.announces (fromSeven 10)
      (.message .iAmRouterToNetwork payload) cappedRouter.options (fun _ => true) list = true := by
    intro payload list
    rfl
  have hnetworks : cappedRouter.storage.table.networks = [1, 2, 5] := by decide +kernel
  rw [hheard, hheard, hnetworks]
  show Undisturbed _ _ _ [1, 2, 5] [] [5, 0]
  unfold Undisturbed
  rw [if_pos (by decide)]
  unfold Undisturbed
  rw [if_neg (by decide), if_pos (by decide)]
  intro _ m hm
  exact absurd hm List.not_mem_nil

end Engine

end RustyBacnet.Router
