import RustyBacnet.Router.Trail

/-!
# The networks one announcement names

An I-Am-Router and an Initialize-Routing-Table-Ack claim their networks one by one. On the table
this is `heedAll`, which has no part of the router but the table, the networks of the message that
were claimed, the arrival and the options.

1. A claim for a reserved network changes nothing (`heed_reserved`); at the route cap it ends the
   message's learning (`heed_ended`).
2. A claim for any other network writes `claimedSlot` there, unless the message has moved the
   network already (`heed_claimed`).
3. `claimsLeft` counts the claims a network still takes until they change nothing: each claim lowers
   the count of its own network by one (`claimsLeft_heed`).
-/

namespace RustyBacnet.Router

open Swaps SortedArray

namespace Table

variable {R H : ℕ} {table next : Table R H} {network : UInt16}

/-- Whether the route cap lets a claim through: there is room, or the network is stored. -/
def admits (table : Table R H) (options : Options) (network : UInt16) : Bool :=
  !(options.cap R ≤ table.len && (table.lookup network).isNone)

def putClaim (table : Table R H) (at_ : Arrival) (options : Options) (network : UInt16) :
    Table R H :=
  let (table, learned) := table.applyClaim network at_.port at_.sourceMac at_.now options.timing
  if learned.isApplied then table.recordLearned else table

def heed (table : Table R H) (at_ : Arrival) (options : Options) (claimed : List UInt16)
    (network : UInt16) : Table R H × List UInt16 × Bool :=
  if !table.admits options network then (table.recordLearningCap, claimed, false)
  else
    let moving := (table.lookup network).any fun route => !route.direct && route.port != at_.port
    if moving then
      match insertClaimed R claimed network with
      | (claimed, false) => (table, claimed, true)
      | (claimed, true) => (table.putClaim at_ options network, claimed, true)
    else (table.putClaim at_ options network, claimed, true)

def heedAll (table : Table R H) (at_ : Arrival) (options : Options) :
    List UInt16 → List UInt16 → Table R H
  | [], _ => table
  | network :: rest, claimed =>
    match table.heed at_ options claimed network with
    | (table, claimed, true) => table.heedAll at_ options rest claimed
    | (table, _, false) => table

end Table

namespace Storage

variable {R H D B : ℕ} {G : Type} (s : Storage R H D B G)

theorem table_reportLearned (network : UInt16) (port : PortId) (controlClass : ControlClass)
    (learned : Learned) :
    (s.reportLearned network port controlClass learned).table
      = if learned.isApplied then s.table.recordLearned else s.table := by
  unfold reportLearned
  cases learned with
  | moved origin flaps =>
    split_ifs <;> rfl
  | _ => rfl

theorem table_applyClaim (at_ : Arrival) (network : UInt16) (controlClass : ControlClass)
    (options : Options) :
    (s.applyClaim at_ network controlClass options).table
      = s.table.putClaim at_ options network := by
  unfold applyClaim
  rw [table_reportLearned]
  rfl

/-- A claim does to the table what `heed` says. -/
theorem table_claim (at_ : Arrival) (network : UInt16) (claimed : List UInt16)
    (controlClass : ControlClass) (options : Options) :
    ((s.claim at_ network claimed controlClass options).1.table,
        (s.claim at_ network claimed controlClass options).2)
      = s.table.heed at_ options claimed network := by
  have hadmits : (s.table.admits options network = false) ↔
      options.cap R ≤ s.table.len ∧ s.table.lookup network = none := by
    simp [Table.admits]
  unfold claim Table.heed
  by_cases hcap : options.cap R ≤ s.table.len ∧ s.table.lookup network = none
  · rw [if_pos hcap, hadmits.mpr hcap]
    rfl
  · have hadmitted : s.table.admits options network = true := by
      rw [← Bool.not_eq_false, hadmits]
      exact hcap
    rw [if_neg hcap, hadmitted, Bool.not_true, if_neg Bool.false_ne_true]
    by_cases hmoving : ((s.table.lookup network).any fun route =>
        !route.direct && route.port != at_.port) = true
    · rw [if_pos hmoving, if_pos hmoving]
      rcases insertClaimed R claimed network with ⟨claimed', _ | _⟩
      · rfl
      · rw [table_applyClaim]
    · rw [if_neg hmoving, if_neg hmoving]
      rw [table_applyClaim]

theorem table_claimAll (at_ : Arrival) (controlClass : ControlClass) (options : Options)
    (networks : List UInt16) : ∀ (s : Storage R H D B G) (claimed : List UInt16),
      (s.claimAll at_ controlClass options networks claimed).table
        = s.table.heedAll at_ options networks claimed := by
  induction networks with
  | nil => exact fun s claimed => rfl
  | cons network rest ih =>
    intro s claimed
    have hclaim := s.table_claim at_ network claimed controlClass options
    unfold claimAll Table.heedAll
    rcases hclaimed : s.claim at_ network claimed controlClass options with ⟨s', claimed', more⟩
    rw [hclaimed] at hclaim
    rw [← hclaim]
    cases more with
    | false => rfl
    | true => exact ih s' claimed'

end Storage

namespace Table

variable {R H : ℕ} {table next : Table R H} {network other : UInt16} {at_ : Arrival}
  {options : Options} {claimed : List UInt16} {port : PortId} {nextHop : Mac} {now : Instant}

/-! ## What a claim writes -/

def claimedRoute (existing : Option Route) (port : PortId) (nextHop : Mac) (now : Instant) :
    Route :=
  match existing with
  | none => (Route.learned port nextHop now).used none
  | some route =>
    if route.direct then route
    else if route.port = port then (Route.learned port nextHop now).used route.lastUsed
    else (Route.learned port nextHop now).changedPort (flapsAfter route now) now

/-- Whether a claim that moves the route need not wait for a second one. -/
def moves (table : Table R H) (slot : Slot) (at_ : Arrival) (timing : Timing) : Bool :=
  table.convergence == .standard ||
    slot.pending.any fun pending => !pending.expired at_.now timing && pending.port == at_.port

/-- Whether a claim for a stored network waits for a second one. -/
def waits (table : Table R H) (slot : Slot) (at_ : Arrival) (timing : Timing) : Bool :=
  !slot.route.direct && slot.route.port != at_.port && !table.moves slot at_ timing

def claimedSlot (table : Table R H) (at_ : Arrival) (timing : Timing) (network : UInt16) : Slot :=
  match table.entry network with
  | some slot =>
    if table.waits slot at_ timing then { slot with pending := some ⟨at_.port, at_.now⟩ }
    else ⟨network, claimedRoute (some slot.route) at_.port at_.sourceMac at_.now, none⟩
  | none => ⟨network, claimedRoute none at_.port at_.sourceMac at_.now, none⟩

/-- `put` behind a `forget`, when there is room. -/
theorem put_entry (hs : table.InOrder) (hroom : table.entry network = none → table.len < R)
    (holds : List Hold) (route : Route) :
    ((table.withHolds holds).put network route).1.entry
        = Function.update table.entry network (some ⟨network, route, none⟩) ∧
      ((table.withHolds holds).put network route).1.holds = holds := by
  have hs' : (table.withHolds holds).InOrder := hs
  have hput : ((table.withHolds holds).put network route).2 = true := by
    rw [put_snd hs', Bool.or_eq_true, bne_iff_ne]
    by_cases hentry : table.entry network = none
    · exact .inr (Nat.ne_of_lt (hroom hentry))
    · exact .inl (Option.isSome_iff_ne_none.mpr hentry)
  exact ⟨(put_eq_true hs' hput).2.1, put_holds route⟩

theorem learn_entry (hv : table.Valid) (husable : isReserved network = false)
    (hroom : table.entry network = none → table.len < R) (hpending : ∀ slot,
      table.entry network = some slot → slot.route.direct = true → slot.pending = none)
    (port : PortId) (nextHop : Mac) (now : Instant) :
    (table.learn network port nextHop now).1.entry
        = Function.update table.entry network (some ⟨network,
          claimedRoute ((table.entry network).map Slot.route) port nextHop now, none⟩) ∧
      (table.learn network port nextHop now).1.holds = forget table.holds network := by
  have hreserved : ¬isReserved network = true := by
    rw [husable]
    exact Bool.false_ne_true
  have hadd : ∀ lastUsed,
      ¬((table.entry network).map Slot.route).any Route.direct = true →
      (((table.entry network).map Slot.route).filter fun route => route.port == port).bind
        Route.lastUsed = lastUsed →
      (table.learnInPlace network port nextHop now).1.entry
          = Function.update table.entry network
            (some ⟨network, (Route.learned port nextHop now).used lastUsed, none⟩) ∧
        (table.learnInPlace network port nextHop now).1.holds = forget table.holds network := by
    intro lastUsed hdirect hused
    unfold learnInPlace addLearned
    rw [if_neg hreserved, lookup_eq hv.inOrder, if_neg hdirect, hused]
    exact put_entry hv.inOrder hroom _ _
  unfold learn
  rw [if_neg hreserved, lookup_eq hv.inOrder]
  cases hentry : table.entry network with
  | none =>
    rw [hentry] at hadd
    exact hadd none Bool.false_ne_true rfl
  | some slot =>
    rw [hentry] at hadd
    dsimp only [Option.map_some, claimedRoute]
    by_cases hdirect : slot.route.direct = true
    · rw [if_pos hdirect, if_pos hdirect]
      have hself : (⟨network, slot.route, none⟩ : Slot) = slot := by
        rw [← entry_network hentry, ← hpending slot hentry hdirect]
      rw [hself, ← hentry, Function.update_eq_self]
      refine ⟨rfl, (hv.forget_eq_self fun other hother => ?_).symm⟩
      rw [hentry] at hother
      cases hother
      exact hdirect
    · rw [if_neg hdirect, if_neg hdirect]
      by_cases hport : slot.route.port = port
      · rw [if_neg (not_not_intro hport), if_pos hport]
        refine hadd slot.route.lastUsed hdirect ?_
        rw [Option.map_some, Option.filter_some, if_pos (beq_iff_eq.mpr hport), Option.bind_some]
      · rw [if_pos hport, if_neg hport]
        exact @put_entry R H (table.count _) network hv.inOrder hroom _ _

/-- A claim in the table's own terms. -/
theorem putClaim_entry (hv : table.Valid) (husable : isReserved network = false)
    (hroom : table.entry network = none → table.len < R) :
    (table.putClaim at_ options network).entry
        = Function.update table.entry network
          (some (table.claimedSlot at_ options.timing network)) ∧
      (table.putClaim at_ options network).holds
        = if (table.entry network).any fun slot => table.waits slot at_ options.timing then
            table.holds
          else forget table.holds network := by
  have hcounted : (table.putClaim at_ options network).entry
        = (table.applyClaim network at_.port at_.sourceMac at_.now options.timing).1.entry ∧
      (table.putClaim at_ options network).holds
        = (table.applyClaim network at_.port at_.sourceMac at_.now options.timing).1.holds := by
    unfold putClaim
    dsimp only
    split_ifs
    · exact ⟨rfl, rfl⟩
    · exact ⟨rfl, rfl⟩
  rw [hcounted.1, hcounted.2]
  unfold applyClaim claimedSlot
  rw [slotOf_eq hv.inOrder]
  cases hslot : table.entry network with
  | none =>
    have h := learn_entry hv husable hroom (by rw [hslot]; exact nofun) at_.port at_.sourceMac
      at_.now
    rw [hslot] at h
    exact h
  | some slot =>
    dsimp only
    obtain ⟨-, htaken, -⟩ := setPending_eq hv.inOrder network none
    have hchanged := changed_takePending hv network
    have hlearn : ∀ taken : Table R H, Unchanged (table.setPending network none) taken →
        (taken.learn network at_.port at_.sourceMac at_.now).1.entry
            = Function.update table.entry network (some ⟨network,
              claimedRoute (some slot.route) at_.port at_.sourceMac at_.now, none⟩) ∧
          (taken.learn network at_.port at_.sourceMac at_.now).1.holds
            = forget table.holds network := by
      intro taken htake
      have hentry : taken.entry network = some { slot with pending := none } := by
        rw [htake.entry, htaken, hslot, Function.update_self, Option.map_some]
      obtain ⟨hlearned, hholds⟩ := learn_entry (htake.valid (hchanged.valid hv)) husable
        (by rw [hentry]; exact nofun) (by rw [hentry]; rintro _ ⟨⟩ -; rfl)
        at_.port at_.sourceMac at_.now
      rw [hlearned, hholds, hentry, htake.entry, htaken, Function.update_idem, htake.holds,
        hchanged.holds]
      exact ⟨rfl, rfl⟩
    have hexpired := Unchanged.countExpired (table.setPending network none)
      (slot.pending.any fun pending => pending.expired at_.now options.timing)
    have hany : ((slot.pending.filter fun pending => !pending.expired at_.now options.timing).any
        fun pending => pending.port == at_.port) = slot.pending.any fun pending =>
          !pending.expired at_.now options.timing && pending.port == at_.port := by
      cases slot.pending with
      | none => rfl
      | some pending =>
        rw [Option.filter_some]
        cases hold : pending.expired at_.now options.timing
        all_goals simp [hold]
    rw [hany]
    generalize (table.setPending network none).countExpired
      (slot.pending.any fun pending => pending.expired at_.now options.timing) = counted
      at hexpired ⊢
    have hconv : (table.setPending network none).convergence = table.convergence :=
      hchanged.convergence
    by_cases hstandard : (table.setPending network none).convergence = .standard
    · have hwaits : ¬table.waits slot at_ options.timing = true := by
        rw [hconv] at hstandard
        simp [waits, moves, hstandard]
      rw [if_pos hstandard, Option.any_some, if_neg hwaits, if_neg hwaits]
      exact hlearn _ (.refl _)
    · rw [if_neg hstandard]
      have hmoves : table.moves slot at_ options.timing = slot.pending.any fun pending =>
          !pending.expired at_.now options.timing && pending.port == at_.port := by
        rw [hconv] at hstandard
        simp [moves, hstandard]
      by_cases hmove : (!slot.route.direct && slot.route.port != at_.port) = true
      · rw [if_pos hmove]
        unfold waits
        rw [Option.any_some, hmove, Bool.true_and, hmoves]
        by_cases hlive : (slot.pending.any fun pending =>
            !pending.expired at_.now options.timing && pending.port == at_.port) = true
        · rw [if_pos hlive, hlive]
          exact hlearn _ (hexpired.trans (.count _ _))
        · rw [if_neg hlive, Bool.eq_false_iff.mpr hlive]
          obtain ⟨-, hheld, -⟩ := setPending_eq (hexpired.inOrder hchanged.inOrder) network
            (some ⟨at_.port, at_.now⟩)
          constructor
          · show (counted.setPending network (some ⟨at_.port, at_.now⟩)).entry = _
            rw [hheld, hexpired.entry, htaken, hslot, Function.update_self, Function.update_idem,
              Option.map_some, Option.map_some]
            rfl
          · show (counted.setPending network (some ⟨at_.port, at_.now⟩)).holds = table.holds
            exact (modifySlot_holds _).trans (hexpired.holds.trans hchanged.holds)
      · rw [if_neg hmove, Option.any_some]
        unfold waits
        rw [Bool.eq_false_iff.mpr hmove, Bool.false_and]
        exact hlearn _ hexpired

/-! ## The networks a message has moved -/

theorem insertClaimed_cases (hs : Sorted UInt16.toNat claimed)
    (hroom : network ∉ claimed → claimed.length < R) :
    network ∈ claimed ∧ insertClaimed R claimed network = (claimed, false) ∨
      network ∉ claimed ∧ ∃ more, insertClaimed R claimed network = (more, true) ∧
        Sorted UInt16.toNat more ∧ ∀ m, m ∈ more ↔ m ∈ claimed ∨ m = network := by
  unfold insertClaimed
  rcases search_cases hs network.toNat with
    ⟨front, found, back, hsplit, hkey, -, hsearch⟩ | ⟨front, back, hsplit, haround, hsearch⟩
  · left
    rw [hsearch]
    refine ⟨?_, rfl⟩
    rw [hsplit, ← UInt16.toNat_inj.mp hkey]
    simp
  · right
    have hnot : network ∉ claimed := by
      rw [hsplit, List.mem_append]
      rintro (hmem | hmem)
      · exact lt_irrefl _ (haround.before network hmem)
      · exact lt_irrefl _ (haround.after network hmem)
    rw [hsearch]
    dsimp only
    rw [if_pos (hroom hnot), hsplit, sink_eq]
    refine ⟨hsplit ▸ hnot, _, rfl, haround.sorted_insert rfl (hsplit ▸ hs), fun m => ?_⟩
    simp only [List.mem_append, List.mem_cons]
    tauto

/-- The networks a message has moved are in order and stored. -/
structure ClaimedOf (table : Table R H) (claimed : List UInt16) : Prop where
  sorted : Sorted UInt16.toNat claimed
  stored : ∀ m ∈ claimed, (table.entry m).isSome = true

theorem mem_networks (hs : table.InOrder) :
    network ∈ table.networks ↔ (table.entry network).isSome = true := by
  unfold networks
  rw [List.mem_map, Option.isSome_iff_exists]
  constructor
  · rintro ⟨slot, hslot, rfl⟩
    exact ⟨slot, hs.entry_of_mem hslot⟩
  · rintro ⟨slot, hslot⟩
    exact ⟨slot, entry_mem hslot, entry_network hslot⟩

theorem networks_nodup (hs : table.InOrder) : table.networks.Nodup := by
  refine List.pairwise_map.mpr (List.Pairwise.imp ?_ hs)
  intro a b hlt heq
  exact Nat.ne_of_lt hlt (congrArg UInt16.toNat heq)

theorem ClaimedOf.room (hv : table.Valid) (h : ClaimedOf table claimed)
    (hstored : (table.entry network).isSome = true) (hnot : network ∉ claimed) :
    claimed.length < R := by
  have hnodup : (network :: claimed).Nodup := by
    refine List.nodup_cons.mpr ⟨hnot, h.sorted.imp ?_⟩
    rintro a b hlt rfl
    exact Nat.lt_irrefl _ hlt
  have hsubset : network :: claimed ⊆ table.networks := by
    intro m hm
    rw [mem_networks hv.inOrder]
    rcases List.mem_cons.mp hm with rfl | hm
    · exact hstored
    · exact h.stored m hm
  have hle := hnodup.length_le_of_subset hsubset
  rw [networks, List.length_map] at hle
  exact Nat.lt_of_lt_of_le hle hv.room

/-! ## One claim -/

def moving (table : Table R H) (at_ : Arrival) (network : UInt16) : Bool :=
  (table.entry network).any fun slot => !slot.route.direct && slot.route.port != at_.port

theorem admits_eq (hs : table.InOrder) (options : Options) (network : UInt16) :
    table.admits options network = true ↔
      (options.cap R ≤ table.len → (table.entry network).isSome = true) := by
  unfold admits
  rw [lookup_eq hs]
  cases table.entry network
  · simp
  · simp

theorem heed_ended (h : table.admits options network = false) :
    table.heed at_ options claimed network = (table.recordLearningCap, claimed, false) := by
  unfold heed
  rw [h]
  rfl

theorem lookup_any_eq (hs : table.InOrder) :
    ((table.lookup network).any fun route => !route.direct && route.port != at_.port)
      = table.moving at_ network := by
  rw [lookup_eq hs, moving]
  cases table.entry network
  · rfl
  · rfl

theorem heed_reserved (hv : table.Valid) (hreserved : isReserved network = true)
    (h : table.admits options network = true) :
    table.heed at_ options claimed network = (table, claimed, true) := by
  have hnone : table.entry network = none := by
    rw [← Option.not_isSome_iff_eq_none, Option.isSome_iff_exists]
    rintro ⟨slot, hslot⟩
    have husable := (hv.entry hslot).usable
    rw [entry_network hslot, hreserved] at husable
    cases husable
  have hmoving : table.moving at_ network = false := by
    rw [moving, hnone]
    rfl
  have hput : table.putClaim at_ options network = table := by
    unfold putClaim applyClaim
    rw [slotOf_eq hv.inOrder, hnone]
    unfold learn
    rw [if_pos hreserved]
    rfl
  unfold heed
  rw [h, Bool.not_true, if_neg Bool.false_ne_true]
  rw [lookup_any_eq hv.inOrder, hmoving, hput]
  rfl

/-- What a claim for another network does: it is written, unless the message has moved the network
already. -/
theorem heed_claimed (at_ : Arrival) (hv : table.Valid) (hclaimed : ClaimedOf table claimed)
    (h : table.admits options network = true) :
    table.moving at_ network = true ∧ network ∈ claimed ∧
        table.heed at_ options claimed network = (table, claimed, true) ∨
      ¬(table.moving at_ network = true ∧ network ∈ claimed) ∧ ∃ more,
        table.heed at_ options claimed network = (table.putClaim at_ options network, more, true) ∧
          Sorted UInt16.toNat more ∧
          (∀ m, m ∈ more ↔ m ∈ claimed ∨ m = network ∧ table.moving at_ network = true) ∧
          (table.moving at_ network = false → more = claimed) := by
  unfold heed
  rw [h, Bool.not_true, if_neg Bool.false_ne_true]
  rw [lookup_any_eq hv.inOrder]
  by_cases hmoving : table.moving at_ network = true
  · rw [if_pos hmoving]
    have hstored : (table.entry network).isSome = true := by
      unfold moving at hmoving
      cases hentry : table.entry network with
      | none =>
        rw [hentry] at hmoving
        cases hmoving
      | some slot => rfl
    rcases insertClaimed_cases hclaimed.sorted (hclaimed.room hv hstored) with
      ⟨hmem, hinsert⟩ | ⟨hmem, more, hinsert, hsorted, hmore⟩
    · rw [hinsert]
      exact .inl ⟨hmoving, hmem, rfl⟩
    · rw [hinsert]
      refine .inr ⟨fun hboth => hmem hboth.2, more, rfl, hsorted, fun m => ?_, fun hnot => ?_⟩
      · rw [hmore, hmoving]
        simp
      · rw [hmoving] at hnot
        cases hnot
  · rw [if_neg hmoving]
    refine .inr ⟨fun hboth => hmoving hboth.1, claimed, rfl, hclaimed.sorted, fun m => ?_,
      fun _ => rfl⟩
    simp [hmoving]

/-! ## How many claims a network takes -/

def refreshed (slot : Slot) (at_ : Arrival) : Slot :=
  ⟨slot.network, (Route.learned at_.port at_.sourceMac at_.now).used slot.route.lastUsed, none⟩

def unheld (table : Table R H) (network : UInt16) : Bool :=
  table.holds.all fun hold => hold.network != network

/-- The claims of one message that a network takes until they change nothing: one that moves the
route leaves its flaps to the next. -/
def claimsLeft (table : Table R H) (at_ : Arrival) (timing : Timing) (claimed : List UInt16)
    (network : UInt16) : ℕ :=
  match table.entry network with
  | none => 1
  | some slot =>
    if slot.route.direct then 0
    else if slot.route.port = at_.port then
      if slot = refreshed slot at_ ∧ table.unheld network then 0 else 1
    else if network ∈ claimed then 0
    else if table.waits slot at_ timing then 1
    else 2

theorem unheld_forget (holds : List Hold) (network other : UInt16) :
    (forget holds network).all (fun hold => hold.network != other)
      = (network == other || holds.all fun hold => hold.network != other) := by
  rw [forget_eq]
  rw [Bool.eq_iff_iff]
  simp only [List.all_eq_true, List.mem_filter, bne_iff_ne, Bool.or_eq_true, beq_iff_eq]
  constructor
  · intro h
    by_cases heq : network = other
    · exact .inl heq
    · refine .inr fun hold hhold hother => h hold ⟨hhold, fun hnet => ?_⟩ hother
      exact heq (hnet.symm.trans hother)
  · rintro (rfl | h) hold ⟨hhold, hne⟩
    · exact hne
    · exact h hold hhold

theorem forget_of_unheld (h : table.unheld network = true) :
    forget table.holds network = table.holds := by
  rw [forget_eq, List.filter_eq_self]
  exact List.all_eq_true.mp h

section Claim

variable (hv : table.Valid) (husable : isReserved network = false)
  (hroom : table.entry network = none → table.len < R)

include hv husable hroom

theorem putClaim_entry_self : (table.putClaim at_ options network).entry network
    = some (table.claimedSlot at_ options.timing network) := by
  rw [(putClaim_entry hv husable hroom).1, Function.update_self]

theorem putClaim_entry_of_ne (hne : other ≠ network) :
    (table.putClaim at_ options network).entry other = table.entry other := by
  rw [(putClaim_entry hv husable hroom).1, Function.update_of_ne hne]

theorem putClaim_unheld (other : UInt16) :
    (table.putClaim at_ options network).unheld other
      = (network == other && !((table.entry network).any fun slot =>
          table.waits slot at_ options.timing) || table.unheld other) := by
  unfold unheld
  rw [(putClaim_entry hv husable hroom).2]
  split_ifs with hwaits
  · rw [hwaits]
    simp
  · rw [unheld_forget, Bool.eq_false_iff.mpr hwaits]
    simp

end Claim

/-! ## A claim lowers the count of its network -/

variable {a b : Table R H}

theorem waits_congr (h : b.convergence = a.convergence) (slot : Slot) (at_ : Arrival)
    (timing : Timing) : b.waits slot at_ timing = a.waits slot at_ timing := by
  unfold waits moves
  rw [h]

/-- The count reads what is stored and recorded for its network, and whether it was moved. -/
theorem claimsLeft_congr (hentry : b.entry network = a.entry network)
    (hheld : b.unheld network = a.unheld network) (hconv : b.convergence = a.convergence)
    (hmore : network ∈ more ↔ network ∈ claimed) (timing : Timing) :
    b.claimsLeft at_ timing more network = a.claimsLeft at_ timing claimed network := by
  unfold claimsLeft
  rw [hentry, hheld]
  cases a.entry network with
  | none => rfl
  | some slot =>
    dsimp only
    rw [waits_congr hconv]
    simp only [hmore]

theorem Unchanged.claimsLeft (h : Unchanged table next) (timing : Timing) (network : UInt16) :
    next.claimsLeft at_ timing claimed network = table.claimsLeft at_ timing claimed network := by
  refine claimsLeft_congr (congrFun h.entry network) ?_ h.convergence Iff.rfl timing
  unfold unheld
  rw [h.holds]

theorem Unchanged.admits (h : Unchanged table next) (hs : table.InOrder) (options : Options)
    (network : UInt16) : next.admits options network = table.admits options network := by
  rw [Bool.eq_iff_iff, admits_eq hs, admits_eq (h.inOrder hs), h.len, h.entry]

theorem Unchanged.claimedOf (h : Unchanged table next) (hclaimed : ClaimedOf table claimed) :
    ClaimedOf next claimed := by
  refine ⟨hclaimed.sorted, ?_⟩
  rw [h.entry]
  exact hclaimed.stored

theorem unchanged_putClaim_count (table : Table R H) (at_ : Arrival) (options : Options)
    (network : UInt16) : Unchanged
      (table.applyClaim network at_.port at_.sourceMac at_.now options.timing).1
      (table.putClaim at_ options network) := by
  unfold putClaim
  dsimp only
  split_ifs
  · exact .count _ _
  · exact .refl _

theorem putClaim_kept (hv : table.Valid) :
    (table.putClaim at_ options network).Valid ∧
      (table.putClaim at_ options network).convergence = table.convergence := by
  have hcount := unchanged_putClaim_count table at_ options network
  suffices h : (table.applyClaim network at_.port at_.sourceMac at_.now options.timing).1.Valid ∧
      (table.applyClaim network at_.port at_.sourceMac at_.now options.timing).1.convergence
        = table.convergence from ⟨hcount.valid h.1, hcount.convergence.trans h.2⟩
  rcases applyClaim_cases hv network at_.port at_.sourceMac at_.now options.timing with
    ⟨-, hstored⟩ | ⟨-, hsame⟩ | ⟨-, hheld⟩
  · exact ⟨hstored.valid hv, hstored.convergence⟩
  · exact ⟨hsame.valid hv, hsame.convergence⟩
  · exact ⟨hheld.changed.valid hv, hheld.changed.convergence⟩

section Count

variable (hv : table.Valid) (husable : isReserved network = false)
  (hroom : table.entry network = none → table.len < R)

include hv husable hroom

/-- A claim lowers the count of its network by one. -/
theorem claimsLeft_putClaim (hmore : table.moving at_ network = true → network ∈ more)
    (hfresh : ¬(table.moving at_ network = true ∧ network ∈ claimed)) :
    (table.putClaim at_ options network).claimsLeft at_ options.timing more network
      = table.claimsLeft at_ options.timing claimed network - 1 := by
  have hentry := @putClaim_entry_self _ _ _ _ at_ options hv husable hroom
  have hheld := @putClaim_unheld _ _ _ _ at_ options hv husable hroom network
  have hleft : ∀ (p : Prop) [Decidable p], (if p then 0 else 1) - 1 = 0 := by
    intro p _
    split_ifs <;> rfl
  rw [beq_self_eq_true, Bool.true_and] at hheld
  unfold claimsLeft
  rw [hentry, hheld]
  unfold claimedSlot moving at *
  cases hslot : table.entry network with
  | none =>
    simp [claimedRoute, refreshed, Route.learned, Route.used]
  | some slot =>
    rw [hslot] at hmore hfresh
    rw [Option.any_some] at hmore hfresh ⊢
    dsimp only
    by_cases hdirect : slot.route.direct = true
    · have hwaits : table.waits slot at_ options.timing = false := by simp [waits, hdirect]
      rw [hwaits]
      simp [claimedRoute, hdirect]
    by_cases hport : slot.route.port = at_.port
    · have hwaits : table.waits slot at_ options.timing = false := by simp [waits, hport]
      rw [hwaits]
      simp only [claimedRoute, hdirect, hport, Route.learned, Route.used, refreshed]
      simp only [Bool.not_false, Bool.true_or, if_true, if_false, Bool.false_eq_true, and_self]
      exact (hleft _).symm
    have hmoving : (!slot.route.direct && slot.route.port != at_.port) = true := by
      simp [hdirect, hport]
    have hnot : network ∉ claimed := fun hmem => hfresh ⟨hmoving, hmem⟩
    have hmem := hmore hmoving
    by_cases hwaits : table.waits slot at_ options.timing = true
    · rw [hwaits]
      simp [hdirect, hport, hnot, hmem]
    · rw [Bool.eq_false_iff.mpr hwaits]
      simp [claimedRoute, hdirect, hport, hnot, Route.learned, Route.changedPort, refreshed,
        Route.used]

end Count

/-! ## One claim of a message -/

/-- What a claim that the route cap lets through leaves, for a network that is not reserved. -/
structure Heeded (table : Table R H) (at_ : Arrival) (options : Options) (claimed : List UInt16)
    (network : UInt16) (next : Table R H) (more : List UInt16) : Prop where
  valid : next.Valid
  convergence : next.convergence = table.convergence
  claimedOf : ClaimedOf next more
  left : ∀ m, next.claimsLeft at_ options.timing more m
    = table.claimsLeft at_ options.timing claimed m - if m = network then 1 else 0
  stored : ∀ m, (next.entry m).isSome = true ↔ (table.entry m).isSome = true ∨ m = network
  others : ∀ m, m ≠ network → next.entry m = table.entry m ∧ next.unheld m = table.unheld m

theorem room_of_admits (hv : table.Valid) (hcap : options.cap R ≤ R)
    (h : table.admits options network = true) : table.entry network = none → table.len < R := by
  intro hnone
  rw [admits_eq hv.inOrder, hnone] at h
  exact Nat.lt_of_lt_of_le (Nat.lt_of_not_le fun hle => Bool.false_ne_true (h hle)) hcap

theorem claimsLeft_moved (hmoving : table.moving at_ network = true) (hmem : network ∈ claimed)
    (timing : Timing) : table.claimsLeft at_ timing claimed network = 0 := by
  unfold moving at hmoving
  unfold claimsLeft
  cases hslot : table.entry network with
  | none =>
    rw [hslot] at hmoving
    cases hmoving
  | some slot =>
    rw [hslot, Option.any_some] at hmoving
    simp only [Bool.and_eq_true, Bool.not_eq_true', bne_iff_ne] at hmoving
    simp [hmoving.1, hmoving.2, hmem]

section Heed

variable (hv : table.Valid) (hclaimed : ClaimedOf table claimed) (hcap : options.cap R ≤ R)
  (husable : isReserved network = false) (h : table.admits options network = true)

include hv hclaimed hcap husable h

theorem heed_heeded : ∃ next more,
    table.heed at_ options claimed network = (next, more, true) ∧
      Heeded table at_ options claimed network next more := by
  have hroom := room_of_admits hv hcap h
  rcases heed_claimed at_ hv hclaimed h with
    ⟨hmoving, hmem, hheed⟩ | ⟨hfresh, more, hheed, hsorted, hmore, -⟩
  · refine ⟨table, claimed, hheed, hv, rfl, hclaimed, fun m => ?_, fun m => ?_,
      fun m _ => ⟨rfl, rfl⟩⟩
    · split_ifs with hm
      · rw [hm, claimsLeft_moved hmoving hmem]
      · rfl
    · refine ⟨.inl, ?_⟩
      rintro (hstored | rfl)
      · exact hstored
      · exact hclaimed.stored m hmem
  · obtain ⟨hvalid, hconv⟩ := @putClaim_kept _ _ _ network at_ options hv
    have hothers : ∀ m, m ≠ network →
        (table.putClaim at_ options network).entry m = table.entry m ∧
          (table.putClaim at_ options network).unheld m = table.unheld m := by
      intro m hm
      refine ⟨putClaim_entry_of_ne hv husable hroom hm, ?_⟩
      rw [putClaim_unheld hv husable hroom, beq_eq_false_iff_ne.mpr (Ne.symm hm), Bool.false_and,
        Bool.false_or]
    have hstored : ∀ m, ((table.putClaim at_ options network).entry m).isSome = true ↔
        (table.entry m).isSome = true ∨ m = network := by
      intro m
      by_cases hm : m = network
      · rw [hm, putClaim_entry_self hv husable hroom]
        simp
      · rw [(hothers m hm).1]
        simp [hm]
    refine ⟨_, more, hheed, hvalid, hconv, ⟨hsorted, fun m hm => ?_⟩, fun m => ?_, hstored, hothers⟩
    · rw [hstored]
      rcases (hmore m).mp hm with hm | ⟨rfl, -⟩
      · exact .inl (hclaimed.stored m hm)
      · exact .inr rfl
    · split_ifs with hm
      · rw [hm]
        exact claimsLeft_putClaim hv husable hroom
          (fun hmoving => (hmore network).mpr (.inr ⟨rfl, hmoving⟩)) hfresh
      · refine claimsLeft_congr (hothers m hm).1 (hothers m hm).2 hconv ?_ options.timing
        rw [hmore]
        simp [hm]

/-- A claim its network takes no more changes nothing. -/
theorem heed_idle (hleft : table.claimsLeft at_ options.timing claimed network = 0) :
    ∃ next, table.heed at_ options claimed network = (next, claimed, true) ∧
      Unchanged table next := by
  have hroom := room_of_admits hv hcap h
  rcases heed_claimed at_ hv hclaimed h with
    ⟨-, -, hheed⟩ | ⟨hfresh, more, hheed, -, -, hsame⟩
  · exact ⟨table, hheed, .refl table⟩
  unfold claimsLeft at hleft
  cases hslot : table.entry network with
  | none =>
    rw [hslot] at hleft
    cases hleft
  | some slot =>
    rw [hslot] at hleft
    dsimp only at hleft
    have hnet := entry_network hslot
    obtain ⟨hentry, hholds⟩ := @putClaim_entry _ _ _ _ at_ options hv husable hroom
    obtain ⟨hvalid, hconv⟩ := @putClaim_kept _ _ _ network at_ options hv
    have hfixed : ∀ hself : table.claimedSlot at_ options.timing network = slot,
        table.waits slot at_ options.timing = false →
        forget table.holds network = table.holds → table.moving at_ network = false →
        ∃ next, table.heed at_ options claimed network = (next, claimed, true) ∧
          Unchanged table next := by
      intro hself hwaits hforget hmoving
      refine ⟨_, hsame hmoving ▸ hheed, slots_ext hv.inOrder hvalid.inOrder ?_, ?_, hconv⟩
      · rw [hentry, hself, ← hslot, Function.update_eq_self]
      · rw [hholds, hslot, Option.any_some, hwaits, hforget]
        rfl
    by_cases hdirect : slot.route.direct = true
    · refine hfixed ?_ (by simp [waits, hdirect]) (hv.forget_eq_self fun old hold => ?_)
        (by simp [moving, hslot, hdirect])
      · have hpending := ((hv.entry hslot).direct hdirect).2
        unfold claimedSlot
        rw [hslot]
        simp only [waits, hdirect, Bool.not_true, Bool.false_and, Bool.false_eq_true, if_false,
          claimedRoute, if_true]
        rw [← hnet, ← hpending]
      · rw [hslot] at hold
        cases hold
        exact hdirect
    rw [if_neg hdirect] at hleft
    by_cases hport : slot.route.port = at_.port
    · rw [if_pos hport] at hleft
      split_ifs at hleft with hboth
      refine hfixed ?_ (by simp [waits, hport]) (forget_of_unheld hboth.2)
        (by simp [moving, hslot, hport])
      have hself : table.claimedSlot at_ options.timing network = refreshed slot at_ := by
        unfold claimedSlot refreshed
        rw [hslot]
        simp only [waits, hport, bne_self_eq_false, Bool.and_false, Bool.false_and,
          Bool.false_eq_true, if_false, claimedRoute, hdirect, if_true, hnet]
      rw [hself, ← hboth.1]
    · rw [if_neg hport] at hleft
      split_ifs at hleft with hmem
      exact absurd ⟨by simp [moving, hslot, hdirect, hport], hmem⟩ hfresh

end Heed

end Table

end RustyBacnet.Router
