import RustyBacnet.Bip.Bbmd.FdtLaws
import RustyBacnet.Bip.Bbmd.Loops

/-!
# Who a broadcast goes to

The one pass that writes the targets of a broadcast, against what they are said to be: the distinct
addresses of the peers in table order, and then the live foreign devices that are none of these, up
to the cap (`Tables.Reaches`).
-/

namespace RustyBacnet.Bip

namespace Tables

variable {B F : ℕ}

/-- What the arrays hold: no more than their lengths, and one registration an address. -/
structure Stored (tables : Tables B F) : Prop where
  rows : tables.bdt.rows.length ≤ B
  registrations : tables.fdt.registrations.length ≤ F
  distinct : tables.fdt.addresses.Nodup

/-- Where the rows other than the own one and the source's distribute to. -/
def peers (tables : Tables B F) (exclude : SocketAddr) : List SocketAddr :=
  (tables.bdt.rows.filter fun row => row.address ≠ tables.bdt.own ∧ row.address ≠ exclude).map
    distributionAddress

/-- The foreign devices live at `now`, other than the source. -/
def devices (tables : Tables B F) (now : Instant) (exclude : SocketAddr) : List SocketAddr :=
  ((tables.fdt.liveAt now).map (·.address)).filter (· ≠ exclude)

/-- The targets of a broadcast behind those that come first. The devices met before the cut are those
it goes to and those that are peer targets already, and the cut is at one it would go to. -/
structure Reaches (tables : Tables B F) (cx : Context) (exclude : SocketAddr) (first : List Target)
    (fanout : Fanout) : Prop where
  targets : fanout.targets =
    first ++ (tables.peers exclude).eraseDups.map (⟨·, .peer⟩) ++
      (((tables.devices cx.now exclude).filter (· ∉ tables.peers exclude)).take
        cx.fdtFanout).map (⟨·, .foreignDevice⟩)
  deduplicated : ∃ met cut, tables.devices cx.now exclude = met ++ cut ∧
    met.filter (· ∉ tables.peers exclude) =
      ((tables.devices cx.now exclude).filter (· ∉ tables.peers exclude)).take cx.fdtFanout ∧
    (∀ device behind, cut = device :: behind → device ∉ tables.peers exclude) ∧
    fanout.deduplicated =
      (tables.peers exclude).length - (tables.peers exclude).eraseDups.length +
        (met.filter (· ∈ tables.peers exclude)).length
  fanoutCapped : fanout.fanoutCapped = true ↔
    cx.fdtFanout < ((tables.devices cx.now exclude).filter (· ∉ tables.peers exclude)).length
  dropped : fanout.dropped = 0

/-! ## The peers -/

variable {writer : Writer}

theorem push_room (h : writer.targets.length < writer.room) (destination : SocketAddr) (via : Via) :
    writer.push destination via = { writer with targets := writer.targets ++ [⟨destination, via⟩] } := by
  unfold Writer.push
  rw [if_pos h]

theorem length_eraseDups_le (addresses : List SocketAddr) :
    addresses.eraseDups.length ≤ addresses.length := by
  induction addresses using List.reverseRecOn with
  | nil => exact Nat.le_refl 0
  | append_singleton addresses address ih =>
    rw [List.length_append, List.length_singleton]
    by_cases hmem : address ∈ addresses
    · rw [eraseDups_append_of_mem hmem]
      omega
    · rw [eraseDups_append_of_notMem hmem, List.length_append, List.length_singleton]
      omega

/-- Writing rows' addresses writes each once, and counts the others. -/
theorem foldl_pushUnique (hstart : writer.peersStart = writer.targets.length)
    (addresses : List SocketAddr) (hroom : writer.targets.length + addresses.length ≤ writer.room) :
    addresses.foldl (fun writer address => writer.pushUnique address .peer) writer =
      { writer with
        targets := writer.targets ++ addresses.eraseDups.map (⟨·, .peer⟩)
        deduplicated := writer.deduplicated + (addresses.length - addresses.eraseDups.length) } := by
  induction addresses using List.reverseRecOn with
  | nil =>
    rw [List.eraseDups_nil, List.map_nil, List.append_nil]
    rfl
  | append_singleton addresses address ih =>
    rw [List.length_append, List.length_singleton] at hroom
    rw [List.foldl_append, List.foldl_cons, List.foldl_nil, ih (by omega)]
    have hle : addresses.eraseDups.length ≤ addresses.length :=
      length_eraseDups_le addresses
    unfold Writer.pushUnique
    dsimp only
    rw [hstart, List.drop_left, List.any_map]
    have hany : (addresses.eraseDups.any ((fun target : Target => target.destination == address) ∘
        fun address => ⟨address, .peer⟩)) = true ↔ address ∈ addresses := by
      rw [List.any_eq_true]
      constructor
      · rintro ⟨other, hother, heq⟩
        rw [← List.mem_eraseDups, ← beq_iff_eq.mp heq]
        exact hother
      · intro hmem
        exact ⟨address, List.mem_eraseDups.mpr hmem, beq_self_eq_true address⟩
    by_cases hmem : address ∈ addresses
    · rw [if_pos (hany.mpr hmem), eraseDups_append_of_mem hmem, List.length_append,
        List.length_singleton]
      congr 1
      omega
    · rw [if_neg (fun h => hmem (hany.mp h)), eraseDups_append_of_notMem hmem]
      rw [push_room (by
        show (writer.targets ++ addresses.eraseDups.map _).length < writer.room
        rw [List.length_append, List.length_map]
        omega)]
      rw [List.map_append, List.append_assoc, List.length_append, List.length_append]
      congr 1
      simp only [List.length_singleton]
      omega

theorem peerTargets_eq (tables : Tables B F) (exclude : SocketAddr)
    (hstart : writer.peersStart = writer.targets.length)
    (hroom : writer.targets.length + tables.bdt.rows.length ≤ writer.room) :
    tables.peerTargets writer exclude =
      { writer with
        targets := writer.targets ++ (tables.peers exclude).eraseDups.map (⟨·, .peer⟩)
        peersEnd := writer.targets.length + (tables.peers exclude).eraseDups.length
        deduplicated := writer.deduplicated +
          ((tables.peers exclude).length - (tables.peers exclude).eraseDups.length) } := by
  have hfold : ∀ (rows : List BdtEntry) (writer : Writer),
      rows.foldl (fun writer row =>
        if row.address = tables.bdt.own ∨ row.address = exclude then writer
        else writer.pushUnique (distributionAddress row) .peer) writer =
      ((rows.filter fun row => row.address ≠ tables.bdt.own ∧ row.address ≠ exclude).map
        distributionAddress).foldl (fun writer address => writer.pushUnique address .peer) writer := by
    intro rows
    induction rows with
    | nil => exact fun _ => rfl
    | cons row rows ih =>
      intro writer
      rw [List.foldl_cons, ih, List.filter_cons]
      by_cases hskip : row.address = tables.bdt.own ∨ row.address = exclude
      · rw [if_pos hskip, if_neg (by simpa using or_iff_not_imp_left.mp hskip)]
      · rw [if_neg hskip, if_pos (by simpa using not_or.mp hskip)]
        rfl
  have hlength : (tables.peers exclude).length ≤ tables.bdt.rows.length :=
    (List.length_map _).trans_le (List.length_filter_le _ _)
  unfold peerTargets
  rw [hfold]
  have hpeers := foldl_pushUnique hstart (tables.peers exclude) (by omega)
  unfold peers at hpeers ⊢
  rw [hpeers]
  dsimp only
  rw [List.length_append, List.length_map]

/-! ## The foreign devices -/

/-- The pass over the live devices, in front of a cut or to their end. -/
theorem foreignDevicesFrom_eq {fanout : ℕ} {exclude : SocketAddr} {peers : List SocketAddr}
    (live : List Registration) {writer : Writer} {sent : ℕ}
    (hpeers : ∀ address, writer.isPeerTarget address = true ↔ address ∈ peers)
    (hend : writer.peersEnd ≤ writer.targets.length)
    (hroom : writer.targets.length + live.length ≤ writer.room) :
    ∃ met cut, (live.map (·.address)).filter (· ≠ exclude) = met ++ cut ∧
      foreignDevicesFrom fanout exclude live writer sent =
        { writer with
          targets := writer.targets ++ (met.filter (· ∉ peers)).map (⟨·, .foreignDevice⟩)
          deduplicated := writer.deduplicated + (met.filter (· ∈ peers)).length
          fanoutCapped := writer.fanoutCapped || !cut.isEmpty } ∧
      met.filter (· ∉ peers) = ((met ++ cut).filter (· ∉ peers)).take (fanout - sent) ∧
      ∀ device behind, cut = device :: behind → device ∉ peers := by
  induction live generalizing writer sent with
  | nil =>
    refine ⟨[], [], rfl, ?_, by simp, fun device behind h => (nomatch h)⟩
    unfold foreignDevicesFrom
    simp
  | cons entry live ih =>
    rw [List.length_cons] at hroom
    unfold foreignDevicesFrom
    rw [List.map_cons, List.filter_cons]
    by_cases hexclude : entry.address = exclude
    · rw [if_pos hexclude, if_neg (by simpa using hexclude)]
      exact ih hpeers hend (by omega)
    rw [if_neg hexclude, if_pos (by simpa using hexclude)]
    by_cases hpeer : entry.address ∈ peers
    · rw [if_pos ((hpeers _).mpr hpeer)]
      obtain ⟨met, cut, hdevices, hpass, hmet, hcut⟩ := @ih
        { writer with deduplicated := writer.deduplicated + 1 } sent hpeers hend (by
          show writer.targets.length + live.length ≤ writer.room
          omega)
      refine ⟨entry.address :: met, cut, by rw [hdevices]; rfl, ?_, ?_, hcut⟩
      · rw [hpass]
        simp [hpeer]
        omega
      · simpa [hpeer] using hmet
    · rw [if_neg fun h => hpeer ((hpeers _).mp h)]
      by_cases hfull : fanout ≤ sent
      · rw [if_pos hfull]
        refine ⟨[], _, rfl, ?_, ?_, ?_⟩
        · simp
        · rw [Nat.sub_eq_zero_of_le hfull]
          simp
        · rintro device behind heq
          rw [(List.cons.inj heq).1] at hpeer
          exact hpeer
      · rw [if_neg hfull, push_room (by omega)]
        obtain ⟨met, cut, hdevices, hpass, hmet, hcut⟩ := @ih
          { writer with targets := writer.targets ++ [⟨entry.address, .foreignDevice⟩] } (sent + 1)
          (fun address => by
            rw [← hpeers address]
            unfold Writer.isPeerTarget
            rw [List.take_append_of_le_length hend])
          (by
            show writer.peersEnd ≤ (writer.targets ++ [_]).length
            rw [List.length_append]
            omega)
          (by
            show (writer.targets ++ [_]).length + live.length ≤ writer.room
            rw [List.length_append, List.length_singleton]
            omega)
        refine ⟨entry.address :: met, cut, by rw [hdevices]; rfl, ?_, ?_, hcut⟩
        · rw [hpass]
          simp [hpeer]
        · have hleft : fanout - sent = fanout - (sent + 1) + 1 := by omega
          rw [hleft]
          simpa [hpeer] using hmet

/-! ## One broadcast -/

/-- What a decision writes behind its first targets. -/
theorem reaches {tables : Tables B F} (hstored : tables.Stored) (cx : Context)
    (exclude : SocketAddr) {writer : Writer} (hstart : writer.peersStart = writer.targets.length)
    (hclean : writer.deduplicated = 0 ∧ writer.fanoutCapped = false ∧ writer.dropped = 0)
    (hroom : writer.targets.length + B + F ≤ writer.room) :
    tables.Reaches cx exclude writer.targets
      (tables.foreignDeviceTargetsInto (tables.peerTargets writer exclude) cx exclude).finish := by
  have hrows := hstored.rows
  have hregistrations := hstored.registrations
  have hlive : (tables.fdt.liveAt cx.now).length ≤ tables.fdt.registrations.length :=
    List.length_filter_le _ _
  have hpeers : (tables.peers exclude).eraseDups.length ≤ tables.bdt.rows.length :=
    (length_eraseDups_le _).trans ((List.length_map _).trans_le (List.length_filter_le _ _))
  have hpass := tables.peerTargets_eq exclude hstart (by omega)
  obtain ⟨met, cut, hdevices, hdone, hmet, hcut⟩ := @foreignDevicesFrom_eq cx.fdtFanout exclude
    (tables.peers exclude) (tables.fdt.liveAt cx.now) (tables.peerTargets writer exclude) 0
    (fun address => by
      rw [hpass]
      unfold Writer.isPeerTarget
      rw [hstart, List.take_of_length_le (by rw [List.length_append, List.length_map]),
        List.drop_left, List.any_map, List.any_eq_true]
      simp)
    (by rw [hpass, List.length_append, List.length_map])
    (by
      rw [hpass]
      dsimp only
      rw [List.length_append, List.length_map]
      omega)
  have hall : tables.devices cx.now exclude = met ++ cut := hdevices
  rw [Nat.sub_zero] at hmet
  unfold foreignDeviceTargetsInto Writer.finish
  rw [hdone, hpass]
  refine ⟨?_, ⟨met, cut, hall, hall ▸ hmet, hcut, ?_⟩, ?_, hclean.2.2⟩
  · rw [hall, hmet]
  · rw [hclean.1, Nat.zero_add]
  · rw [hclean.2.1, Bool.false_or, hall]
    cases cut with
    | nil =>
      rw [List.append_nil] at hmet ⊢
      have hlength := congrArg List.length hmet
      rw [List.length_take] at hlength
      refine iff_of_false Bool.false_ne_true (Nat.not_lt.mpr ?_)
      omega
    | cons device behind =>
      have hdevice := hcut device behind rfl
      have hlength := congrArg List.length hmet
      rw [List.length_take] at hlength
      refine iff_of_true rfl ?_
      rw [List.filter_append, List.length_append, List.filter_cons_of_pos (by simpa using hdevice),
        List.length_cons] at hlength ⊢
      omega

/-- The tables that calls can make are stored so. -/
theorem Reached.tables_stored {tables : Tables B F} (h : Reached tables) : tables.Stored := by
  have hrules : tables.bdt.Rules ∧ ∃ made since, Fdt.Ordered tables.fdt made since := by
    induction h with
    | new own =>
      exact ⟨Bdt.rules_new own, 0, fun _ => 0, Nat.zero_le F, List.Pairwise.nil,
        fun address h => absurd h List.not_mem_nil⟩
    | @apply tables op _ ih =>
      rw [apply_fdt]
      refine ⟨?_, ih.2⟩
      rcases apply_leaves ih.1 op with ⟨refused, hop⟩ | ⟨next, hop, hrules, -⟩
      · rw [hop]
        exact ih.1
      · rw [hop]
        exact hrules
    | @serve tables request now rules room _ ih =>
      obtain ⟨hbdt, made, since, hordered⟩ := ih
      cases request with
      | register sender ttl =>
        exact ⟨hbdt, _, _, hordered.apply rules.registrationLimits now
          (.register sender ttl (rules.reservation sender) (rules.admitRegistration sender now))⟩
      | readBdt sender => exact ⟨hbdt, _, _, hordered⟩
      | readFdt sender =>
        unfold Tables.serve
        dsimp only
        split <;> exact ⟨hbdt, _, _, hordered⟩
      | deleteFdtEntry sender entry =>
        unfold Tables.serve
        dsimp only
        split
        · split <;> exact ⟨hbdt, _, _, hordered.apply .default now (.delete entry)⟩
        · exact ⟨hbdt, _, _, hordered⟩
    | restore registration _ ih =>
      obtain ⟨hbdt, made, since, hordered⟩ := ih
      exact ⟨hbdt, _, _, hordered.apply .default 0 (.restore registration)⟩
    | purge now _ ih =>
      obtain ⟨hbdt, made, since, hordered⟩ := ih
      exact ⟨hbdt, _, _, hordered.apply .default now .purge⟩
    | delete address _ ih =>
      obtain ⟨hbdt, made, since, hordered⟩ := ih
      exact ⟨hbdt, _, _, hordered.apply .default 0 (.delete address)⟩
  obtain ⟨hbdt, made, since, hordered⟩ := hrules
  exact ⟨hbdt.fits, hordered.fits, hordered.distinct⟩

/-- Two devices register, one of them twice, and a third is refused. -/
theorem Reached.tables_stored_refused :
    let tables : Tables 1 2 := [(2, 0), (3, 1), (2, 5), (4, 6)].foldl (fun tables call =>
      (tables.serve (.register ⟨.unspecified, call.1⟩ 60) call.2 .permissive 2).2)
      (.new ⟨.unspecified, 1⟩)
    tables.fdt.registrations = [⟨⟨.unspecified, 2⟩, 60, 5⟩, ⟨⟨.unspecified, 3⟩, 60, 1⟩] ∧
      tables.Stored :=
  ⟨by decide +kernel, Reached.tables_stored
    (.serve _ _ _ _ (.serve _ _ _ _ (.serve _ _ _ _ (.serve _ _ _ _ (.new _)))))⟩

end Tables

/-- Who a broadcast goes to. -/
theorem broadcast_targets {B F : ℕ} (tables : Tables B F) (hstored : tables.Stored) (cx : Context)
    (subnet : LocalSubnet) (source : SocketAddr) (npdu : List UInt8) (room : ℕ)
    (hroom : BbmdPort.maxTargets B F ≤ room) :
    tables.Reaches cx source [] (tables.originalBroadcast cx source npdu room).fanout ∧
      ((∃ entry ∈ tables.fdt.liveAt cx.now, entry.address = source) →
        ∃ distribution, tables.distributeBroadcast cx subnet source npdu room = .ok distribution ∧
          tables.Reaches cx source
            (if subnet.alone then [] else [⟨subnet.broadcast, .localBroadcast⟩])
            distribution.fanout) ∧
      ((¬∃ entry ∈ tables.fdt.liveAt cx.now, entry.address = source) →
        tables.distributeBroadcast cx subnet source npdu room = .error .notRegistered) := by
  unfold BbmdPort.maxTargets at hroom
  rw [← Fdt.isRegisteredAt_iff hstored.distinct]
  refine ⟨?_, fun hlive => ?_, fun hlapsed => ?_⟩
  · exact @Tables.reaches B F tables hstored cx source (.new room) rfl ⟨rfl, rfl, rfl⟩ (by
      show 0 + B + F ≤ room
      omega)
  · unfold Tables.distributeBroadcast
    rw [hlive, if_neg (by decide)]
    refine ⟨_, rfl, ?_⟩
    cases subnet.alone with
    | true =>
      exact @Tables.reaches B F tables hstored cx source (.new room) rfl ⟨rfl, rfl, rfl⟩ (by
        show 0 + B + F ≤ room
        omega)
    | false =>
      have hpush : (Writer.new room).push subnet.broadcast .localBroadcast
          = { Writer.new room with targets := [⟨subnet.broadcast, .localBroadcast⟩] } :=
        Tables.push_room (by
          show 0 < room
          omega) _ _
      have hfirst := @Tables.reaches B F tables hstored cx source
        ((Writer.new room).pushLocal subnet.broadcast) rfl
      unfold Writer.pushLocal at hfirst ⊢
      rw [hpush] at hfirst ⊢
      exact hfirst ⟨rfl, rfl, rfl⟩ (by
        show 1 + B + F ≤ room
        omega)
  · unfold Tables.distributeBroadcast
    rw [Bool.not_eq_true] at hlapsed
    rw [hlapsed]
    rfl

/-- A BBMD with a one-hop and a two-hop peer and two foreign devices, the second at a peer target. -/
def siteTables : Tables 3 2 where
  bdt := ⟨[⟨⟨⟨0x0A000101⟩, 47808⟩, twoHopMask⟩, ⟨⟨⟨0x0A000201⟩, 47808⟩, ⟨0xFFFFFF00⟩⟩,
    ⟨⟨⟨0x0A000301⟩, 47808⟩, twoHopMask⟩], ⟨⟨0x0A000101⟩, 47808⟩, false, false, false⟩
  fdt := ⟨[⟨⟨⟨0x0A000901⟩, 47808⟩, 60, 0⟩, ⟨⟨⟨0x0A000301⟩, 47808⟩, 60, 0⟩]⟩
  nat := none

theorem broadcast_targets_site :
    siteTables.Stored ∧
      siteTables.Reaches ⟨fromSecs 10, 1⟩ ⟨⟨0x0A000101⟩, 47808⟩ []
        (siteTables.originalBroadcast ⟨fromSecs 10, 1⟩ ⟨⟨0x0A000101⟩, 47808⟩ [1] 6).fanout := by
  have hstored : siteTables.Stored := ⟨by decide, by decide, by decide⟩
  exact ⟨hstored, (broadcast_targets siteTables hstored ⟨fromSecs 10, 1⟩
    ⟨⟨⟨0x0A0001FF⟩, 47808⟩, none, false, none⟩ ⟨⟨0x0A000101⟩, 47808⟩ [1] 6 (by decide)).1⟩

end RustyBacnet.Bip
