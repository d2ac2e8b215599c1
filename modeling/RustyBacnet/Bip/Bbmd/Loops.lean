import RustyBacnet.Bip.Bbmd.BdtLaws
import RustyBacnet.Bip.Bbmd.Port

/-!
# Where a forwarded broadcast goes next

A Forwarded-NPDU that is accepted goes to the subnet and to the live foreign devices but its origin
(`forwardedNpdu_targets`), so it stays away from the BDT rows exactly when none of these has a row's
address (`forwardedNpdu_apart`). Nothing keeps a peer from registering as a foreign device.
-/

namespace RustyBacnet.Bip

variable {B F : ℕ}

/-! ## The targets of a forward -/

/-- The targets of a forward that are foreign devices of `live` other than `exclude`. -/
def FromDevices (live : List Registration) (exclude : SocketAddr) (targets : List Target) : Prop :=
  ∀ target ∈ targets, ∃ entry ∈ live, entry.address ≠ exclude ∧ target.destination = entry.address

theorem FromDevices.cons {live : List Registration} {exclude : SocketAddr} {targets : List Target}
    (h : FromDevices live exclude targets) (entry : Registration) :
    FromDevices (entry :: live) exclude targets := by
  intro target htarget
  obtain ⟨found, hfound, hrest⟩ := h target htarget
  exact ⟨found, List.mem_cons_of_mem _ hfound, hrest⟩

/-- Foreign devices are written behind what a writer holds, and within its room. -/
theorem foreignDevicesFrom_targets (fanout : ℕ) (exclude : SocketAddr) (live : List Registration) :
    ∀ (writer : Writer) (sent : ℕ), ∃ devices,
      (Tables.foreignDevicesFrom fanout exclude live writer sent).targets
          = writer.targets ++ devices ∧
        FromDevices live exclude devices ∧
        (writer.targets.length ≤ writer.room →
          (writer.targets ++ devices).length ≤ writer.room) := by
  induction live with
  | nil =>
    intro writer sent
    refine ⟨[], (List.append_nil _).symm, fun target h => absurd h List.not_mem_nil, ?_⟩
    rw [List.append_nil]
    exact id
  | cons entry live ih =>
    intro writer sent
    have hnone : ∃ devices, writer.targets = writer.targets ++ devices ∧
        FromDevices (entry :: live) exclude devices ∧
        (writer.targets.length ≤ writer.room →
          (writer.targets ++ devices).length ≤ writer.room) := by
      refine ⟨[], (List.append_nil _).symm, fun target h => absurd h List.not_mem_nil, ?_⟩
      rw [List.append_nil]
      exact id
    unfold Tables.foreignDevicesFrom
    split
    · obtain ⟨devices, htargets, hfrom, hfits⟩ := ih _ _
      exact ⟨devices, htargets, hfrom.cons entry, hfits⟩
    rename_i hexclude
    split
    · obtain ⟨devices, htargets, hfrom, hfits⟩ := ih _ _
      exact ⟨devices, htargets, hfrom.cons entry, hfits⟩
    split
    · exact hnone
    unfold Writer.push
    split
    · rename_i hroom
      obtain ⟨devices, htargets, hfrom, hfits⟩ := ih _ _
      refine ⟨⟨entry.address, .foreignDevice⟩ :: devices, ?_, ?_, ?_⟩
      · rw [htargets, List.append_assoc]
        rfl
      · intro target htarget
        rcases List.mem_cons.mp htarget with rfl | htarget
        · exact ⟨entry, List.mem_cons_self, hexclude, rfl⟩
        · exact hfrom.cons entry target htarget
      · intro _
        have hbound := hfits (by rw [List.length_append]; exact hroom)
        rw [List.append_assoc] at hbound
        exact hbound
    · obtain ⟨devices, htargets, hfrom, hfits⟩ := ih _ _
      exact ⟨devices, htargets, hfrom.cons entry, hfits⟩

/-- With no peer targets and room for all, every foreign device but `exclude` is written. -/
theorem foreignDevicesFrom_complete (fanout : ℕ) (exclude : SocketAddr) (live : List Registration) :
    ∀ (writer : Writer) (sent : ℕ), writer.peersEnd ≤ writer.peersStart →
      writer.targets.length + live.length ≤ writer.room → sent + live.length ≤ fanout →
      (∀ target ∈ writer.targets,
          target ∈ (Tables.foreignDevicesFrom fanout exclude live writer sent).targets) ∧
        ∀ entry ∈ live, entry.address ≠ exclude → (⟨entry.address, .foreignDevice⟩ : Target) ∈
          (Tables.foreignDevicesFrom fanout exclude live writer sent).targets := by
  induction live with
  | nil =>
    intro writer sent _ _ _
    exact ⟨fun target h => h, fun entry h => absurd h List.not_mem_nil⟩
  | cons entry live ih =>
    intro writer sent hpeers hroom hfanout
    rw [List.length_cons] at hroom hfanout
    have hnot : writer.isPeerTarget entry.address = false := by
      unfold Writer.isPeerTarget
      rw [List.drop_eq_nil_of_le]
      · rfl
      · rw [List.length_take]
        omega
    unfold Tables.foreignDevicesFrom
    by_cases hexclude : entry.address = exclude
    · rw [if_pos hexclude]
      obtain ⟨hkept, hrest⟩ := ih writer sent hpeers (by omega) (by omega)
      refine ⟨hkept, fun e he hne => ?_⟩
      rcases List.mem_cons.mp he with rfl | he
      · exact absurd hexclude hne
      · exact hrest e he hne
    · rw [if_neg hexclude, if_neg (by rw [hnot]; decide), if_neg (by omega)]
      set next : Writer :=
        { writer with targets := writer.targets ++ [⟨entry.address, .foreignDevice⟩] } with hnext
      have hpush : writer.push entry.address .foreignDevice = next := if_pos (by omega)
      have hnextRoom : next.targets.length + live.length ≤ next.room := by
        rw [hnext, List.length_append, List.length_singleton]
        show _ ≤ writer.room
        omega
      rw [hpush]
      obtain ⟨hkept, hrest⟩ := ih next (sent + 1) hpeers hnextRoom (by omega)
      refine ⟨fun target h => hkept target (List.mem_append_left _ h), fun e he hne => ?_⟩
      rcases List.mem_cons.mp he with rfl | he
      · exact hkept _ (List.mem_append_right _ (List.mem_singleton.mpr rfl))
      · exact hrest e he hne

namespace Tables

/-- Whether a forward is broadcast on the BBMD's subnet. -/
def rebroadcasts (tables : Tables B F) (subnet : LocalSubnet) (sender : SocketAddr)
    (arrival : Arrival) : Bool :=
  !subnet.alone &&
    tables.rebroadcastsForwarded (subnet.mask.filter fun _ => !subnet.isGroup) sender arrival

variable {tables : Tables B F} {subnet : LocalSubnet} {sender origin : SocketAddr}
  {arrival : Arrival} {fanout : Fanout} {room : ℕ} {cx : Context}

/-- What an accepted forward is sent on to: the subnet, where it is broadcast there, and then
foreign devices. -/
theorem forwardedNpdu_targets
    (h : tables.forwardedNpdu cx subnet sender arrival origin room = .ok fanout) :
    ∃ locals devices, fanout.targets = locals ++ devices ∧
      (locals = [] ∨ tables.rebroadcasts subnet sender arrival = true ∧
        locals = [⟨subnet.broadcast, .localBroadcast⟩]) ∧
      FromDevices (tables.fdt.liveAt cx.now) origin devices := by
  unfold forwardedNpdu at h
  split at h
  · cases h
  split at h
  · cases h
  cases h
  split
  · rename_i hrebroadcasts
    obtain ⟨devices, htargets, hfrom, -⟩ := foreignDevicesFrom_targets cx.fdtFanout origin
      (tables.fdt.liveAt cx.now) ((Writer.new room).pushLocal subnet.broadcast) 0
    refine ⟨_, devices, htargets, ?_, hfrom⟩
    unfold Writer.pushLocal Writer.push
    split
    · exact .inr ⟨hrebroadcasts, rfl⟩
    · exact .inl rfl
  · obtain ⟨devices, htargets, hfrom, -⟩ := foreignDevicesFrom_targets cx.fdtFanout origin
      (tables.fdt.liveAt cx.now) (.new room) 0
    exact ⟨[], devices, htargets, .inl rfl, hfrom⟩

theorem mem_forwardedNpdu
    (h : tables.forwardedNpdu cx subnet sender arrival origin room = .ok fanout) {target : Target}
    (htarget : target ∈ fanout.targets) :
    tables.rebroadcasts subnet sender arrival = true ∧ target.destination = subnet.broadcast ∨
      ∃ entry ∈ tables.fdt.liveAt cx.now, entry.address ≠ origin ∧
        target.destination = entry.address := by
  obtain ⟨locals, devices, htargets, hlocals, hfrom⟩ := forwardedNpdu_targets h
  rw [htargets] at htarget
  rcases List.mem_append.mp htarget with hlocal | hdevice
  · rcases hlocals with rfl | ⟨hrebroadcasts, rfl⟩
    · exact absurd hlocal List.not_mem_nil
    · rw [List.mem_singleton.mp hlocal]
      exact .inl ⟨hrebroadcasts, rfl⟩
  · exact .inr (hfrom target hdevice)

variable {now : Instant}

/-- With room for every target, that is all of it. -/
theorem forwardedNpdu_complete (hlength : tables.fdt.registrations.length ≤ F)
    (hroom : BbmdPort.maxTargets B F ≤ room)
    (h : tables.forwardedNpdu ⟨now, F⟩ subnet sender arrival origin room = .ok fanout) :
    (tables.rebroadcasts subnet sender arrival = true →
        (⟨subnet.broadcast, .localBroadcast⟩ : Target) ∈ fanout.targets) ∧
      ∀ entry ∈ tables.fdt.liveAt now, entry.address ≠ origin →
        (⟨entry.address, .foreignDevice⟩ : Target) ∈ fanout.targets := by
  have hlive : (tables.fdt.liveAt now).length ≤ F :=
    (List.length_filter_le _ _).trans hlength
  unfold BbmdPort.maxTargets at hroom
  unfold forwardedNpdu at h
  split at h
  · cases h
  split at h
  · cases h
  cases h
  dsimp only [foreignDeviceTargetsInto, Writer.finish]
  by_cases hrebroadcasts : tables.rebroadcasts subnet sender arrival = true
  · have hpos := hrebroadcasts
    unfold rebroadcasts at hpos
    rw [if_pos hpos]
    have hlocal : (Writer.new room).pushLocal subnet.broadcast
        = ⟨room, [⟨subnet.broadcast, .localBroadcast⟩], 1, 1, 0, false, 0⟩ := by
      have hpush : (Writer.new room).push subnet.broadcast .localBroadcast
          = ⟨room, [⟨subnet.broadcast, .localBroadcast⟩], 0, 0, 0, false, 0⟩ :=
        if_pos (show 0 < room by omega)
      unfold Writer.pushLocal
      rw [hpush]
      rfl
    rw [hlocal]
    obtain ⟨hkept, hdevices⟩ := foreignDevicesFrom_complete F origin (tables.fdt.liveAt now)
      ⟨room, [⟨subnet.broadcast, .localBroadcast⟩], 1, 1, 0, false, 0⟩ 0 (Nat.le_refl 1)
      (show 1 + _ ≤ room by omega) (by omega)
    exact ⟨fun _ => hkept _ (List.mem_singleton.mpr rfl), hdevices⟩
  · have hneg := hrebroadcasts
    unfold rebroadcasts at hneg
    rw [if_neg hneg]
    obtain ⟨-, hdevices⟩ := foreignDevicesFrom_complete F origin (tables.fdt.liveAt now)
      (.new room) 0 (Nat.le_refl 0) (show 0 + _ ≤ room by omega) (by omega)
    exact ⟨fun h => absurd h hrebroadcasts, hdevices⟩

/-- No target of a forward is a BDT row's address: neither the subnet, where it is broadcast there,
nor a live foreign device but the origin. -/
def Apart (tables : Tables B F) (now : Instant) (subnet : LocalSubnet) (sender : SocketAddr)
    (arrival : Arrival) (origin : SocketAddr) : Prop :=
  (tables.rebroadcasts subnet sender arrival = true →
      ∀ row ∈ tables.bdt.rows, subnet.broadcast ≠ row.address) ∧
    ∀ entry ∈ tables.fdt.liveAt now, entry.address ≠ origin →
      ∀ row ∈ tables.bdt.rows, entry.address ≠ row.address

/-- The tables of a BBMD after any sequence of calls. -/
inductive Reached : Tables B F → Prop
  | new (own : SocketAddr) : Reached (new own)
  | apply {tables : Tables B F} (op : BdtOp) : Reached tables → Reached (tables.apply op).2
  | serve {tables : Tables B F} (request : Request) (now : Instant) (rules : Rules) (room : ℕ) :
      Reached tables → Reached (tables.serve request now rules room).2
  | restore {tables : Tables B F} (registration : Registration) :
      Reached tables → Reached { tables with fdt := (tables.fdt.restore registration).2 }
  | purge {tables : Tables B F} (now : Instant) :
      Reached tables → Reached { tables with fdt := (tables.fdt.purge now).2 }
  | delete {tables : Tables B F} (address : SocketAddr) :
      Reached tables → Reached { tables with fdt := (tables.fdt.delete address).2 }

theorem apply_fdt (tables : Tables B F) (op : BdtOp) : (tables.apply op).2.fdt = tables.fdt := by
  cases op with
  | set table => rfl
  | setOwnAddress own => rfl
  | setServesGroup serves => rfl
  | setNat nat local_ =>
    unfold apply setNat
    dsimp only
    repeat' split
    all_goals rfl
  | setNatAndBdt nat local_ table =>
    unfold apply setNatAndBdt
    dsimp only
    repeat' split
    all_goals rfl

theorem length_admitAndStore {fdt : Fdt F} (h : fdt.registrations.length ≤ F) (source : SocketAddr)
    (ttl : UInt16) (now : Instant) (limits : RegistrationLimits) (reservation : Reservation)
    (admit_ : Bool) :
    (fdt.admitAndStore source ttl now limits reservation admit_).2.registrations.length ≤ F := by
  unfold Fdt.admitAndStore
  cases reservation
  all_goals
    dsimp only
    split_ifs
    · exact h
    · exact h
    · exact (List.length_map _).trans_le h
    · exact h
    · exact h
    · rw [List.length_append, List.length_singleton]
      omega

/-- The foreign device table fits its storage. -/
theorem Reached.length (h : Reached tables) : tables.fdt.registrations.length ≤ F := by
  induction h with
  | new own => exact Nat.zero_le F
  | apply op _ ih =>
    rw [apply_fdt]
    exact ih
  | serve request now rules room _ ih =>
    cases request with
    | register sender ttl =>
      exact length_admitAndStore ((List.length_filter_le _ _).trans ih) sender ttl now _ _ _
    | readBdt sender => exact ih
    | readFdt sender =>
      unfold Tables.serve
      dsimp only
      split <;> exact ih
    | deleteFdtEntry sender entry =>
      unfold Tables.serve
      dsimp only
      split
      · split <;> exact (List.length_filter_le _ _).trans ih
      · exact ih
  | restore registration _ ih =>
    unfold Fdt.restore
    split
    · exact (List.length_map _).trans_le ih
    split
    · rename_i hroom
      rw [List.length_append, List.length_singleton]
      exact hroom
    · exact ih
  | purge now _ ih => exact (List.length_filter_le _ _).trans ih
  | delete address _ ih => exact (List.length_filter_le _ _).trans ih

/-- An accepted forward stays away from the BDT rows, its sender's among them, exactly when its
targets are apart from them. -/
theorem forwardedNpdu_apart (hreached : Reached tables) (hroom : BbmdPort.maxTargets B F ≤ room)
    (h : tables.forwardedNpdu ⟨now, F⟩ subnet sender arrival origin room = .ok fanout) :
    (∀ target ∈ fanout.targets, target.destination ≠ sender ∧
        ∀ row ∈ tables.bdt.rows, target.destination ≠ row.address) ↔
      tables.Apart now subnet sender arrival origin := by
  obtain ⟨hlocal, hdevices⟩ := forwardedNpdu_complete hreached.length hroom h
  constructor
  · intro hall
    exact ⟨fun hrebroadcasts => (hall _ (hlocal hrebroadcasts)).2,
      fun entry hentry hne => (hall _ (hdevices entry hentry hne)).2⟩
  · rintro ⟨hsubnet, hapart⟩ target htarget
    have hrows : ∀ row ∈ tables.bdt.rows, target.destination ≠ row.address := by
      rcases mem_forwardedNpdu h htarget with ⟨hrebroadcasts, heq⟩ | ⟨entry, hentry, hne, heq⟩
      · rw [heq]
        exact hsubnet hrebroadcasts
      · rw [heq]
        exact hapart entry hentry hne
    refine ⟨fun heq => ?_, hrows⟩
    have hsender : tables.bdt.contains sender = true := by
      unfold forwardedNpdu at h
      split at h
      · cases h
      split at h
      · cases h
      rename_i hcontains
      simpa using hcontains
    obtain ⟨row, hrow, haddress⟩ := Bdt.contains_iff.mp hsender
    exact hrows row hrow (heq.trans haddress.symm)

end Tables

end RustyBacnet.Bip
