import RustyBacnet.Bip.Bbmd.Loops
import RustyBacnet.Lib.Budget

/-!
# Networks of BBMDs

1. BBMDs send each other copies of one broadcast over an IP network, which says whom a datagram
   reaches and how (`Mesh.step`). Their tables change at will.
2. A forward that came by unicast may be broadcast on a subnet and so reach the BBMDs there; one that
   came by broadcast is not broadcast again. Where no foreign device that gets a forward is a BBMD,
   that is all, and the copies still to come are bounded by the weights of those under way
   (`pays`).
3. Two BBMDs that are peers and foreign devices of each other send one message to and fro for ever
   (`bounce_run`).
-/

namespace RustyBacnet.Bip

open Budget

/-! ## The system -/

/-- A message on its way to a BBMD. -/
structure Copy (ι : Type) where
  bbmd : ι
  share : ForBbmd
  deriving DecidableEq

/-- A BBMD that a datagram reaches, the source it shows there and how it arrives. -/
structure Receipt (ι : Type) where
  bbmd : ι
  source : SocketAddr
  arrival : Arrival
  deriving DecidableEq

/-- BBMDs, the messages on their way to them, and every Forwarded-NPDU that one sent another. -/
structure Mesh {ι : Type} (B F : ι → ℕ) where
  port : ∀ i, BbmdPort (B i) (F i)
  flight : List (Copy ι)
  forwards : List (Copy ι)

/-- What happens in a network: a BBMD's tables change, or a message is received or lost. -/
inductive Move {ι : Type} (B F : ι → ℕ) where
  | host (i : ι) (tables : Tables (B i) (F i))
  | deliver (copy : Copy ι) (now : Instant) (rules : Rules)
  | lose (copy : Copy ι)

namespace Mesh

variable {ι : Type} {B F : ι → ℕ}

/-- The Forwarded-NPDUs that reach a BBMD, of a datagram that `i` sends. -/
def copiesOf (reach : ι → SocketAddr → List (Receipt ι)) (i : ι) :
    SocketAddr × Bvll → List (Copy ι)
  | (destination, .forwardedNpdu origin npdu) =>
    (reach i destination).map fun receipt =>
      ⟨receipt.bbmd, .forwarded receipt.source receipt.arrival origin npdu⟩
  | _ => []

variable [DecidableEq ι]

def step (reach : ι → SocketAddr → List (Receipt ι)) (mesh : Mesh B F) : Move B F → Mesh B F
  | .host i tables => { mesh with port := Function.update mesh.port i { mesh.port i with tables } }
  | .deliver copy now rules =>
    if copy ∈ mesh.flight then
      let (port, sent) := (mesh.port copy.bbmd).share copy.share now rules
      let copies := sent.flatMap (copiesOf reach copy.bbmd)
      { port := Function.update mesh.port copy.bbmd port
        flight := mesh.flight.erase copy ++ copies
        forwards := mesh.forwards ++ copies }
    else mesh
  | .lose copy => { mesh with flight := mesh.flight.erase copy }

end Mesh

/-- A BBMD takes a forward: no foreign device that gets it is a BBMD, and where it is broadcast on
the subnet it reaches BBMDs there by broadcast. -/
def Contained {ι : Type} {B F : ℕ} (reach : SocketAddr → List (Receipt ι)) (port : BbmdPort B F)
    (now : Instant) : ForBbmd → Prop
  | .forwarded sender arrival origin _ =>
    (∀ entry ∈ port.tables.fdt.liveAt now, entry.address ≠ origin → reach entry.address = []) ∧
      (port.tables.rebroadcasts port.subnet sender arrival = true →
        ∀ receipt ∈ reach port.subnet.broadcast, receipt.arrival = .broadcast)
  | _ => True

namespace Mesh

variable {ι : Type} {B F : ι → ℕ} [DecidableEq ι]

/-- Every forward of a run is contained where it is received. -/
def ContainedRun (reach : ι → SocketAddr → List (Receipt ι)) :
    Mesh B F → List (Move B F) → Prop
  | _, [] => True
  | mesh, move :: moves =>
    (∀ copy now rules, move = .deliver copy now rules →
        Contained (reach copy.bbmd) (mesh.port copy.bbmd) now copy.share) ∧
      ContainedRun reach (mesh.step reach move) moves

end Mesh

/-! ## The budget -/

/-- What a message may still cost, with so many targets a decision and BBMDs a datagram. -/
def weight (targets reached : ℕ) : ForBbmd → ℕ
  | .originalBroadcast _ _ | .distribute _ _ => targets * (reached * (1 + reached))
  | .forwarded _ .unicast _ _ => reached
  | .forwarded _ .broadcast _ _ => 0
  | .management _ => 0

/-- What copies cost: themselves and what they may still cause. -/
def cost {ι : Type} (targets reached : ℕ) (copies : List (Copy ι)) : ℕ :=
  (copies.map fun copy => 1 + weight targets reached copy.share).sum

variable {npdu : List UInt8}

section Costs

variable {ι : Type} {targets reached : ℕ}

theorem cost_append (first second : List (Copy ι)) :
    cost targets reached (first ++ second)
      = cost targets reached first + cost targets reached second := by
  unfold cost
  rw [List.map_append, List.sum_append]

/-- A copy of a Forwarded-NPDU costs at most itself and a broadcast on a subnet. -/
theorem cost_copiesOf {reach : ι → SocketAddr → List (Receipt ι)}
    (hreach : ∀ i destination, (reach i destination).length ≤ reached) (i : ι)
    (datagram : SocketAddr × Bvll) :
    cost targets reached (Mesh.copiesOf reach i datagram) ≤ reached * (1 + reached) := by
  obtain ⟨destination, message⟩ := datagram
  cases message with
  | forwardedNpdu origin npdu =>
    unfold cost Mesh.copiesOf
    rw [List.map_map]
    refine (List.sum_le_card_nsmul _ (1 + reached) fun n hn => ?_).trans ?_
    · obtain ⟨receipt, -, rfl⟩ := List.mem_map.mp hn
      show 1 + weight targets reached (.forwarded _ receipt.arrival _ _) ≤ 1 + reached
      refine Nat.add_le_add_left ?_ 1
      cases receipt.arrival
      · exact Nat.le_refl reached
      · exact Nat.zero_le reached
    · rw [List.length_map]
      exact Nat.mul_le_mul_right _ (hreach i destination)
  | _ => exact Nat.zero_le _

theorem cost_flatMap {reach : ι → SocketAddr → List (Receipt ι)}
    (hreach : ∀ i destination, (reach i destination).length ≤ reached) (i : ι)
    (sent : List (SocketAddr × Bvll)) :
    cost targets reached (sent.flatMap (Mesh.copiesOf reach i))
      ≤ sent.length * (reached * (1 + reached)) := by
  induction sent with
  | nil => exact Nat.zero_le _
  | cons datagram sent ih =>
    rw [List.flatMap_cons, cost_append, List.length_cons, Nat.succ_mul, Nat.add_comm]
    exact Nat.add_le_add ih (cost_copiesOf hreach i datagram)

theorem cost_broadcast {reach : ι → SocketAddr → List (Receipt ι)} {i : ι} {destination : SocketAddr}
    (hreach : (reach i destination).length ≤ reached)
    (harrival : ∀ receipt ∈ reach i destination, receipt.arrival = .broadcast) (origin : SocketAddr)
    (npdu : List UInt8) :
    cost targets reached (Mesh.copiesOf reach i (destination, .forwardedNpdu origin npdu))
      ≤ reached := by
  unfold cost Mesh.copiesOf
  rw [List.map_map]
  refine (List.sum_le_card_nsmul _ 1 fun n hn => ?_).trans ?_
  · obtain ⟨receipt, hreceipt, rfl⟩ := List.mem_map.mp hn
    show 1 + weight targets reached (.forwarded _ receipt.arrival _ _) ≤ 1
    rw [harrival receipt hreceipt]
    exact Nat.le_refl 1
  · rw [List.length_map]
    exact (Nat.mul_one _).trans_le hreach

theorem cost_unreached {reach : ι → SocketAddr → List (Receipt ι)} {i : ι} {devices : List Target}
    {origin : SocketAddr} (h : ∀ target ∈ devices, reach i target.destination = []) :
    cost targets reached ((devices.map fun target =>
      (target.destination, Bvll.forwardedNpdu origin npdu)).flatMap (Mesh.copiesOf reach i)) = 0 := by
  induction devices with
  | nil => rfl
  | cons target devices ih =>
    rw [List.map_cons, List.flatMap_cons, cost_append, ih fun other hother =>
      h other (List.mem_cons_of_mem _ hother)]
    unfold Mesh.copiesOf
    dsimp only
    rw [h target List.mem_cons_self]
    rfl

end Costs

/-! ## What a decision writes -/

/-- A writer that stays within its storage. -/
def Writer.Fits (room : ℕ) (writer : Writer) : Prop :=
  writer.room = room ∧ writer.targets.length ≤ room

variable {room : ℕ} {writer : Writer}

theorem Writer.Fits.push (h : writer.Fits room) (destination : SocketAddr) (via : Via) :
    (writer.push destination via).Fits room := by
  unfold Writer.push
  split
  · rename_i hroom
    refine ⟨h.1, ?_⟩
    rw [List.length_append, List.length_singleton, ← h.1]
    exact hroom
  · exact h

theorem Writer.fits_new (room : ℕ) : (Writer.new room).Fits room := ⟨rfl, Nat.zero_le room⟩

namespace Tables

variable {B F : ℕ} (tables : Tables B F)

theorem fits_peerTargets (h : writer.Fits room) (exclude : SocketAddr) :
    (tables.peerTargets writer exclude).Fits room := by
  have hrows : ∀ (rows : List BdtEntry) {writer : Writer}, writer.Fits room →
      (rows.foldl (fun writer row =>
        if row.address = tables.bdt.own ∨ row.address = exclude then writer
        else writer.pushUnique (distributionAddress row) .peer) writer).Fits room := by
    intro rows
    induction rows with
    | nil => exact fun h => h
    | cons row rows ih =>
      intro writer h
      rw [List.foldl_cons]
      refine ih ?_
      split_ifs
      · exact h
      · unfold Writer.pushUnique
        split_ifs
        · exact h
        · exact h.push _ _
  exact hrows tables.bdt.rows h

theorem length_foreignDeviceTargetsInto (h : writer.Fits room) (cx : Context) (exclude : SocketAddr)
    : (tables.foreignDeviceTargetsInto writer cx exclude).finish.targets.length ≤ room := by
  obtain ⟨devices, htargets, -, hfits⟩ := foreignDevicesFrom_targets cx.fdtFanout exclude
    (tables.fdt.liveAt cx.now) writer 0
  have hbound := hfits (h.1 ▸ h.2)
  rw [← htargets, h.1] at hbound
  exact hbound

theorem length_originalBroadcast (cx : Context) (source : SocketAddr) (npdu : List UInt8) (room : ℕ)
    : (tables.originalBroadcast cx source npdu room).fanout.targets.length ≤ room :=
  tables.length_foreignDeviceTargetsInto
    (tables.fits_peerTargets (Writer.fits_new room) source) cx source

theorem length_distributeBroadcast {tables : Tables B F} {cx : Context} {subnet : LocalSubnet}
    {sender : SocketAddr} {sent : Distribution}
    (h : tables.distributeBroadcast cx subnet sender npdu room = .ok sent) :
    sent.fanout.targets.length ≤ room := by
  unfold distributeBroadcast at h
  split at h
  · cases h
  cases h
  refine tables.length_foreignDeviceTargetsInto (tables.fits_peerTargets ?_ sender) cx sender
  split
  · exact (Writer.fits_new room).push _ _
  · exact Writer.fits_new room

theorem rebroadcasts_broadcast (subnet : LocalSubnet) (sender : SocketAddr) :
    tables.rebroadcasts subnet sender .broadcast = false := by
  unfold rebroadcasts rebroadcastsForwarded
  simp

end Tables

namespace BbmdPort

variable {ι : Type} {B F : ℕ} {reach : ι → SocketAddr → List (Receipt ι)} {targets reached : ℕ}

/-- A BBMD's share of a message costs no more than the message. -/
theorem share_pays (hreach : ∀ i destination, (reach i destination).length ≤ reached) (i : ι)
    (port : BbmdPort B F) (hport : port.targets ≤ targets) (share : ForBbmd) (now : Instant)
    (rules : Rules) (h : Contained (reach i) port now share) :
    cost targets reached ((port.share share now rules).2.flatMap (Mesh.copiesOf reach i))
      ≤ weight targets reached share := by
  have hfanout : ∀ (fanout : Fanout) (origin : SocketAddr) (npdu : List UInt8),
      fanout.targets.length ≤ port.targets →
      cost targets reached ((fanout.copies origin npdu).flatMap (Mesh.copiesOf reach i))
        ≤ targets * (reached * (1 + reached)) := by
    intro fanout origin npdu hlength
    refine (cost_flatMap hreach i _).trans (Nat.mul_le_mul_right _ ?_)
    unfold Fanout.copies
    rw [List.length_map]
    exact hlength.trans hport
  cases share with
  | originalBroadcast source npdu =>
    exact hfanout _ _ _ (port.tables.length_originalBroadcast _ _ _ _)
  | distribute sender npdu =>
    unfold BbmdPort.share
    dsimp only
    split
    · rename_i sent hsent
      exact hfanout _ _ _ (Tables.length_distributeBroadcast hsent)
    · exact Nat.zero_le _
  | management request =>
    unfold BbmdPort.share
    dsimp only
    split_ifs
    · exact Nat.le_refl 0
    · cases request with
      | register sender ttl => exact Nat.le_refl 0
      | readBdt sender => exact Nat.le_refl 0
      | readFdt sender =>
        unfold Tables.serve
        dsimp only
        split <;> exact Nat.le_refl 0
      | deleteFdtEntry sender entry =>
        unfold Tables.serve
        dsimp only
        split_ifs <;> exact Nat.le_refl 0
  | forwarded sender arrival origin npdu =>
    obtain ⟨hdevices, hsubnet⟩ := h
    unfold BbmdPort.share
    dsimp only
    split
    · rename_i fanout hfan
      obtain ⟨locals, devices, hsent, hlocals, hfrom⟩ := Tables.forwardedNpdu_targets hfan
      have hfree : ∀ target ∈ devices, reach i target.destination = [] := by
        intro target htarget
        obtain ⟨entry, hentry, hne, heq⟩ := hfrom target htarget
        rw [heq]
        exact hdevices entry hentry hne
      unfold Fanout.copies
      rw [hsent, List.map_append, List.flatMap_append, cost_append, cost_unreached hfree,
        Nat.add_zero]
      rcases hlocals with rfl | ⟨hrebroadcasts, rfl⟩
      · exact Nat.zero_le _
      · rw [List.map_singleton, List.flatMap_singleton]
        cases arrival with
        | unicast => exact cost_broadcast (hreach i _) (hsubnet hrebroadcasts) origin npdu
        | broadcast =>
          rw [Tables.rebroadcasts_broadcast] at hrebroadcasts
          cases hrebroadcasts
    · exact Nat.zero_le _

@[simp] theorem share_targets (port : BbmdPort B F) (share : ForBbmd) (now : Instant)
    (rules : Rules) : (port.share share now rules).1.targets = port.targets := by
  unfold BbmdPort.share
  dsimp only
  repeat' split
  all_goals rfl

end BbmdPort

namespace Mesh

variable {ι : Type} {B F : ι → ℕ} {reach : ι → SocketAddr → List (Receipt ι)} {targets reached : ℕ}

def budget (targets reached : ℕ) (mesh : Mesh B F) : ℕ :=
  (mesh.flight.map fun copy => weight targets reached copy.share).sum

theorem cost_eq (copies : List (Copy ι)) :
    cost targets reached copies
      = copies.length + (copies.map fun copy => weight targets reached copy.share).sum := by
  induction copies with
  | nil => rfl
  | cons copy copies ih =>
    unfold cost at ih ⊢
    rw [List.map_cons, List.sum_cons, ih, List.map_cons, List.sum_cons, List.length_cons]
    omega

variable [DecidableEq ι]

theorem pays (hreach : ∀ i destination, (reach i destination).length ≤ reached) (mesh : Mesh B F)
    (hports : ∀ i, (mesh.port i).targets ≤ targets) (move : Move B F)
    (h : ∀ copy now rules, move = .deliver copy now rules →
      Contained (reach copy.bbmd) (mesh.port copy.bbmd) now copy.share) :
    (mesh.step reach move).forwards.length + (mesh.step reach move).budget targets reached
      ≤ mesh.forwards.length + mesh.budget targets reached := by
  cases move with
  | host i tables => exact Nat.le_refl _
  | lose copy => exact Nat.add_le_add_left (sum_map_erase_le _ copy mesh.flight) _
  | deliver copy now rules =>
    unfold step budget
    dsimp only
    split_ifs with hflight
    · have hpays := BbmdPort.share_pays hreach copy.bbmd (mesh.port copy.bbmd) (hports copy.bbmd)
        copy.share now rules (h copy now rules rfl)
      rw [cost_eq] at hpays
      have herase := sum_map_erase (fun copy => weight targets reached copy.share) hflight
      rw [List.length_append, List.map_append, List.sum_append]
      omega
    · exact Nat.le_refl _

theorem step_targets (mesh : Mesh B F) (move : Move B F) (i : ι) :
    ((mesh.step reach move).port i).targets = (mesh.port i).targets := by
  cases move with
  | host j tables =>
    unfold step
    dsimp only
    by_cases hij : i = j
    · subst hij
      rw [Function.update_self]
    · rw [Function.update_of_ne hij]
  | lose copy => rfl
  | deliver copy now rules =>
    unfold step
    dsimp only
    split_ifs
    · dsimp only
      by_cases hij : i = copy.bbmd
      · subst hij
        rw [Function.update_self, BbmdPort.share_targets]
      · rw [Function.update_of_ne hij]
    · rfl

theorem run_pays (hreach : ∀ i destination, (reach i destination).length ≤ reached)
    (moves : List (Move B F)) :
    ∀ {mesh : Mesh B F}, (∀ i, (mesh.port i).targets ≤ targets) → ContainedRun reach mesh moves →
      (moves.foldl (step reach) mesh).forwards.length
        ≤ mesh.forwards.length + mesh.budget targets reached := by
  induction moves with
  | nil => exact fun _ _ => Nat.le_add_right _ _
  | cons move moves ih =>
    intro mesh hports hrun
    rw [List.foldl_cons]
    refine (ih (fun i => ?_) hrun.2).trans (pays hreach mesh hports move hrun.1)
    rw [step_targets]
    exact hports i

end Mesh

/-! ## Two BBMDs that are foreign devices of each other -/

/-- Two BBMDs with tables of two rows and one foreign device. -/
abbrev Pair : Type := Mesh (fun _ : Bool => 2) (fun _ : Bool => 1)

abbrev PairMove : Type := Move (fun _ : Bool => 2) (fun _ : Bool => 1)

def bounceAddress (i : Bool) : SocketAddr := ⟨⟨if i then 0x0A000202 else 0x0A000101⟩, 47808⟩

def bounceDevice : SocketAddr := ⟨⟨0x0A000105⟩, 47808⟩

/-- The tables of one: the other is its peer, and registered with it. -/
def bounceTables (i : Bool) : Tables 2 1 :=
  ((((Tables.new (bounceAddress i) : Tables 2 1).apply (.set [⟨bounceAddress !i, twoHopMask⟩])).2).serve
    (.register (bounceAddress !i) 60) 0 .permissive 1).2

def bouncePort (i : Bool) : BbmdPort 2 1 where
  address := bounceAddress i
  subnet := ⟨⟨⟨if i then 0x0A0002FF else 0x0A0001FF⟩, 47808⟩, none, true, none⟩
  tables := bounceTables i
  targets := 4
  rows := 1

/-- A network in which each BBMD is reached at its address alone. -/
def bounceReach (i : Bool) (destination : SocketAddr) : List (Receipt Bool) :=
  if destination = bounceAddress !i then [⟨!i, bounceAddress i, .unicast⟩] else []

/-- The device broadcasts, and the first BBMD hears it. -/
def bounceMesh : Pair where
  port := bouncePort
  flight := [⟨false, .originalBroadcast bounceDevice [1]⟩]
  forwards := []

/-- The forward of that broadcast on its way to `i`. -/
def bounceCopy (i : Bool) : Copy Bool :=
  ⟨i, .forwarded (bounceAddress !i) .unicast bounceDevice [1]⟩

theorem bounceTables_reached (i : Bool) : (bounceTables i).Reached := .serve _ _ _ _ (.apply _ (.new _))

theorem bounce_share (i : Bool) :
    (bouncePort i).share (bounceCopy i).share 0 .permissive
      = (bouncePort i, [(bounceAddress !i, .forwardedNpdu bounceDevice [1])]) := by
  cases i <;> decide +kernel

theorem bounce_copies (i : Bool) :
    [(bounceAddress !i, Bvll.forwardedNpdu bounceDevice [1])].flatMap (Mesh.copiesOf bounceReach i)
      = [bounceCopy !i] := by
  cases i <;> decide +kernel

theorem bounce_step (i : Bool) (forwards : List (Copy Bool)) :
    (⟨bouncePort, [bounceCopy i], forwards⟩ : Pair).step bounceReach
        (.deliver (bounceCopy i) 0 .permissive)
      = ⟨bouncePort, [bounceCopy !i], forwards ++ [bounceCopy !i]⟩ := by
  have hshare := bounce_share i
  have hcopies := bounce_copies i
  unfold Mesh.step
  dsimp only
  rw [if_pos (List.mem_singleton.mpr rfl)]
  show (⟨Function.update bouncePort i ((bouncePort i).share (bounceCopy i).share 0 .permissive).1,
    _ ++ (((bouncePort i).share (bounceCopy i).share 0 .permissive).2.flatMap _),
    _ ++ (((bouncePort i).share (bounceCopy i).share 0 .permissive).2.flatMap _)⟩ : Pair) = _
  rw [hshare, Function.update_eq_self]
  rw [show (bounceCopy i).bbmd = i from rfl, hcopies, List.erase_cons_head]
  rfl

theorem bounce_run (count : ℕ) (i : Bool) (forwards : List (Copy Bool)) :
    ∃ moves : List PairMove, count + forwards.length ≤
      (moves.foldl (Mesh.step bounceReach)
        (⟨bouncePort, [bounceCopy i], forwards⟩ : Pair)).forwards.length := by
  induction count generalizing i forwards with
  | zero => exact ⟨[], (Nat.zero_add _).le⟩
  | succ count ih =>
    obtain ⟨moves, hmoves⟩ := ih (!i) (forwards ++ [bounceCopy !i])
    refine ⟨.deliver (bounceCopy i) 0 .permissive :: moves, ?_⟩
    rw [List.foldl_cons, bounce_step]
    rw [List.length_append, List.length_singleton] at hmoves
    omega

theorem bounce_start :
    bounceMesh.step bounceReach (.deliver ⟨false, .originalBroadcast bounceDevice [1]⟩ 0 .permissive)
      = ⟨bouncePort, [bounceCopy true], [bounceCopy true]⟩ := by
  have hshare : (bouncePort false).share (.originalBroadcast bounceDevice [1]) 0 .permissive
      = (bouncePort false, [(bounceAddress true, .forwardedNpdu bounceDevice [1])]) := by
    decide +kernel
  have hcopies := bounce_copies false
  unfold Mesh.step bounceMesh
  dsimp only
  rw [if_pos (List.mem_singleton.mpr rfl), hshare, Function.update_eq_self]
  rw [show bounceAddress true = bounceAddress !false from rfl, hcopies, List.erase_cons_head]
  rfl

/-- A peer that is a foreign device too gets its own forward back, and one broadcast goes to and fro
for ever. -/
theorem bbmd_forwards_bounce :
    (bounceTables false).Reached ∧
      (bounceTables false).bdt.contains (bounceAddress true) = true ∧
      (∃ fanout, (bounceTables false).forwardedNpdu ⟨0, 1⟩ (bouncePort false).subnet
          (bounceAddress true) .unicast bounceDevice 4 = .ok fanout ∧
        fanout.targets = [⟨bounceAddress true, .foreignDevice⟩]) ∧
      ∀ count, ∃ moves : List PairMove, count ≤
        (moves.foldl (Mesh.step bounceReach) bounceMesh).forwards.length := by
  refine ⟨bounceTables_reached false, by decide +kernel, ⟨_, rfl, by decide +kernel⟩, fun count => ?_⟩
  obtain ⟨moves, hmoves⟩ := bounce_run count true [bounceCopy true]
  refine ⟨.deliver ⟨false, .originalBroadcast bounceDevice [1]⟩ 0 .permissive :: moves, ?_⟩
  rw [List.foldl_cons, bounce_start]
  omega

/-- When forwards stay apart: a forward that a BBMD accepts goes to no BDT row, its sender's among
them, exactly when its targets are apart from the rows; and where every forward is contained, so many
messages of one broadcast cause only so many forwards between BBMDs. -/
theorem bbmd_forwards_contained (B F : ℕ) (tables : Tables B F) (now : Instant)
    (subnet : LocalSubnet) (sender : SocketAddr) (arrival : Arrival) (origin : SocketAddr) (room : ℕ)
    (fanout : Fanout) :
    (tables.Reached → BbmdPort.maxTargets B F ≤ room →
        tables.forwardedNpdu ⟨now, F⟩ subnet sender arrival origin room = .ok fanout →
        ((∀ target ∈ fanout.targets, target.destination ≠ sender ∧
            ∀ row ∈ tables.bdt.rows, target.destination ≠ row.address) ↔
          tables.Apart now subnet sender arrival origin)) ∧
      ∀ (ι : Type) [DecidableEq ι] (B F : ι → ℕ) (reach : ι → SocketAddr → List (Receipt ι))
        (mesh : Mesh B F) (targets reached : ℕ) (moves : List (Move B F)),
        (∀ i destination, (reach i destination).length ≤ reached) →
        (∀ i, (mesh.port i).targets ≤ targets) →
        (∀ copy ∈ mesh.flight, ∃ source npdu, copy.share = .originalBroadcast source npdu) →
        mesh.forwards = [] → mesh.ContainedRun reach moves →
        (moves.foldl (Mesh.step reach) mesh).forwards.length
          ≤ mesh.flight.length * (targets * (reached * (1 + reached))) := by
  refine ⟨fun hreached hroom h => Tables.forwardedNpdu_apart hreached hroom h, ?_⟩
  intro ι _ B F reach mesh targets reached moves hreach hports hflight hforwards hrun
  have hpays := Mesh.run_pays hreach moves hports hrun
  rw [hforwards, List.length_nil, Nat.zero_add] at hpays
  refine hpays.trans ?_
  unfold Mesh.budget
  refine (List.sum_le_card_nsmul _ (targets * (reached * (1 + reached))) fun n hn => ?_).trans ?_
  · obtain ⟨copy, hcopy, rfl⟩ := List.mem_map.mp hn
    obtain ⟨source, npdu, hshare⟩ := hflight copy hcopy
    rw [hshare]
    exact Nat.le_refl _
  · rw [List.length_map]
    exact Nat.le_refl _

/-- A foreign device that is no BBMD. -/
def visitor : SocketAddr := ⟨⟨0x0A000305⟩, 47808⟩

/-- Each has its peer and the visitor, and other devices on its subnet. -/
def visitedPort (i : Bool) : BbmdPort 2 1 :=
  { bouncePort i with
    subnet := { (bouncePort i).subnet with alone := false }
    tables := (((Tables.new (bounceAddress i)).apply (.set [⟨bounceAddress !i, twoHopMask⟩])).2.serve
      (.register visitor 60) 0 .permissive 1).2 }

def visitedMesh : Pair := { bounceMesh with port := visitedPort }

/-- The broadcast, and its forward at the peer. -/
def visitedMoves : List PairMove :=
  [.deliver ⟨false, .originalBroadcast bounceDevice [1]⟩ 0 .permissive,
    .deliver (bounceCopy true) 1 .permissive]

theorem bbmd_forwards_contained_visited :
    (∃ fanout, (visitedPort false).tables.forwardedNpdu ⟨0, 1⟩ (visitedPort false).subnet
        (bounceAddress true) .unicast bounceDevice 4 = .ok fanout ∧
      fanout.targets.map Target.destination = [(visitedPort false).subnet.broadcast, visitor] ∧
      ∀ target ∈ fanout.targets, target.destination ≠ bounceAddress true ∧
        ∀ row ∈ (visitedPort false).tables.bdt.rows, target.destination ≠ row.address) ∧
    (visitedMesh.step bounceReach (.deliver ⟨false, .originalBroadcast bounceDevice [1]⟩ 0
        .permissive)).flight = [bounceCopy true] ∧
    (visitedMoves.foldl (Mesh.step bounceReach) visitedMesh).flight = [] ∧
    (visitedMoves.foldl (Mesh.step bounceReach) visitedMesh).forwards.length ≤ 8 := by
  refine ⟨⟨_, rfl, by decide +kernel, ?_⟩, by decide +kernel, by decide +kernel, ?_⟩
  · refine ((bbmd_forwards_contained 2 1 _ 0 _ _ .unicast _ 4 _).1 ?_ (Nat.le_refl 4) rfl).mpr ?_
    · exact .serve _ _ _ _ (.apply _ (.new _))
    · exact ⟨by decide +kernel, by decide +kernel⟩
  · refine (bbmd_forwards_contained 2 1 (.new visitor) 0 (visitedPort true).subnet visitor .unicast
      visitor 4 ⟨[], 0, false, 0⟩).2 Bool _ _ bounceReach visitedMesh 4 1 visitedMoves
      (fun i destination => ?_) (fun i => Nat.le_refl 4) (fun copy hcopy => ?_) rfl
      ⟨fun copy now rules hmove => ?_, fun copy now rules hmove => ?_, trivial⟩
    · unfold bounceReach
      split_ifs
      · exact Nat.le_refl 1
      · exact Nat.zero_le 1
    · rw [List.mem_singleton.mp hcopy]
      exact ⟨_, _, rfl⟩
    · cases hmove
      trivial
    · cases hmove
      exact ⟨by decide +kernel, by decide +kernel⟩

end RustyBacnet.Bip
