import Mathlib.Data.Finite.Prod
import Mathlib.Data.Set.Finite.Lattice
import RustyBacnet.Lib.Budget
import RustyBacnet.Router.Rejects

/-!
# Routed APDUs do not loop forever

1. `HopLaw` holds of what a received APDU makes a router send on: it has no DNET, or fewer hops left
   than the APDU had (`outputFor_hopLaw`).
2. In a network every send of the APDU puts copies on a link, one for each port attached to it. A
   copy with `hops` hops left can cause at most `spread fan reach hops` sends, whatever the routers'
   tables say and however they change: that is its budget.
3. Each send is paid for by the output it is a send of (`pays_poll`), and the output by the copy
   that the router received (`pays_deliver`).
-/

namespace RustyBacnet.Router

open Storage Budget

/-! ## One router -/

def carriesApdu : Kind → Bool
  | .forward => true
  | .global => true
  | _ => false

def hopsLeft (npdu : Npdu) : ℕ := npdu.destination.elim 0 fun _ => npdu.hopCount.toNat

/-- What an APDU with so many hops left makes a router send on. -/
def HopLaw (hops : ℕ) (sent : Npdu) (kind : Kind) (_ : RejectOrigin) : Prop :=
  carriesApdu kind = true → hopsLeft sent < hops

variable {kind : Kind}

theorem carriesApdu_own (h : ownKind kind = true) : carriesApdu kind = false := by
  cases kind <;> first | rfl | cases h

theorem hopLaw (hops : ℕ) : OutputLaw (HopLaw hops) where
  own := by
    intro npdu kind h hcarries
    rw [carriesApdu_own h.own] at hcarries
    cases hcarries
  bare := fun _ _ _ h => h

theorem hopsLeft_normalised (npdu : Npdu) : hopsLeft npdu.normalised = hopsLeft npdu := by
  unfold hopsLeft Npdu.normalised
  cases npdu.destination <;> rfl

theorem sub_one_lt {hops : UInt8} (h : hops ≠ 0) : (hops - 1).toNat < hops.toNat := by
  have hpos : hops.toNat ≠ 0 := fun hzero => h (UInt8.toNat_inj.mp hzero)
  have hle : 1 ≤ hops := UInt8.le_iff_toNat_le.mpr (by rw [UInt8.toNat_one]; omega)
  rw [UInt8.toNat_sub_of_le hops 1 hle, UInt8.toNat_one]
  omega

variable {npdu : Npdu} {origin : RejectOrigin} {target : Target} {frame : Frame}

theorem outputFor_hopLaw {sent : Npdu} (hdecode : Npdu.decode frame.npdu = .ok npdu)
    (h : OutputFor frame sent kind target origin) : HopLaw (hopsLeft npdu) sent kind origin := by
  obtain ⟨at_, other, _, hother, hout⟩ := h
  rw [hdecode] at hother
  cases hother
  intro hcarries
  unfold hopsLeft
  cases hout with
  | forward hdestination hhop hnext horigin =>
    rw [hdestination]
    unfold rewrite
    split_ifs
    · exact Nat.pos_of_ne_zero fun hzero => hhop (UInt8.toNat_inj.mp hzero)
    · exact sub_one_lt hhop
  | global hdestination hhop htype =>
    rw [hdestination]
    refine sub_one_lt fun hzero => ?_
    rw [hzero] at hhop
    exact absurd hhop (by decide)
  | relay hkind hreject hsent hdestination => cases hcarries

theorem polls_hopLaw {R H D B : ℕ} {G : Type} [GroupClassifier G] (s : Storage R H D B G)
    (now : Instant) (options : Options) (host : Claim → Bool)
    (hdecode : Npdu.decode frame.npdu = .ok npdu) (count : ℕ) :
    ∀ send ∈ (s.receive frame now options host).1.polls count, Sent (HopLaw (hopsLeft npdu)) send := by
  have hloaded : Loaded (s.receive frame now options host).1 (HopLaw (hopsLeft npdu)) :=
    (receive_leaves s frame now options host).loaded (loaded_dropUndrained s)
      fun _ _ _ _ => outputFor_hopLaw hdecode
  refine polls_sent (I := fun s => Loaded s (HopLaw (hopsLeft npdu))) (fun s hs => ?_) count hloaded
  have hok := poll_ok (hopLaw _) hs
  exact ⟨hok.2.1, hok⟩

/-! ## A network -/

/-- A copy of an APDU's NPDU on its way to a port. -/
structure Copy (ι : Type) where
  router : ι
  port : PortId
  npdu : List UInt8
  deriving DecidableEq

/-- Routers on shared links, with the copies of an APDU on these. -/
structure Mesh {ι : Type} (R H D B : ι → ℕ) (G : ι → Type) where
  router : ∀ i, Engine (R i) (H i) (D i) (B i) (G i)
  /-- The hops the APDU had left, where the last frame a router received is a copy of it. -/
  handling : ι → Option ℕ
  flight : List (Copy ι)
  /-- The sends of the APDU. -/
  sent : List Send

/-- What happens in a network: a router takes a call, which may be a frame from elsewhere, or a copy
is delivered, from any link address, or lost. -/
inductive Move (ι : Type) where
  | call (i : ι) (call : Call)
  | deliver (copy : Copy ι) (source : List UInt8) (linkGroup : Bool) (now : Instant)
      (host : Claim → Bool)
  | lose (copy : Copy ι)

def hopsOf (octets : List UInt8) : Option ℕ := (Npdu.decode octets).toOption.map hopsLeft

namespace Mesh

variable {ι : Type} {R H D B : ι → ℕ} {G : ι → Type} {mesh : Mesh R H D B G}

/-- The router a call leaves is at work on the APDU while no other frame arrives. -/
def handlingAfter (mesh : Mesh R H D B G) (i : ι) : Call → Option ℕ
  | .receive _ _ _ => none
  | _ => mesh.handling i

def sends (mesh : Mesh R H D B G) (i : ι) (reply : Reply) : List Send :=
  if (mesh.handling i).isSome then reply.sends.filter fun send => carriesApdu send.kind else []

/-- The copies a send puts on a link, for each other port of it as `links` lists them. -/
def copiesOf (links : ι → PortId → List (ι × PortId)) (i : ι) (send : Send) : List (Copy ι) :=
  (links i send.port).map fun (j, port) => ⟨j, port, send.npdu⟩

variable [∀ i, GroupClassifier (G i)] [DecidableEq ι]

def step (links : ι → PortId → List (ι × PortId)) (mesh : Mesh R H D B G) :
    Move ι → Mesh R H D B G
  | .call i call =>
    let (router, reply) := (mesh.router i).step call
    let sends := mesh.sends i reply
    { router := Function.update mesh.router i router
      handling := Function.update mesh.handling i (mesh.handlingAfter i call)
      flight := mesh.flight ++ sends.flatMap (copiesOf links i)
      sent := mesh.sent ++ sends }
  | .deliver copy source linkGroup now host =>
    if copy ∈ mesh.flight then
      let frame : Frame := ⟨copy.port, source, linkGroup, copy.npdu⟩
      { router := Function.update mesh.router copy.router
          ((mesh.router copy.router).step (.receive frame now host)).1
        handling := Function.update mesh.handling copy.router (hopsOf copy.npdu)
        flight := mesh.flight.erase copy
        sent := mesh.sent }
    else mesh
  | .lose copy => { mesh with flight := mesh.flight.erase copy }

end Mesh

/-! ## The budget -/

variable {hops : ℕ} {call : Call} {send : Send}

section Owed

variable {R H D B : ℕ} {G : Type} {s t : Storage R H D B G} {fan reach : ℕ}

def weight {ι : Type} (fan reach : ℕ) (copy : Copy ι) : ℕ :=
  (hopsOf copy.npdu).elim 0 (spread fan reach)

/-- What the current output of a router may cost, at work on an APDU with so many hops left. -/
def owed (fan reach : ℕ) (s : Storage R H D B G) : Option ℕ → ℕ
  | some (hops + 1) =>
    if carriesApdu s.out.current.kind then s.sendsLeft * (1 + reach * spread fan reach hops) else 0
  | _ => 0

theorem owed_of_spent (h : s.sendsLeft = 0 ∨ carriesApdu s.out.current.kind = false)
    (handling : Option ℕ) : owed fan reach s handling = 0 := by
  unfold owed
  split
  · split_ifs with hkind
    · rw [h.resolve_right (by rw [hkind]; decide), Nat.zero_mul]
    · rfl
  · rfl

theorem owed_quiet (h : Quiet s t) (handling : Option ℕ) :
    owed fan reach t handling = owed fan reach s handling := by
  unfold owed sendsLeft
  rw [h.current, h.ports]

theorem sendsLeft_dropUndrained (s : Storage R H D B G) : s.dropUndrained.sendsLeft = 0 :=
  sendsLeft_spent (drained_iff.mp (drained_dropUndrained s)).2

theorem sendsLeft_quiet (h : Quiet s t) : t.sendsLeft = s.sendsLeft := by
  unfold sendsLeft
  rw [h.current, h.ports]

theorem sendsLeft_wrote (h : Wrote s t npdu kind target origin) :
    t.sendsLeft ≤ t.ports.length + 1 := by
  have hcurrent : t.out.current = currentOf npdu kind target origin := by rw [h.out]
  have htail : t.out.current.tail = 0 := by
    rw [hcurrent]
    exact new_tail _ _ _ _ _
  unfold sendsLeft
  rw [htail]
  split_ifs
  · simp
    omega
  · omega
  · omega

theorem owed_receive [GroupClassifier G] (s : Storage R H D B G) (frame : Frame) (now : Instant)
    (options : Options) (host : Claim → Bool) (hfan : s.ports.length < fan) :
    owed fan reach (s.receive frame now options host).1 (hopsOf frame.npdu)
      ≤ (hopsOf frame.npdu).elim 0 (spread fan reach) := by
  have hports := (receive_leaves s frame now options host).ports
  cases receive_leaves s frame now options host with
  | queued tasks hq _ =>
    rw [owed_of_spent (.inl ((sendsLeft_quiet hq.quiet).trans (sendsLeft_dropUndrained s)))]
    exact Nat.zero_le _
  | wrote npdu kind target origin hwrote hw =>
    have hleft := sendsLeft_wrote hwrote
    rw [hports, dropUndrained_ports] at hleft
    cases hhops : hopsOf frame.npdu with
    | none => exact Nat.zero_le _
    | some hops =>
      cases hops with
      | zero => exact Nat.zero_le _
      | succ hops =>
        unfold owed
        split_ifs
        · rw [Option.elim_some, spread_succ]
          exact Nat.mul_le_mul_right _ (by omega)
        · exact Nat.zero_le _

/-- No call but a poll and a received frame makes a router owe more. -/
theorem owed_call [GroupClassifier G] (router : Engine R H D B G) (hpoll : call ≠ .poll)
    (hreceive : ∀ frame now host, call ≠ .receive frame now host) (handling : Option ℕ) :
    owed fan reach (router.step call).1.storage handling
      ≤ owed fan reach router.storage handling := by
  have hdropped : ∀ {s t : Storage R H D B G}, Quiet s.dropUndrained t →
      owed fan reach t handling = 0 := by
    intro s t hq
    exact owed_of_spent (.inl ((sendsLeft_quiet hq).trans (sendsLeft_dropUndrained s))) handling
  by_cases hquiet : call.quiet = true
  · exact (owed_quiet (router.step_quiet hquiet) handling).le
  cases call with
  | start => exact (hdropped (quiet_push _ _)).trans_le (Nat.zero_le _)
  | announcePort port =>
    unfold Engine.step
    dsimp only
    split_ifs
    · exact (hdropped (quiet_push _ _)).trans_le (Nat.zero_le _)
    · exact le_rfl
  | receive frame now host => exact absurd rfl (hreceive frame now host)
  | originate request now =>
    have hown : OutputLaw fun _ kind _ => ownKind kind = true :=
      ⟨fun _ _ h => h.own, fun _ _ _ h => h⟩
    have hrequest := originate_requested (router.clocked now) request (router.clocked now).latest
      router.options
    have hloaded := hrequest.loaded hown (loaded_dropUndrained _)
    refine (owed_of_spent ?_ handling).trans_le (Nat.zero_le _)
    by_cases hmore : (router.step (.originate request now)).1.storage.out.current.hasMore
        (router.step (.originate request now)).1.storage.ports.length = true
    · obtain ⟨_, _, hkind, _⟩ := hloaded hmore
      exact .inr (carriesApdu_own hkind)
    · exact .inl (sendsLeft_spent (Bool.eq_false_of_not_eq_true hmore))
  | poll => exact absurd rfl hpoll
  | _ => exact absurd rfl hquiet

/-- A send of the APDU pays for itself and for the copies of it. -/
theorem owed_send (hfan : 0 < fan) (hreach : 0 < reach) (hloaded : Loaded s (HopLaw hops))
    (hpoll : s.poll.2 = .send send) (hcarries : carriesApdu send.kind = true) :
    ∃ rest, owed fan reach s.poll.1 (some hops) + (1 + reach * rest)
        ≤ owed fan reach s (some hops) ∧
      (hopsOf send.npdu).elim 0 (spread fan reach) ≤ rest := by
  obtain ⟨_, _, hok⟩ := poll_ok (hopLaw hops) hloaded
  generalize s.poll = polled at hpoll hok ⊢
  obtain ⟨t, action⟩ := polled
  subst hpoll
  obtain ⟨⟨npdu, hof⟩, hwent | hown⟩ := hok
  · obtain ⟨origin, hlaw, _, _⟩ := hof.allowed
    have hlt := hlaw hcarries
    have hhops : hopsOf send.npdu = some (hopsLeft npdu) := by
      unfold hopsOf
      rw [hof.octets, Npdu.decode_wire hof.encodable]
      exact congrArg some (hopsLeft_normalised npdu)
    cases hops with
    | zero => exact absurd hlt (Nat.not_lt_zero _)
    | succ hops =>
      have hkind : carriesApdu t.out.current.kind = true := by
        rw [← hof.kind]
        exact hcarries
      refine ⟨spread fan reach hops, ?_, ?_⟩
      · unfold owed
        dsimp only
        rw [if_pos hkind, if_pos (by rw [← hwent.kind]; exact hkind)]
        calc t.sendsLeft * (1 + reach * spread fan reach hops) + (1 + reach * spread fan reach hops)
            = (t.sendsLeft + 1) * (1 + reach * spread fan reach hops) := (Nat.succ_mul _ _).symm
          _ ≤ s.sendsLeft * (1 + reach * spread fan reach hops) :=
            Nat.mul_le_mul_right _ hwent.left
      · rw [hhops]
        exact spread_mono hfan hreach (Nat.lt_succ_iff.mp hlt)
  · rw [hof.kind, carriesApdu_own hown.kind] at hcarries
    cases hcarries

theorem owed_poll (hloaded : Loaded s (HopLaw hops))
    (hother : ∀ send, s.poll.2 = .send send → carriesApdu send.kind = false) :
    owed fan reach s.poll.1 (some hops) ≤ owed fan reach s (some hops) := by
  obtain ⟨_, _, hok⟩ := poll_ok (hopLaw hops) hloaded
  generalize s.poll = polled at hother hok ⊢
  obtain ⟨t, action⟩ := polled
  refine (owed_of_spent ?_ (some hops)).trans_le (Nat.zero_le _)
  cases action with
  | idle => exact .inl (sendsLeft_spent (hasMore_inactive hok.2 _))
  | send send =>
    obtain ⟨⟨npdu, hof⟩, _⟩ := hok
    rw [← hof.kind]
    exact .inr (hother send rfl)

end Owed

namespace Mesh

variable {ι : Type} {R H D B : ι → ℕ} {G : ι → Type} {mesh : Mesh R H D B G} {fan reach : ℕ}

/-- The invariant of a mesh whose routers have fewer than `fan` ports. -/
structure Good (fan : ℕ) (mesh : Mesh R H D B G) : Prop where
  loaded : ∀ i, Loaded (mesh.router i).storage fun _ _ _ => True
  hops : ∀ i hops, mesh.handling i = some hops → Loaded (mesh.router i).storage (HopLaw hops)
  fan : ∀ i, (mesh.router i).storage.ports.length < fan

def budget [Fintype ι] (fan reach : ℕ) (mesh : Mesh R H D B G) : ℕ :=
  (mesh.flight.map (weight fan reach)).sum
    + ∑ i, owed fan reach (mesh.router i).storage (mesh.handling i)

variable {links : ι → PortId → List (ι × PortId)}

theorem weight_copiesOf (hlinks : ∀ i port, (links i port).length ≤ reach) {i : ι} {rest : ℕ}
    (h : (hopsOf send.npdu).elim 0 (spread fan reach) ≤ rest) :
    ((copiesOf links i send).map (weight fan reach)).sum ≤ reach * rest := by
  calc ((copiesOf links i send).map (weight fan reach)).sum
      ≤ ((copiesOf links i send).map (weight fan reach)).length • rest := by
        refine List.sum_le_card_nsmul _ rest fun cost hcost => ?_
        obtain ⟨copy, hcopy, rfl⟩ := List.mem_map.mp hcost
        obtain ⟨place, _, rfl⟩ := List.mem_map.mp hcopy
        exact h
    _ = (links i send.port).length * rest := by
        rw [List.length_map, copiesOf, List.length_map]
        rfl
    _ ≤ reach * rest := Nat.mul_le_mul_right _ (hlinks i send.port)

variable [∀ i, GroupClassifier (G i)]

theorem sends_cases (mesh : Mesh R H D B G) (i : ι) (call : Call) :
    mesh.sends i ((mesh.router i).step call).2 = [] ∨
      ∃ send hops, mesh.sends i ((mesh.router i).step call).2 = [send] ∧ call = .poll ∧
        mesh.handling i = some hops ∧ (mesh.router i).storage.poll.2 = .send send ∧
        carriesApdu send.kind = true := by
  unfold sends
  split_ifs with hhandling
  · obtain ⟨hops, hhops⟩ := Option.isSome_iff_exists.mp hhandling
    cases hreply : ((mesh.router i).step call).2.sends.filter fun send => carriesApdu send.kind with
    | nil => exact .inl rfl
    | cons send others =>
      have hmem : send ∈ ((mesh.router i).step call).2.sends.filter
          fun send => carriesApdu send.kind := by
        rw [hreply]
        exact List.mem_cons_self
      obtain ⟨hsends, hcarries⟩ := List.mem_filter.mp hmem
      have hsend := Reply.mem_sends hsends
      obtain ⟨rfl, _⟩ := Engine.step_send hsend
      rw [hsend] at hreply
      simp only [Reply.sends, List.filter_cons, hcarries, if_true, List.filter_nil,
        List.cons.injEq, true_and] at hreply
      subst hreply
      refine .inr ⟨send, hops, rfl, rfl, hhops, ?_, hcarries⟩
      exact Reply.action.inj hsend
  · exact .inl rfl

/-- A call pays for what it sends. -/
theorem pays_call (h : Good fan mesh) (hlinks : ∀ i port, (links i port).length ≤ reach)
    (hreach : 0 < reach) (i : ι) (call : Call) :
    (mesh.sends i ((mesh.router i).step call).2).length
      + (((mesh.sends i ((mesh.router i).step call).2).flatMap (copiesOf links i)).map
          (weight fan reach)).sum
      + owed fan reach ((mesh.router i).step call).1.storage (mesh.handlingAfter i call)
      ≤ owed fan reach (mesh.router i).storage (mesh.handling i) := by
  rcases mesh.sends_cases i call with hnone | ⟨send, hops, hsend, rfl, hhops, hpoll, hcarries⟩
  · rw [hnone]
    simp only [List.length_nil, List.flatMap_nil, List.map_nil, List.sum_nil, Nat.zero_add]
    by_cases hreceive : ∃ frame now host, call = .receive frame now host
    · obtain ⟨frame, now, host, rfl⟩ := hreceive
      exact Nat.zero_le _
    have hafter : mesh.handlingAfter i call = mesh.handling i := by
      cases call with
      | receive frame now host => exact absurd ⟨frame, now, host, rfl⟩ hreceive
      | _ => rfl
    rw [hafter]
    by_cases hpoll : call = .poll
    · subst hpoll
      cases hhops : mesh.handling i with
      | none => exact Nat.zero_le _
      | some hops =>
        refine owed_poll (h.hops i hops hhops) fun send hsend => ?_
        unfold sends at hnone
        rw [hhops, if_pos (Option.isSome_some),
          show ((mesh.router i).step .poll).2 = .action (.send send) from
            congrArg Reply.action hsend] at hnone
        simpa [Reply.sends, List.filter_cons] using hnone
    · exact owed_call _ hpoll (fun frame now host heq => hreceive ⟨frame, now, host, heq⟩) _
  · have hfan : 0 < fan := (Nat.zero_le _).trans_lt (h.fan i)
    obtain ⟨rest, howed, hrest⟩ := owed_send hfan hreach (h.hops i hops hhops) hpoll hcarries
    have hcopies := weight_copiesOf hlinks (i := i) hrest
    rw [hsend]
    simp only [List.length_singleton, List.flatMap_singleton]
    rw [show mesh.handlingAfter i .poll = some hops from hhops, hhops]
    have hstep : ((mesh.router i).step .poll).1.storage = (mesh.router i).storage.poll.1 := rfl
    rw [hstep]
    omega

/-! ### Moves -/

theorem loaded_call (h : Good fan mesh) (i : ι) (hhandling : mesh.handlingAfter i call = some hops)
    : Loaded ((mesh.router i).step call).1.storage (HopLaw hops) := by
  have hcall : (∀ frame now host, call ≠ .receive frame now host) ∧
      mesh.handling i = some hops := by
    cases call with
    | receive frame now host => cases hhandling
    | _ => exact ⟨fun _ _ _ => Call.noConfusion, hhandling⟩
  refine Engine.step_loaded (hopLaw hops) _ call ?_ (h.hops i hops hcall.2)
  intro frame now host heq
  exact absurd heq (hcall.1 frame now host)

theorem loaded_deliver {i : ι} (router : Engine (R i) (H i) (D i) (B i) (G i)) (frame : Frame)
    (now : Instant) (host : Claim → Bool) (hhops : hopsOf frame.npdu = some hops) :
    Loaded (router.step (.receive frame now host)).1.storage (HopLaw hops) := by
  unfold hopsOf at hhops
  cases hdecode : Npdu.decode frame.npdu with
  | error fault =>
    rw [hdecode] at hhops
    cases hhops
  | ok npdu =>
    rw [hdecode] at hhops
    cases hhops
    exact router.receive_loaded frame now host fun _ _ _ _ => outputFor_hopLaw hdecode

variable [DecidableEq ι]

/-- One router takes a call, and is at work on an APDU if what it may send on meets the law. -/
theorem Good.one (h : Good fan mesh) (i : ι) (call : Call) (handling : Option ℕ)
    (flight : List (Copy ι)) (sent : List Send)
    (hhandling : ∀ hops, handling = some hops →
      Loaded ((mesh.router i).step call).1.storage (HopLaw hops)) :
    Good fan ⟨Function.update mesh.router i ((mesh.router i).step call).1,
      Function.update mesh.handling i handling, flight, sent⟩ := by
  constructor
  all_goals
    intro j
    dsimp only
    by_cases hj : j = i
  · subst hj
    rw [Function.update_self]
    exact Engine.step_loaded anyLaw _ call (fun _ _ _ _ _ _ _ _ _ => trivial) (h.loaded j)
  · rw [Function.update_of_ne hj]
    exact h.loaded j
  · subst hj
    rw [Function.update_self, Function.update_self]
    exact hhandling
  · rw [Function.update_of_ne hj, Function.update_of_ne hj]
    exact h.hops j
  · subst hj
    rw [Function.update_self, Engine.step_ports anyLaw _ call (h.loaded j)]
    exact h.fan j
  · rw [Function.update_of_ne hj]
    exact h.fan j

theorem good_step (links : ι → PortId → List (ι × PortId)) (h : Good fan mesh) (move : Move ι) :
    Good fan (mesh.step links move) := by
  cases move with
  | call i call => exact h.one i call _ _ _ fun hops => loaded_call h i
  | deliver copy source linkGroup now host =>
    unfold step
    dsimp only
    split_ifs
    · exact h.one copy.router _ _ _ _ fun hops =>
        loaded_deliver _ ⟨copy.port, source, linkGroup, copy.npdu⟩ now host
    · exact h
  | lose copy => exact ⟨h.loaded, h.hops, h.fan⟩

variable [Fintype ι]

/-- One move pays for the sends it makes. -/
theorem pays_step (h : Good fan mesh) (hlinks : ∀ i port, (links i port).length ≤ reach)
    (hreach : 0 < reach) (move : Move ι) :
    (mesh.step links move).sent.length + (mesh.step links move).budget fan reach
      ≤ mesh.sent.length + mesh.budget fan reach := by
  -- What the routers owe changes at one router only.
  have hsum : ∀ (i : ι) (router : Engine (R i) (H i) (D i) (B i) (G i)) (handling : Option ℕ),
      ∑ j, owed fan reach (Function.update mesh.router i router j).storage
          (Function.update mesh.handling i handling j)
        + owed fan reach (mesh.router i).storage (mesh.handling i)
      = ∑ j, owed fan reach (mesh.router j).storage (mesh.handling j)
        + owed fan reach router.storage handling := by
    intro i router handling
    have := sum_change (f := fun j => owed fan reach (mesh.router j).storage (mesh.handling j))
      (g := fun j => owed fan reach (Function.update mesh.router i router j).storage
        (Function.update mesh.handling i handling j)) i fun j hj => by
          rw [Function.update_of_ne hj, Function.update_of_ne hj]
    rw [this, Function.update_self, Function.update_self]
  unfold budget
  cases move with
  | call i call =>
    have hpays := pays_call h hlinks hreach i call
    have hchange := hsum i ((mesh.router i).step call).1 (mesh.handlingAfter i call)
    unfold step
    dsimp only
    rw [List.length_append, List.map_append, List.sum_append]
    omega
  | deliver copy source linkGroup now host =>
    unfold step
    dsimp only
    split_ifs with hmem
    · have hpays : owed fan reach _ _ ≤ _ := owed_receive ((mesh.router copy.router).clocked now)
        ⟨copy.port, source, linkGroup, copy.npdu⟩ ((mesh.router copy.router).clocked now).latest
        (mesh.router copy.router).options host (h.fan copy.router)
      have hchange := hsum copy.router ((mesh.router copy.router).step
        (.receive ⟨copy.port, source, linkGroup, copy.npdu⟩ now host)).1 (hopsOf copy.npdu)
      have hflight := sum_map_erase (weight fan reach) hmem
      have hweight : owed fan reach ((mesh.router copy.router).step
          (.receive ⟨copy.port, source, linkGroup, copy.npdu⟩ now host)).1.storage
          (hopsOf copy.npdu) ≤ weight fan reach copy := hpays
      dsimp only
      omega
    · exact le_rfl
  | lose copy =>
    have hflight := sum_map_erase_le (weight fan reach) copy mesh.flight
    unfold step
    dsimp only
    omega

def certificate {links : ι → PortId → List (ι × PortId)}
    (hlinks : ∀ i port, (links i port).length ≤ reach) (hreach : 0 < reach) (fan : ℕ) :
    Certificate (step (R := R) (H := H) (D := D) (B := B) (G := G) links)
      fun mesh => mesh.sent.length where
  inv := Good fan
  budget := budget fan reach
  keeps := fun _ move h => good_step links h move
  pays := fun _ move h => pays_step h hlinks hreach move

instance : Finite PortId :=
  Finite.of_injective (fun port => (⟨port.index.toNat, port.index.toNat_lt⟩ : Fin 256))
    fun port other h => by
      obtain ⟨index⟩ := port
      obtain ⟨other⟩ := other
      rw [PortId.mk.injEq]
      exact UInt8.toNat_inj.mp (congrArg Fin.val h)

omit [∀ i, GroupClassifier (G i)] [DecidableEq ι] in
theorem exists_reach (links : ι → PortId → List (ι × PortId)) :
    ∃ reach, 0 < reach ∧ ∀ i port, (links i port).length ≤ reach := by
  obtain ⟨most, hmost⟩ :=
    (Set.finite_range fun place : ι × PortId => (links place.1 place.2).length).bddAbove
  refine ⟨most + 1, Nat.succ_pos _, fun i port => ?_⟩
  exact (hmost (Set.mem_range_self (i, port))).trans (Nat.le_succ _)

omit [∀ i, GroupClassifier (G i)] [DecidableEq ι] in
theorem exists_fan (mesh : Mesh R H D B G) :
    ∃ fan, ∀ i, (mesh.router i).storage.ports.length < fan := by
  obtain ⟨most, hmost⟩ :=
    (Set.finite_range fun i => (mesh.router i).storage.ports.length).bddAbove
  exact ⟨most + 1, fun i => Nat.lt_succ_of_le (hmost (Set.mem_range_self i))⟩

/-- An APDU is sent on with no DNET or with fewer hops left, and never without a DNET; so the copies
of one in a network of routers, whatever their tables, cause finitely many sends. -/
theorem apdu_sends_finite :
    (∀ (i : ι) (s : Storage (R i) (H i) (D i) (B i) (G i)) (frame : Frame) (npdu : Npdu)
      (now : Instant) (options : Options) (host : Claim → Bool),
      Npdu.decode frame.npdu = .ok npdu → npdu.messageType = none →
        ∀ count, ∀ send ∈ (s.receive frame now options host).1.polls count,
          send.kind = .forward ∨ send.kind = .global →
            npdu.destination.isSome ∧ ∃ sent, Npdu.decode send.npdu = .ok sent ∧
              (sent.destination = none ∨ sent.hopCount < npdu.hopCount)) ∧
    ∀ (links : ι → PortId → List (ι × PortId)) (mesh : Mesh R H D B G),
      (∀ i, (mesh.router i).Reachable) → (∀ i, mesh.handling i = none) → mesh.sent = [] →
        ∃ bound, ∀ moves : List (Move ι), (moves.foldl (step links) mesh).sent.length ≤ bound := by
  constructor
  · intro i s frame npdu now options host hdecode _ count send hsend hkind
    obtain ⟨sent, origin, henc, hoctets, hlaw, _⟩ :=
      polls_hopLaw s now options host hdecode count send hsend
    have hlt := hlaw (by rcases hkind with h | h <;> rw [h] <;> rfl)
    rw [← hopsLeft_normalised] at hlt
    refine ⟨?_, sent.normalised, by rw [hoctets]; exact Npdu.decode_wire henc, ?_⟩
    · cases hdestination : npdu.destination with
      | none =>
        unfold hopsLeft at hlt
        rw [hdestination] at hlt
        exact absurd hlt (Nat.not_lt_zero _)
      | some destination => rfl
    · cases hdestination : sent.normalised.destination with
      | none => exact .inl rfl
      | some destination =>
        right
        unfold hopsLeft at hlt
        rw [hdestination, Option.elim_some] at hlt
        refine UInt8.lt_iff_toNat_lt.mpr (hlt.trans_le ?_)
        cases npdu.destination with
        | none => exact Nat.zero_le _
        | some _ => exact le_rfl
  · intro links mesh hrouters hhandling hsent
    obtain ⟨reach, hreach, hlinks⟩ := exists_reach links
    obtain ⟨fan, hfan⟩ := mesh.exists_fan
    have hgood : Good fan mesh := by
      refine ⟨fun i => (hrouters i).loaded, fun i hops h => ?_, hfan⟩
      rw [hhandling i] at h
      cases h
    exact ⟨_, fun moves => (certificate hlinks hreach fan).run_le moves hgood⟩

/-- Two routers between the same networks, each of which would reach network 9 through the other. -/
def ringMesh : Mesh (fun _ : Bool => 4) (fun _ => 2) (fun _ => 2) (fun _ => 4) fun _ => Groups where
  router i := ((Engine.bench .standard Engine.bench_standard).step
    (.table (.addLearned 9 ⟨if i then 0 else 1⟩ (macOrEmpty [6]) 0))).1
  handling := fun _ => none
  flight := [⟨false, ⟨0⟩, [1, 0x20, 0, 9, 1, 5, 4, 0x10, 8]⟩]
  sent := []

def ringLinks (i : Bool) (port : PortId) : List (Bool × PortId) := [(!i, port)]

/-- An APDU of station 7 for network 9, with so many hops left. -/
def ringApdu (hops : UInt8) : List UInt8 := [1, 0x28, 0, 9, 1, 5, 0, 1, 1, 7, hops, 0x10, 8]

def ringHop (i : Bool) (npdu : List UInt8) : List (Move Bool) :=
  [.deliver ⟨i, ⟨if i then 1 else 0⟩, npdu⟩ [7] false 0 fun _ => true, .call i .poll, .call i .poll]

/-- The copies go round until no hop is left. -/
def ringMoves : List (Move Bool) :=
  ringHop false [1, 0x20, 0, 9, 1, 5, 4, 0x10, 8] ++ ringHop true (ringApdu 3)
    ++ ringHop false (ringApdu 2) ++ ringHop true (ringApdu 1)

theorem apdu_sends_finite_ring :
    ((ringMoves.foldl (step ringLinks) ringMesh).sent.map Send.npdu
        = [ringApdu 3, ringApdu 2, ringApdu 1] ∧
      (ringMoves.foldl (step ringLinks) ringMesh).flight.length = 0) ∧
    ∃ bound, ∀ moves : List (Move Bool),
      (moves.foldl (step ringLinks) ringMesh).sent.length ≤ bound := by
  refine ⟨by decide +kernel, apdu_sends_finite.2 _ ringMesh (fun i => ?_) (fun _ => rfl) rfl⟩
  exact .step (.new (Engine.new_bench .standard Engine.bench_standard)) _

end Mesh

end RustyBacnet.Router
