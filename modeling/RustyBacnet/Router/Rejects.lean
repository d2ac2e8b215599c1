import RustyBacnet.Router.Sending

/-!
# A reject draws no reject

1. A frame that is a reject queues nothing (`receive_leaves`), and what it makes the router write is
   the reject itself, with no return path. This needs no invariant of the router.
2. `RejectLaw` holds of every current output: a reject has no return path, and an output of kind
   reject is a reject. So a poll that sends a reject leaves nothing for a refusal to answer.
3. In a network of routers the copies of a generated reject are those that routers at work on a copy
   send on. Each is a reject again, so 1 and 2 apply to each.
-/

namespace RustyBacnet.Router

open Storage

/-- Octets that decode as a Reject-Message-To-Network. -/
def IsReject (octets : List UInt8) : Prop :=
  ∃ npdu, Npdu.decode octets = .ok npdu ∧ npdu.messageType = some .rejectMessageToNetwork

/-- A reject has no return path, and an output of kind reject is a reject. -/
structure RejectLaw (npdu : Npdu) (kind : Kind) (origin : RejectOrigin) : Prop where
  origin : npdu.messageType = some .rejectMessageToNetwork → origin.asOption = none
  reject : ∀ reason, kind = .reject reason → npdu.messageType = some .rejectMessageToNetwork

/-- What is sent on is a reject. -/
def ForwardsReject (npdu : Npdu) (kind : Kind) (_ : RejectOrigin) : Prop :=
  kind = .forward → npdu.messageType = some .rejectMessageToNetwork

/-! ## Laws -/

theorem rejectLaw : OutputLaw RejectLaw where
  own := fun _ _ h => ⟨fun _ => rfl, h.reject⟩
  bare := fun _ _ _ h => ⟨h.origin, h.reject⟩

theorem forwardsReject : OutputLaw ForwardsReject where
  own := by
    rintro npdu kind h rfl
    cases h.own
  bare := fun _ _ _ h => h

theorem rewrite_messageType (at_ : Arrival) (npdu : Npdu) (route : Route) :
    (rewrite at_ npdu route).1.messageType = npdu.messageType := by
  unfold rewrite
  split_ifs <;> rfl

variable {frame : Frame} {origin : RejectOrigin} {target : Target} {sent : Npdu} {kind : Kind}

theorem outputFor_rejectLaw (h : OutputFor frame sent kind target origin) :
    RejectLaw sent kind origin := by
  obtain ⟨at_, npdu, _, _, hout⟩ := h
  cases hout with
  | forward hdestination hhop hnext horigin =>
    refine ⟨?_, fun _ => Kind.noConfusion⟩
    intro hreject
    rw [rewrite_messageType] at hreject
    rw [horigin (by unfold eligible; rw [show npdu.messageType = _ from hreject]; rfl)]
    rfl
  | global hdestination hhop htype => exact ⟨fun _ => rfl, fun _ => Kind.noConfusion⟩
  | relay hkind hreject hsent hdestination => exact ⟨fun _ => rfl, fun _ => Kind.noConfusion⟩

theorem outputFor_reject (hframe : IsReject frame.npdu)
    (h : OutputFor frame sent kind target origin) :
    kind = .forward ∧ sent.messageType = some .rejectMessageToNetwork := by
  obtain ⟨at_, npdu, _, hdecode, hout⟩ := h
  obtain ⟨other, hother, hreject⟩ := hframe
  rw [hdecode] at hother
  cases hother
  cases hout with
  | forward hdestination hhop hnext horigin =>
    refine ⟨rfl, ?_⟩
    rw [rewrite_messageType]
    exact hreject
  | global hdestination hhop htype =>
    rw [hreject] at htype
    cases htype
  | relay hkind hother hsent hdestination =>
    rw [hreject] at hkind
    cases hkind
    exact absurd rfl hother

theorem mayQueue_reject {octets : List UInt8} (h : IsReject octets) : mayQueue octets = 0 := by
  obtain ⟨npdu, hdecode, hreject⟩ := h
  unfold mayQueue eligible
  rw [hdecode]
  dsimp only
  rw [hreject]
  rfl

variable {npdu : Npdu}

theorem isReject_wire (henc : npdu.Encodable) (h : npdu.messageType = some .rejectMessageToNetwork) :
    IsReject npdu.wire :=
  ⟨npdu.normalised, Npdu.decode_wire henc, h⟩

theorem isReject_iff (henc : npdu.Encodable) :
    IsReject npdu.wire ↔ npdu.messageType = some .rejectMessageToNetwork := by
  constructor
  · rintro ⟨decoded, hdecode, h⟩
    rw [Npdu.decode_wire henc] at hdecode
    cases hdecode
    exact h
  · exact isReject_wire henc

variable {send : Send}

theorem Storage.Sent.isReject {P : Npdu → Kind → RejectOrigin → Prop} (h : Sent P send)
    (hP : ∀ npdu origin, P npdu send.kind origin → npdu.messageType = some .rejectMessageToNetwork)
    : IsReject send.npdu := by
  obtain ⟨npdu, origin, henc, hoctets, hallowed, _⟩ := h
  rw [hoctets]
  exact isReject_wire henc (hP npdu origin hallowed)

/-! ## A received reject -/

section Receive

variable {R H D B : ℕ} {G : Type}

/-- No reject waits, and polling sends none. -/
structure NoReject (s : Storage R H D B G) : Prop where
  tasks : ∀ task ∈ s.out.tasks, task.kind ≠ .reject
  polls : ∀ count, ∀ send ∈ s.polls count, ∀ reason, send.kind ≠ .reject reason

variable (s : Storage R H D B G)

theorem sole_dropUndrained : Sole s.dropUndrained where
  tasks := (drained_dropUndrained s).tasks
  flows := by
    intro flow hmem
    rw [dropUndrained_flows] at hmem
    obtain ⟨other, _, rfl⟩ := List.mem_map.mp hmem
    rfl

theorem receive_reject [GroupClassifier G] (now : Instant) (options : Options) (host : Claim → Bool)
    (h : IsReject frame.npdu) :
    Sole (s.receive frame now options host).1 ∧
      Loaded (s.receive frame now options host).1 fun npdu kind _ =>
        kind = .forward ∧ npdu.messageType = some .rejectMessageToNetwork := by
  have hleaves := receive_leaves s frame now options host
  have hsole := sole_dropUndrained s
  refine ⟨?_, hleaves.loaded (loaded_dropUndrained s) fun _ _ _ _ => outputFor_reject h⟩
  rw [mayQueue_reject h] at hleaves
  cases hleaves with
  | queued tasks hq hmost =>
    obtain rfl := List.length_eq_zero_iff.mp (Nat.le_zero.mp hmost)
    exact ⟨by rw [hq.out_eq]; exact hsole.tasks, by rw [hq.flows]; exact hsole.flows⟩
  | wrote npdu kind target origin hw _ =>
    exact ⟨by rw [hw.out]; exact hsole.tasks, by rw [hw.flows]; exact hsole.flows⟩

theorem noReject_receive [GroupClassifier G] (now : Instant) (options : Options)
    (host : Claim → Bool) (h : IsReject frame.npdu) :
    NoReject (s.receive frame now options host).1 := by
  obtain ⟨hsole, hloaded⟩ := receive_reject s now options host h
  constructor
  · intro task hmem
    rw [hsole.tasks] at hmem
    cases hmem
  · intro count send hmem reason hkind
    have hsent := polls_sent (I := fun s => Sole s ∧ Loaded s fun npdu kind _ =>
        kind = .forward ∧ npdu.messageType = some .rejectMessageToNetwork)
      (fun s hs => by
        have hok := hs.1.poll_ok (fun _ _ _ h => h) hs.2
        exact ⟨⟨hok.1, hok.2.2.1⟩, hok.2⟩) count ⟨hsole, hloaded⟩ send hmem
    obtain ⟨_, _, _, _, ⟨hforward, _⟩, _⟩ := hsent
    rw [hkind] at hforward
    cases hforward

end Receive

section Refusals

variable {R H D B : ℕ} {G : Type}

theorem queuesNone_refused (router : Engine R H D B G) (why : SendRefusal)
    (h : router.storage.out.current.rejectOrigin.asOption = none) :
    QueuesNone router.storage (router.refused why) := by
  have hquiet := (quiet_refusedLater router.storage why none).trans (quiet_endRefusedAnswer _)
  have hnone : QueuesNone router.storage (router.storage.refusedLater why none).endRefusedAnswer :=
    (queuesNone_endRefusedAnswer _).trans (queuesNone_refusedLater router.storage why)
  unfold Engine.refused
  dsimp only
  split_ifs
  · unfold refusedWhileClogged
    rw [hquiet.current, h]
    exact hnone
  · exact hnone

end Refusals

/-! ## Networks of routers -/

def Reply.sends : Reply → List Send
  | .action (.send send) => [send]
  | _ => []

theorem Reply.mem_sends {reply : Reply} (h : send ∈ reply.sends) :
    reply = .action (.send send) := by
  unfold Reply.sends at h
  split at h
  · rw [List.mem_singleton.mp h]
  · cases h

/-- Routers in a network, with what they have sent.

A frame a router receives is any frame: a link may deliver what another router sent, late, twice or
never, and anything else. -/
structure Net {ι : Type} (R H D B : ι → ℕ) (G : ι → Type) where
  router : ∀ i, Engine (R i) (H i) (D i) (B i) (G i)
  /-- The send each router's last call of `poll` returned. -/
  last : ι → Option Send
  /-- Whether the last frame each router received is a copy of a generated reject. -/
  handling : ι → Bool
  sent : List Send
  /-- The rejects generated, and all that routers at work on one of these sent on. -/
  copies : List Send

namespace Net

variable {ι : Type} {R H D B : ι → ℕ} {G : ι → Type} {net : Net R H D B G}

def start (router : ∀ i, Engine (R i) (H i) (D i) (B i) (G i)) : Net R H D B G where
  router := router
  last := fun _ => none
  handling := fun _ => false
  sent := []
  copies := []

/-- Whether a call leaves a router at work on a copy of a generated reject. -/
def handlingAfter (net : Net R H D B G) (i : ι) : Call → Bool
  | .receive frame _ _ => net.copies.any fun copy => copy.npdu == frame.npdu
  | _ => net.handling i

def isCopy (net : Net R H D B G) (i : ι) (send : Send) : Bool :=
  match send.kind with
  | .reject _ => true
  | .forward => net.handling i
  | _ => false

/-- The invariant of a network. -/
structure Good (net : Net R H D B G) : Prop where
  loaded : ∀ i, Loaded (net.router i).storage RejectLaw
  forwards : ∀ i, net.handling i = true → Loaded (net.router i).storage ForwardsReject
  last : ∀ i send, net.last i = some send →
    send ∈ net.sent ∧ send.rejectOrigin = (net.router i).storage.out.current.rejectOrigin.asOption
  sent : ∀ send ∈ net.sent, IsReject send.npdu → send.rejectOrigin = none
  generated : ∀ send ∈ net.sent, ∀ reason, send.kind = .reject reason → send ∈ net.copies
  copies : ∀ send ∈ net.copies, send ∈ net.sent ∧ IsReject send.npdu

theorem good_start {router : ∀ i, Engine (R i) (H i) (D i) (B i) (G i)}
    (h : ∀ i, ∃ capacity scratch ports options now,
      Engine.new (R i) (H i) (D i) (B i) capacity scratch ports options now = .ok (router i)) :
    Good (start router) where
  loaded := by
    intro i
    obtain ⟨capacity, scratch, ports, options, now, hnew⟩ := h i
    refine .of_inactive ?_
    show (router i).storage.out.current.active = false
    rw [(Engine.new_outputs hnew).1]
    rfl
  forwards := by
    intro i hhandling
    cases hhandling
  last := by
    intro i send hlast
    cases hlast
  sent := by
    intro send hmem
    cases hmem
  generated := by
    intro send hmem
    cases hmem
  copies := by
    intro send hmem
    cases hmem

variable [∀ i, GroupClassifier (G i)] {call : Call}

theorem Good.forwards_step (h : Good net) (i : ι) (hhandling : net.handlingAfter i call = true) :
    Loaded ((net.router i).step call).1.storage ForwardsReject := by
  by_cases hreceive : ∃ frame now host, call = .receive frame now host
  · obtain ⟨frame, now, host, rfl⟩ := hreceive
    obtain ⟨copy, hmem, hoctets⟩ := List.any_eq_true.mp hhandling
    have hreject : IsReject frame.npdu := by
      rw [← beq_iff_eq.mp hoctets]
      exact (h.copies copy hmem).2
    exact (net.router i).receive_loaded frame now host
      fun _ _ _ _ hout _ => (outputFor_reject hreject hout).2
  · have hsame : net.handlingAfter i call = net.handling i := by
      cases call with
      | receive frame now host => exact absurd ⟨frame, now, host, rfl⟩ hreceive
      | _ => rfl
    rw [hsame] at hhandling
    refine Engine.step_loaded forwardsReject _ call ?_ (h.forwards i hhandling)
    intro frame now host heq
    exact absurd ⟨frame, now, host, heq⟩ hreceive

theorem Good.loaded_step (h : Good net) (i : ι) (call : Call) :
    Loaded ((net.router i).step call).1.storage RejectLaw :=
  Engine.step_loaded rejectLaw _ call (fun _ _ _ _ _ _ _ _ => outputFor_rejectLaw) (h.loaded i)

variable {i : ι}

theorem Good.send_origin (h : Good net)
    (hsend : ((net.router i).step call).2 = .action (.send send)) (hreject : IsReject send.npdu) :
    send.rejectOrigin = none := by
  obtain ⟨npdu, hof⟩ := (Engine.step_send hsend).2 _ rejectLaw (h.loaded i)
  obtain ⟨origin, hlaw, horigin, _⟩ := hof.allowed
  rw [hof.octets, isReject_iff hof.encodable] at hreject
  rw [horigin]
  exact hlaw.origin hreject

theorem Good.copy_isReject (h : Good net)
    (hsend : ((net.router i).step call).2 = .action (.send send)) (hcopy : net.isCopy i send = true)
    : IsReject send.npdu := by
  obtain ⟨_, hof⟩ := Engine.step_send hsend
  unfold isCopy at hcopy
  split at hcopy
  · rename_i reason hkind
    obtain ⟨npdu, hof⟩ := hof _ rejectLaw (h.loaded i)
    exact hof.sent.isReject fun _ _ hlaw => hlaw.reject reason hkind
  · rename_i hkind
    obtain ⟨npdu, hof⟩ := hof _ forwardsReject (h.forwards i hcopy)
    exact hof.sent.isReject fun _ _ hlaw => hlaw hkind
  · cases hcopy

/-! ### Steps -/

variable [DecidableEq ι]

def step (net : Net R H D B G) (i : ι) (call : Call) : Net R H D B G :=
  let (router, reply) := (net.router i).step call
  { router := Function.update net.router i router
    last :=
      if call.quiet then net.last else Function.update net.last i reply.sends.head?
    handling := Function.update net.handling i (net.handlingAfter i call)
    sent := net.sent ++ reply.sends
    copies := net.copies ++ reply.sends.filter (net.isCopy i) }

/-- The networks that routers, once built, can come to. -/
inductive Reachable : Net R H D B G → Prop
  | start {router : ∀ i, Engine (R i) (H i) (D i) (B i) (G i)}
      (h : ∀ i, ∃ capacity scratch ports options now,
        Engine.new (R i) (H i) (D i) (B i) capacity scratch ports options now = .ok (router i)) :
      Reachable (start router)
  | step {net : Net R H D B G} (h : Reachable net) (i : ι) (call : Call) :
      Reachable (net.step i call)

theorem step_router (net : Net R H D B G) (i : ι) (call : Call) :
    (net.step i call).router i = ((net.router i).step call).1 := Function.update_self ..

theorem step_router_of_ne (net : Net R H D B G) {j : ι} (h : j ≠ i) (call : Call) :
    (net.step i call).router j = net.router j := Function.update_of_ne h ..

theorem step_last_quiet (net : Net R H D B G) (i : ι) (h : call.quiet = true) :
    (net.step i call).last = net.last := if_pos h

theorem step_last (net : Net R H D B G) (i : ι) (h : ¬call.quiet = true) :
    (net.step i call).last
      = Function.update net.last i ((net.router i).step call).2.sends.head? := if_neg h

theorem Good.step_last (h : Good net) (i : ι) (call : Call) {j : ι}
    (hlast : (net.step i call).last j = some send) :
    send ∈ (net.step i call).sent ∧
      send.rejectOrigin
        = ((net.step i call).router j).storage.out.current.rejectOrigin.asOption := by
  -- The send of a router that does not move, or that moves quietly, is the last one still.
  have hbefore : ∀ send, net.last j = some send →
      ((net.step i call).router j).storage.out.current = (net.router j).storage.out.current →
      send ∈ (net.step i call).sent ∧ send.rejectOrigin
        = ((net.step i call).router j).storage.out.current.rejectOrigin.asOption := by
    intro send hsend hcurrent
    obtain ⟨hmem, horigin⟩ := h.last j send hsend
    rw [hcurrent]
    exact ⟨List.mem_append_left _ hmem, horigin⟩
  by_cases hquiet : call.quiet = true
  · rw [step_last_quiet net i hquiet] at hlast
    refine hbefore send hlast ?_
    by_cases hj : j = i
    · subst hj
      rw [step_router]
      exact ((net.router j).step_quiet hquiet).current
    · rw [step_router_of_ne net hj]
  · rw [Net.step_last net i hquiet] at hlast
    by_cases hj : j = i
    · subst hj
      rw [Function.update_self] at hlast
      have hmem := List.mem_of_head? hlast
      obtain ⟨npdu, hof⟩ :=
        (Engine.step_send (Reply.mem_sends hmem)).2 _ rejectLaw (h.loaded j)
      obtain ⟨origin, _, horigin, hcurrent⟩ := hof.allowed
      rw [step_router, hcurrent]
      exact ⟨List.mem_append_right _ hmem, horigin⟩
    · rw [Function.update_of_ne hj] at hlast
      exact hbefore send hlast (by rw [step_router_of_ne net hj])

theorem good_step (h : Good net) (i : ι) (call : Call) : Good (net.step i call) where
  loaded := by
    intro j
    by_cases hj : j = i
    · subst hj
      rw [step_router]
      exact h.loaded_step j call
    · rw [step_router_of_ne net hj]
      exact h.loaded j
  forwards := by
    intro j hhandling
    by_cases hj : j = i
    · subst hj
      rw [step_router]
      exact h.forwards_step j ((Function.update_self ..).symm.trans hhandling)
    · rw [step_router_of_ne net hj]
      exact h.forwards j ((Function.update_of_ne hj ..).symm.trans hhandling)
  last := fun j send => h.step_last i call
  sent := by
    intro send hmem hreject
    rcases List.mem_append.mp hmem with hmem | hmem
    · exact h.sent send hmem hreject
    · exact h.send_origin (Reply.mem_sends hmem) hreject
  generated := by
    intro send hmem reason hkind
    rcases List.mem_append.mp hmem with hmem | hmem
    · exact List.mem_append_left _ (h.generated send hmem reason hkind)
    · refine List.mem_append_right _ (List.mem_filter.mpr ⟨hmem, ?_⟩)
      unfold isCopy
      rw [hkind]
  copies := by
    intro send hmem
    rcases List.mem_append.mp hmem with hmem | hmem
    · obtain ⟨hsent, hreject⟩ := h.copies send hmem
      exact ⟨List.mem_append_left _ hsent, hreject⟩
    · obtain ⟨hmem, hcopy⟩ := List.mem_filter.mp hmem
      exact ⟨List.mem_append_right _ hmem, h.copy_isReject (Reply.mem_sends hmem) hcopy⟩

theorem Reachable.good (h : Reachable net) : Good net := by
  induction h with
  | start hnew => exact good_start hnew
  | step _ i call ih => exact good_step ih i call

/-! ### Rejects in a network -/

/-- What holds of a reject that was sent, whatever becomes of it: it has no return path, a router that
receives it has no reject to send, and no refusal of it queues one. -/
structure Unanswered (net : Net R H D B G) (send : Send) : Prop where
  origin : send.rejectOrigin = none
  received : ∀ i frame now host, frame.npdu = send.npdu →
    NoReject ((net.step i (.receive frame now host)).router i).storage
  refused : ∀ i why, net.last i = some send →
    QueuesNone (net.router i).storage ((net.step i (.refused why)).router i).storage
  refusedLater : ∀ i why,
    QueuesNone (net.router i).storage
      ((net.step i (.refusedLater why send.rejectOrigin)).router i).storage

theorem Good.unanswered (h : Good net) (hmem : send ∈ net.sent) (hreject : IsReject send.npdu) :
    Unanswered net send where
  origin := h.sent send hmem hreject
  received := by
    intro i frame now host hframe
    rw [step_router]
    exact noReject_receive _ _ _ host (by rw [hframe]; exact hreject)
  refused := by
    intro i why hlast
    rw [step_router]
    refine queuesNone_refused _ why ?_
    rw [← (h.last i send hlast).2]
    exact h.sent send hmem hreject
  refusedLater := by
    intro i why
    rw [step_router, h.sent send hmem hreject]
    exact queuesNone_refusedLater _ why

/-- A reject never causes a reject: not where it is received, in any state of a router; not where it
is sent, whatever is reported of it; and so neither do the copies of a generated reject anywhere in
a network of routers. -/
theorem rejects_unanswered :
    (∀ (i : ι) (s : Storage (R i) (H i) (D i) (B i) (G i)) (frame : Frame) (now : Instant)
      (options : Options) (host : Claim → Bool), IsReject frame.npdu →
        NoReject (s.receive frame now options host).1) ∧
    ∀ net : Net R H D B G, net.Reachable →
      (∀ send ∈ net.sent, IsReject send.npdu → Unanswered net send) ∧
      (∀ send ∈ net.sent, ∀ reason, send.kind = .reject reason → send ∈ net.copies) ∧
      ∀ copy ∈ net.copies, IsReject copy.npdu ∧ Unanswered net copy := by
  refine ⟨fun i s frame now options host h => noReject_receive s now options host h, ?_⟩
  intro net hnet
  have hgood := hnet.good
  refine ⟨fun send hmem hreject => hgood.unanswered hmem hreject, hgood.generated, ?_⟩
  · intro copy hmem
    obtain ⟨hsent, hreject⟩ := hgood.copies copy hmem
    exact ⟨hreject, hgood.unanswered hsent hreject⟩

/-- A network of one router that has sent a reject about an APDU for network 9. -/
def benchNet : Net (fun _ : Unit => 4) (fun _ => 2) (fun _ => 2) (fun _ => 4) fun _ => Groups :=
  let frame : Frame := ⟨⟨0⟩, [7], false, [1, 0x20, 0, 9, 1, 5, 255, 0x10, 8]⟩
  (((start fun _ => .bench .standard Engine.bench_standard).step () (.receive frame 0 fun _ => true)).step
    () .poll).step () .poll

theorem reachable_benchNet : benchNet.Reachable := by
  unfold benchNet
  apply Reachable.step
  apply Reachable.step
  apply Reachable.step
  apply Reachable.start
  exact fun _ => ⟨_, _, _, _, _, Engine.new_bench _ _⟩

theorem rejects_unanswered_bench :
    benchNet.copies.map (fun send => (send.kind, send.dest, send.npdu))
      = [(.reject .notDirectlyConnected, .unicast [7], [1, 0x80, 3, 1, 0, 9])] ∧
    ∀ copy ∈ benchNet.copies, IsReject copy.npdu ∧ Unanswered benchNet copy := by
  refine ⟨by decide +kernel, ?_⟩
  exact (rejects_unanswered.2 benchNet reachable_benchNet).2.2

end Net

end RustyBacnet.Router
