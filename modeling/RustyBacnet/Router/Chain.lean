import RustyBacnet.Router.Rejects
import RustyBacnet.Router.Trail

/-!
# Forwarding along a chain of routers

1. A frame that a router forwards makes it send one NPDU, whatever is polled (`Relays.hop`): the
   rewritten one, to the next hop or, from the last router, to the DADR.
2. What the next router decodes differs from what this one did in the hop count and in the source,
   which the first router fills in (`Passed`).
3. `forwarding_transparent` follows the octets along the chain.
-/

namespace RustyBacnet.Router

open Storage

/-! ## One output for one port -/

variable {at_ : Arrival}

section Output

variable {R H D B : ℕ} {G : Type} {s t : Storage R H D B G}

theorem writeNow_ok {npdu : Npdu} (henc : npdu.Encodable)
    (hroom : npdu.encodedLen ≤ s.scratch.length) (kind : Kind) (target : Target) :
    (s.writeNow npdu kind target).2 = true := by
  have hscratch : ∀ holds, (s.debugAssert .outputFirst holds).scratch = s.scratch := by
    intro holds
    unfold debugAssert
    split_ifs <;> rfl
  unfold writeNow
  dsimp only
  rw [hscratch, Npdu.encodeInto_of_encodable henc hroom]

variable {egress : PortConfig G}

theorem forward_wrote (hs : s.Drained) {npdu : Npdu} {route : Route}
    (hhop : ¬(npdu.hopCount = 0 ∨ ((!route.direct) = true ∧ npdu.hopCount = 1)))
    (hegress : s.portOf route.port = some egress) (hfits : (rewrite at_ npdu route).1.encodedLen
      ≤ egress.maxNpdu.get (rewrite at_ npdu route).2.isEmpty)
    (henc : (rewrite at_ npdu route).1.Encodable)
    (hroom : (rewrite at_ npdu route).1.encodedLen ≤ s.scratch.length) :
    ∃ origin, Wrote s (s.forward at_ npdu route).1 (rewrite at_ npdu route).1 .forward
      (.toward route.port (rewrite at_ npdu route).2) origin := by
  unfold forward
  rw [if_neg hhop, hegress]
  dsimp only
  rw [if_neg (Nat.not_lt.mpr hfits)]
  have hok := writeNow_ok henc hroom .forward (.toward route.port (rewrite at_ npdu route).2)
  have hwrote := wrote_writeNow hs (rewrite at_ npdu route).1 .forward
    (.toward route.port (rewrite at_ npdu route).2)
  generalize s.writeNow (rewrite at_ npdu route).1 .forward
    (.toward route.port (rewrite at_ npdu route).2) = written at hok hwrote ⊢
  obtain ⟨t, ok⟩ := written
  subst hok
  rcases hwrote with ⟨_, hwrote⟩ | ⟨hfalse, _⟩
  · rw [if_pos rfl]
    split_ifs
    · exact ⟨_, hwrote.setRejectOrigin _⟩
    · exact ⟨_, hwrote⟩
  · cases hfalse

theorem pollRounds_succ (s : Storage R H D B G) : s.pollRounds = (s.pollRounds - 1) + 1 := by
  unfold pollRounds
  omega

variable {port : PortId}

theorem poll_of_target {broadcast : Bool} (h : s.nextTarget = (t, some (port, broadcast))) :
    s.poll = ({ t with out := { t.out with lastTableAck := t.out.current.tableAck,
                                           lastPort := port } }, .send (t.sendOf port broadcast)) := by
  unfold poll
  rw [pollRounds_succ]
  unfold pollLoop
  rw [h]
  rfl

theorem polls_succ_of_send {send : Send} (h : s.poll = (t, .send send)) (count : ℕ) :
    s.polls (count + 1) = send :: t.polls count := by
  rw [polls, h]

theorem polls_ended (h : Sole s) (hended : s.out.current.active = false) (count : ℕ) :
    s.polls count = [] := by
  have hpoll : s.poll = (s, .idle) := by
    have hnext : s.nextTarget = (s, none) := by
      exact if_pos (by rw [hended]; rfl)
    unfold poll
    rw [pollRounds_succ]
    unfold pollLoop
    rw [hnext]
    dsimp only
    rw [h.writeTask]
    rfl
  induction count with
  | zero => rfl
  | succ count ih =>
    unfold polls
    rw [hpoll]
    exact ih

theorem nextTarget_single (hactive : s.out.current.active = true)
    (hsingle : s.out.current.fanOut = false)
    (hfits : s.fitsFrom 0 s.out.current.port s.out.current.broadcast = true) :
    s.nextTarget = (s.setCurrent { s.out.current with active := false },
      some (s.out.current.port, s.out.current.broadcast)) := by
  unfold nextTarget
  rw [if_neg (by rw [hactive]; decide), if_pos (by rw [hsingle]; rfl)]
  exact if_pos hfits

def onlySend (npdu : Npdu) (port : PortId) (dest : List UInt8) (origin : RejectOrigin) : Send where
  port := port
  dest := if dest.isEmpty then .broadcast else .unicast dest
  npdu := npdu.wire
  priority := npdu.priority
  kind := .forward
  cause := .ingress
  rejectOrigin := origin.asOption

theorem macOrEmpty_octets {octets : List UInt8} (h : octets.length ≤ maxMacLen) :
    (macOrEmpty octets).octets = octets := by
  unfold macOrEmpty Mac.fromSlice
  rw [dif_pos h]
  rfl

/-- Nothing but the output itself is sent, once. -/
theorem polls_wrote {npdu : Npdu} {dest : List UInt8} {origin : RejectOrigin}
    (h : Wrote s t npdu .forward (.toward port dest) origin) (hsole : Sole t)
    (hegress : t.portOf port = some egress)
    (hfits : npdu.encodedLen ≤ egress.maxNpdu.get dest.isEmpty) (hdest : dest.length ≤ maxMacLen)
    (count : ℕ) : t.polls (count + 1) = [onlySend npdu port dest origin] := by
  have hcurrent : t.out.current = currentOf npdu .forward (.toward port dest) origin := by
    rw [h.out]
  have hfrom : t.fitsFrom 0 t.out.current.port t.out.current.broadcast = true := by
    unfold fitsFrom
    rw [hcurrent]
    show (t.portOf port).any _ = true
    rw [hegress]
    exact decide_eq_true hfits
  have hnext := nextTarget_single (s := t) (by rw [hcurrent]; rfl) (by rw [hcurrent]; rfl) hfrom
  have hoctets : t.scratch.take npdu.encodedLen = npdu.wire := by
    rw [h.scratch, ← npdu.length_wire]
    exact List.take_left
  have hsend : t.sendOf t.out.current.port t.out.current.broadcast
      = onlySend npdu port dest origin := by
    unfold sendOf onlySend
    rw [hcurrent]
    unfold currentOf Current.new
    rw [macOrEmpty_octets hdest]
    exact congrArg (fun octets => Send.mk _ _ octets _ _ _ _) hoctets
  have hrest := polls_ended
    (s := { t.setCurrent { t.out.current with active := false } with
      out := { (t.setCurrent { t.out.current with active := false }).out with
        lastTableAck := t.out.current.tableAck, lastPort := t.out.current.port } })
    ⟨hsole.tasks, hsole.flows⟩ rfl count
  rw [polls_succ_of_send (poll_of_target hnext)]
  exact congrArg₂ List.cons hsend hrest

end Output

/-! ## One router -/

/-- A router as a frame reaches it: the port, the link source there, and the time. -/
structure Stage (R H D B : ℕ) (G : Type) where
  router : Engine R H D B G
  port : PortId
  source : List UInt8
  linkGroup : Bool
  now : Instant
  host : Claim → Bool

namespace Stage

variable {R H D B : ℕ} {G : Type} [GroupClassifier G]

def storage (stage : Stage R H D B G) : Storage R H D B G := stage.router.clocked stage.now

def received (stage : Stage R H D B G) (octets : List UInt8) : Engine R H D B G :=
  (stage.router.step
    (.receive ⟨stage.port, stage.source, stage.linkGroup, octets⟩ stage.now stage.host)).1

/-- What the router sends for these octets when it is polled so many times. -/
def sends (stage : Stage R H D B G) (octets : List UInt8) (count : ℕ) : List Send :=
  (stage.received octets).storage.polls count

/-- The router has a usable route for the address, and isn't the one addressed. -/
structure Relays (stage : Stage R H D B G) (destination : Address) (route : Route) : Prop where
  reachable : stage.router.Reachable
  lookup : stage.storage.table.lookup destination.network = some route
  usable : stage.storage.table.effectiveReachability destination.network stage.storage.latest
    = some .reachable
  foreign : destination.mac ≠ [] → stage.storage.isOwn destination = false

/-- The port of a route takes this many octets for a link address. -/
def Fits (stage : Stage R H D B G) (route : Route) (dest : List UInt8) (octets : ℕ) : Prop :=
  ∃ egress, stage.storage.portOf route.port = some egress ∧
    octets ≤ egress.maxNpdu.get dest.isEmpty

/-- The route's own port is the destination's: its DADR is neither a group there nor, on the
arrival port, the router's own. -/
structure Delivers (stage : Stage R H D B G) (destination : Address) (route : Route) : Prop where
  direct : route.direct = true
  group : destination.mac ≠ [] → ∀ egress, stage.storage.portOf route.port = some egress →
    GroupClassifier.classify egress.groups destination.mac = .no
  foreign : destination.mac ≠ [] → route.port = stage.port → ∀ egress,
    stage.storage.portOf route.port = some egress → egress.mac.octets ≠ destination.mac

def arrival (stage : Stage R H D B G) (config : PortConfig G) : Arrival where
  port := stage.port
  network := config.network
  source := stage.source
  sourceMac := macOrEmpty stage.source
  linkGroup := stage.linkGroup
  now := stage.storage.latest

end Stage

section Hop

variable {R H D B : ℕ} {G : Type} [GroupClassifier G] {stage : Stage R H D B G}
  {destination : Address} {route : Route} {npdu : Npdu}

theorem admitSource_ok {source : List UInt8} (h : source.length ≤ maxMacLen) :
    admitSource source = .ok (macOrEmpty source) := by
  unfold admitSource macOrEmpty Mac.fromSlice
  rw [dif_pos h]
  rfl

theorem admitNpdu_apdu {octets : List UInt8} (hdecode : Npdu.decode octets = .ok npdu)
    (hdestination : npdu.destination = some destination)
    (hglobal : destination.network ≠ globalNetwork)
    (hcast : destination.mac = [] → isUnconfirmed npdu.payload = true) :
    admitNpdu octets = .ok npdu := by
  have hnot : (destination.network == globalNetwork) = false := beq_false_of_ne hglobal
  unfold admitNpdu
  rw [hdecode]
  dsimp only
  rw [hdestination]
  dsimp only
  rw [hnot, Bool.false_and, if_neg Bool.false_ne_true, Bool.false_or, if_neg]
  intro h
  rw [Bool.and_eq_true, Bool.and_eq_true, List.isEmpty_iff] at h
  rw [hcast h.1.1] at h
  exact absurd h.2 (by decide)

theorem Stage.Relays.network (h : stage.Relays destination route) :
    destination.network ≠ globalNetwork := by
  have hv : stage.storage.table.Valid := h.reachable.valid
  have hlookup := h.lookup
  rw [Table.lookup_eq hv.inOrder] at hlookup
  cases hentry : stage.storage.table.entry destination.network with
  | none =>
    rw [hentry] at hlookup
    cases hlookup
  | some slot =>
    have husable := (hv.entry hentry).usable
    rw [Table.entry_network hentry] at husable
    intro hglobal
    rw [hglobal] at husable
    exact absurd husable (by decide)

theorem routeAlong_forwards {s : Storage R H D B G}
    (hdestination : npdu.destination = some destination)
    (hgroup : route.direct = true → destination.mac ≠ [] → ∀ egress,
      s.portOf route.port = some egress → GroupClassifier.classify egress.groups destination.mac = .no)
    (hforeign : route.direct = true → destination.mac ≠ [] → route.port = at_.port → ∀ egress,
      s.portOf route.port = some egress → egress.mac.octets ≠ destination.mac) :
    (s.routeAlong at_ npdu destination route).1 = (s.forward at_ npdu route).1 := by
  have hno : s.groupOf route npdu = .no := by
    unfold groupOf
    rw [hdestination]
    dsimp only
    split_ifs with hunicast
    · obtain ⟨hdirect, hmac⟩ := Bool.and_eq_true_iff.mp hunicast
      split
      · exact hgroup hdirect (by rintro hnil; rw [hnil] at hmac; cases hmac) _ ‹_›
      · rfl
    · rfl
  unfold routeAlong
  rw [if_neg, hno]
  · exact forwarded_fst _ _ _ _ _
  · intro hown
    simp only [Bool.and_eq_true, beq_iff_eq, Bool.not_eq_true', Option.any_eq_true] at hown
    obtain ⟨⟨⟨hport, hdirect⟩, hmac⟩, own, hown, hsame⟩ := hown
    refine hforeign hdirect (by rintro hnil; rw [hnil] at hmac; cases hmac) hport own ?_ hsame
    rw [hport]
    exact hown

theorem dispatch_along {s : Storage R H D B G} (at_ : Arrival) (options : Options)
    (host : Claim → Bool) (htype : npdu.messageType = none)
    (hdestination : npdu.destination = some destination)
    (hglobal : destination.network ≠ globalNetwork)
    (hforeign : destination.mac ≠ [] → s.isOwn destination = false)
    (hlookup : s.table.lookup destination.network = some route)
    (husable : s.table.effectiveReachability destination.network at_.now = some .reachable) :
    s.dispatch at_ npdu options host
      = (s.setTable (s.table.touch destination.network at_.now)).routeAlong at_ npdu destination
          route := by
  have hown : ¬((!destination.mac.isEmpty && s.isOwn destination) = true) := by
    intro hown
    obtain ⟨hmac, hown⟩ := Bool.and_eq_true_iff.mp hown
    rw [hforeign (by rintro hnil; rw [hnil] at hmac; cases hmac)] at hown
    cases hown
  have hfind : s.findRoute at_ npdu destination.network options
      = (s.setTable (s.table.touch destination.network at_.now), some route) := by
    unfold findRoute
    rw [hlookup]
    rw [husable]
  unfold dispatch
  rw [htype]
  unfold routeApdu
  rw [hdestination]
  dsimp only
  rw [if_neg hglobal, if_neg hown, hfind]

/-- A router sends the rewritten NPDU on, and nothing else. -/
theorem Stage.Relays.hop (h : stage.Relays destination route) {octets : List UInt8}
    {config : PortConfig G} (hsource : stage.source.length ≤ maxMacLen)
    (harrival : stage.storage.portOf stage.port = some config)
    (hdecode : Npdu.decode octets = .ok npdu) (htype : npdu.messageType = none)
    (hdestination : npdu.destination = some destination)
    (hcast : destination.mac = [] → isUnconfirmed npdu.payload = true)
    (hdelivers : route.direct = true → stage.Delivers destination route)
    (hhop : ¬(npdu.hopCount = 0 ∨ ((!route.direct) = true ∧ npdu.hopCount = 1)))
    (henc : (rewrite (stage.arrival config) npdu route).1.Encodable)
    (hfits : stage.Fits route (rewrite (stage.arrival config) npdu route).2
      (rewrite (stage.arrival config) npdu route).1.encodedLen) :
    ∃ origin, ∀ count, stage.sends octets (count + 1)
      = [onlySend (rewrite (stage.arrival config) npdu route).1 route.port
          (rewrite (stage.arrival config) npdu route).2 origin] := by
  obtain ⟨egress, hegress, hfits⟩ := hfits
  have hadmitted := admitNpdu_apdu hdecode hdestination h.network hcast
  have hhoused : Housed stage.storage := h.reachable.housed.congr rfl rfl
  -- The state the frame is taken in, with nothing left from before.
  let frame : Frame := ⟨stage.port, stage.source, stage.linkGroup, octets⟩
  let s := stage.storage.dropUndrained.note (.received frame stage.storage.latest)
  have hports : s.ports = stage.storage.ports := dropUndrained_ports _
  have hscratch : s.scratch = stage.storage.scratch := dropUndrained_scratch _
  have htable : s.table = stage.storage.table := dropUndrained_table _
  have hportOf : ∀ port, s.portOf port = stage.storage.portOf port := by
    intro port
    unfold portOf
    rw [hports]
  let t := s.setTable (s.table.touch destination.network stage.storage.latest)
  have hqueued : Queued stage.storage.dropUndrained t [] :=
    (queued_note _ fun _ => Note.noConfusion).trans (queued_setTable _ _)
  have hroom : (rewrite (stage.arrival config) npdu route).1.encodedLen ≤ t.scratch.length := by
    show _ ≤ s.scratch.length
    rw [hscratch]
    exact hfits.trans (limitsFit_get (hhoused.limits egress (List.mem_of_getElem? hegress)) _)
  have hreceived : (stage.received octets).storage
      = (t.forward (stage.arrival config) npdu route).1 := by
    show (stage.storage.receive frame stage.storage.latest stage.router.options stage.host).1 = _
    unfold receive
    dsimp only
    rw [show (stage.storage.dropUndrained.note (.received frame stage.storage.latest)).portOf
      frame.port = some config from (hportOf _).trans harrival]
    rw [show admitSource frame.source = _ from admitSource_ok hsource]
    rw [show admitNpdu frame.npdu = _ from hadmitted]
    have hown : destination.mac ≠ [] → s.isOwn destination = false := by
      unfold isOwn
      rw [hports]
      exact h.foreign
    have hdispatch := dispatch_along (s := s) (stage.arrival config) stage.router.options
      stage.host htype hdestination h.network hown (htable ▸ h.lookup) (htable ▸ h.usable)
    refine (congrArg Prod.fst hdispatch).trans (routeAlong_forwards hdestination ?_ ?_)
    · intro hdirect hmac egress hegress
      exact (hdelivers hdirect).group hmac egress ((hportOf _).symm.trans hegress)
    · intro hdirect hmac hport egress hegress
      exact (hdelivers hdirect).foreign hmac hport egress ((hportOf _).symm.trans hegress)
  obtain ⟨origin, hwrote⟩ := forward_wrote (hqueued.drained (drained_dropUndrained _)) hhop
    ((hportOf _).trans hegress) hfits henc hroom
  have hsole := sole_dropUndrained stage.storage
  have hall := hqueued.wrote hwrote
  have hdest : (rewrite (stage.arrival config) npdu route).2.length ≤ maxMacLen := by
    unfold rewrite
    split_ifs
    · rw [hdestination]
      exact ((Npdu.decode_encodable hdecode).destination destination hdestination).2
    · exact route.nextHop.bounded
  refine ⟨origin, fun count => ?_⟩
  unfold Stage.sends
  rw [hreceived]
  have hleft : (t.forward (stage.arrival config) npdu route).1.portOf route.port = some egress := by
    unfold portOf
    rw [hwrote.ports]
    exact (hportOf _).trans hegress
  refine polls_wrote hwrote ⟨?_, ?_⟩ hleft hfits hdest count
  · rw [hall.out]
    exact hsole.tasks
  · rw [hall.flows]
    exact hsole.flows

end Hop

/-! ## The chain -/

/-- Where a link address of no octets goes: to everyone. -/
def linkDest (mac : List UInt8) : Dest := if mac.isEmpty then .broadcast else .unicast mac

/-- An NPDU so many routers on: the hop count has gone down, and the source names its origin. -/
structure Passed (npdu : Npdu) (origin : Address) (hops : ℕ) (later : Npdu) : Prop where
  messageType : later.messageType = none
  destination : later.destination = npdu.destination
  payload : later.payload = npdu.payload
  priority : later.priority = npdu.priority
  expectingReply : later.expectingReply = npdu.expectingReply
  hopCount : later.hopCount.toNat + hops = npdu.hopCount.toNat
  source : later.source = some origin ∨ (hops = 0 ∧ later.source = npdu.source)

section Passed

variable {npdu later : Npdu} {origin : Address} {hops : ℕ}

theorem encodedLen_congr {a b : Npdu} (htype : a.messageType = b.messageType)
    (hdestination : a.destination = b.destination) (hsource : a.source = b.source)
    (hpayload : a.payload = b.payload) : a.encodedLen = b.encodedLen := by
  unfold Npdu.encodedLen
  rw [htype, hdestination, hsource, hpayload]

theorem Passed.named (h : Passed npdu origin hops later)
    (horigin : hops = 0 → originOf at_ npdu = origin) : sourceOf at_ later = some origin := by
  unfold sourceOf
  rcases h.source with hsource | ⟨hfirst, hsource⟩
  · rw [hsource]
    rfl
  · have horigin := horigin hfirst
    unfold originOf at horigin
    rw [hsource]
    cases hnone : npdu.source with
    | none =>
      rw [hnone] at horigin
      exact congrArg some horigin
    | some source =>
      rw [hnone] at horigin
      exact congrArg some horigin

theorem Passed.onward (h : Passed npdu origin hops later) {route : Route}
    (horigin : hops = 0 → originOf at_ npdu = origin) (hlearned : route.direct = false)
    (hdestination : npdu.destination.isSome = true) (hhops : hops < npdu.hopCount.toNat) :
    Passed npdu origin (hops + 1) (rewrite at_ later route).1.normalised := by
  have hcount := h.hopCount
  unfold rewrite
  rw [hlearned, if_neg Bool.false_ne_true, h.named horigin]
  refine ⟨h.messageType, h.destination, h.payload, h.priority, h.expectingReply, ?_, .inl rfl⟩
  show (if later.destination.isSome then later.hopCount - 1 else 255).toNat + (hops + 1) = _
  rw [h.destination, if_pos hdestination, UInt8.toNat_sub_of_le]
  · show later.hopCount.toNat - 1 + (hops + 1) = _
    omega
  · rw [UInt8.le_iff_toNat_le]
    show 1 ≤ later.hopCount.toNat
    omega

theorem Passed.encodable (h : Passed npdu origin hops later) (route : Route)
    (horigin : hops = 0 → originOf at_ npdu = origin) (hok : npdu.Encodable)
    (hsource : Npdu.SourceOk origin) : (rewrite at_ later route).1.Encodable := by
  have hnamed : ∀ address ∈ sourceOf at_ later, Npdu.SourceOk address := by
    rw [h.named horigin]
    rintro address ⟨⟩
    exact hsource
  unfold rewrite
  split_ifs
  · exact ⟨nofun, hnamed⟩
  · exact ⟨by rw [h.destination]; exact hok.destination, hnamed⟩

end Passed

variable {i : ℕ}

section Chain

variable {R H D B : ℕ → ℕ} {G : ℕ → Type} [∀ i, GroupClassifier (G i)]

/-- The octets each router of a chain receives: what the one before it sends. -/
def along (stage : ∀ i, Stage (R i) (H i) (D i) (B i) (G i)) (octets : List UInt8) :
    ℕ → List UInt8
  | 0 => octets
  | i + 1 => (((stage i).sends (along stage octets i) 1).head?.map Send.npdu).getD []

/-- Routers 0 to `last`: each one's route for the destination is learned from the next, over the
link between them, and the last one's is direct. -/
structure Chain (stage : ∀ i, Stage (R i) (H i) (D i) (B i) (G i)) (route : ℕ → Route)
    (last : ℕ) (npdu : Npdu) (destination origin : Address) : Prop where
  relays : ∀ i ≤ last, (stage i).Relays destination (route i)
  learned : ∀ i < last, (route i).direct = false
  linked : ∀ i < last, ∃ egress arrival,
    (stage i).storage.portOf (route i).port = some egress ∧
    (stage (i + 1)).storage.portOf (stage (i + 1)).port = some arrival ∧
    (route i).nextHop = arrival.mac ∧ (stage (i + 1)).source = egress.mac.octets
  delivers : (stage last).Delivers destination (route last)
  carries : ∀ i < last, (stage i).Fits (route i) (route i).nextHop.octets
    { npdu with source := some origin }.encodedLen
  arrives : (stage last).Fits (route last) destination.mac
    { npdu with source := some origin, destination := none }.encodedLen

variable {stage : ∀ i, Stage (R i) (H i) (D i) (B i) (G i)} {route : ℕ → Route} {last : ℕ}
  {npdu : Npdu} {destination origin : Address} {octets : List UInt8}

/-- What enters the chain, and where. -/
structure Chain.Enters (stage : ∀ i, Stage (R i) (H i) (D i) (B i) (G i)) (octets : List UInt8)
    (npdu : Npdu) (destination origin : Address) : Prop where
  decode : Npdu.decode octets = .ok npdu
  messageType : npdu.messageType = none
  addressed : npdu.destination = some destination
  cast : destination.mac = [] → isUnconfirmed npdu.payload = true
  source : (stage 0).source.length ≤ maxMacLen
  begins : ∃ arrival, (stage 0).storage.portOf (stage 0).port = some arrival ∧
    origin = npdu.source.getD ⟨arrival.network, (stage 0).source⟩
  named : npdu.source = none → (stage 0).source ≠ []

theorem Chain.sourceOk (chain : Chain stage route last npdu destination origin)
    (enters : Chain.Enters stage octets npdu destination origin) : Npdu.SourceOk origin := by
  obtain ⟨arrival, harrival, rfl⟩ := enters.begins
  cases hsource : npdu.source with
  | some source => exact (Npdu.decode_encodable enters.decode).source source hsource
  | none =>
    have hhoused := (chain.relays 0 (Nat.zero_le _)).reachable.housed
    obtain ⟨hzero, hglobal⟩ := hhoused.network arrival (List.mem_of_getElem? harrival)
    exact ⟨hzero, hglobal, enters.named hsource, enters.source⟩

theorem Chain.arrival (chain : Chain stage route last npdu destination origin)
    (enters : Chain.Enters stage octets npdu destination origin) (hi : i ≤ last) :
    (stage i).source.length ≤ maxMacLen ∧
      ∃ arrival, (stage i).storage.portOf (stage i).port = some arrival ∧
        (i = 0 → originOf ((stage i).arrival arrival) npdu = origin) := by
  cases i with
  | zero =>
    obtain ⟨arrival, harrival, horigin⟩ := enters.begins
    exact ⟨enters.source, arrival, harrival, fun _ => horigin.symm⟩
  | succ i =>
    obtain ⟨egress, arrival, _, harrival, _, hsource⟩ := chain.linked i (by omega)
    refine ⟨?_, arrival, harrival, nofun⟩
    rw [hsource]
    exact egress.mac.bounded

/-- One router of the chain, at a frame that has passed those before it. -/
theorem Chain.hop (chain : Chain stage route last npdu destination origin)
    (enters : Chain.Enters stage octets npdu destination origin)
    (hhops : last + 1 < npdu.hopCount.toNat) (hi : i ≤ last) {later : Npdu} {here : List UInt8}
    (hdecode : Npdu.decode here = .ok later) (hpassed : Passed npdu origin i later) :
    ∃ at_ rejects, (i = 0 → originOf at_ npdu = origin) ∧
      ∀ count, (stage i).sends here (count + 1)
        = [onlySend (rewrite at_ later (route i)).1 (route i).port
            (rewrite at_ later (route i)).2 rejects] := by
  obtain ⟨hsource, arrival, harrival, horigin⟩ := chain.arrival enters hi
  have hdestination := hpassed.destination.trans enters.addressed
  have hcount := hpassed.hopCount
  have hspent : ¬(later.hopCount = 0 ∨ ((!(route i).direct) = true ∧ later.hopCount = 1)) := by
    rintro (hzero | ⟨_, hone⟩)
    · rw [hzero] at hcount
      have : (0 : UInt8).toNat = 0 := rfl
      omega
    · rw [hone] at hcount
      have : (1 : UInt8).toNat = 1 := rfl
      omega
  have hdelivers : (route i).direct = true → i = last := by
    intro hdirect
    by_contra hne
    rw [chain.learned i (by omega)] at hdirect
    cases hdirect
  have hfits : (stage i).Fits (route i) (rewrite ((stage i).arrival arrival) later (route i)).2
      (rewrite ((stage i).arrival arrival) later (route i)).1.encodedLen := by
    unfold rewrite
    rw [hpassed.named horigin]
    split_ifs with hdirect
    · obtain rfl := hdelivers hdirect
      have hlen : { later with destination := none, hopCount := 0, source := some origin }.encodedLen
          = { npdu with source := some origin, destination := none }.encodedLen :=
        encodedLen_congr (hpassed.messageType.trans enters.messageType.symm) rfl rfl hpassed.payload
      rw [hlen, hdestination]
      exact chain.arrives
    · have hlt : i < last := by
        refine Nat.lt_of_le_of_ne hi ?_
        rintro rfl
        exact hdirect chain.delivers.direct
      have hlen : { later with hopCount := later.hopCount - 1, source := some origin }.encodedLen
          = { npdu with source := some origin }.encodedLen :=
        encodedLen_congr (hpassed.messageType.trans enters.messageType.symm) hpassed.destination rfl
          hpassed.payload
      rw [hlen]
      exact chain.carries i hlt
  obtain ⟨rejects, hsends⟩ := (chain.relays i hi).hop hsource harrival hdecode hpassed.messageType
    hdestination (by rw [hpassed.payload]; exact enters.cast)
    (fun hdirect => by obtain rfl := hdelivers hdirect; exact chain.delivers) hspent
    (hpassed.encodable (route i) horigin (Npdu.decode_encodable enters.decode)
      (chain.sourceOk enters)) hfits
  exact ⟨_, rejects, horigin, hsends⟩

theorem Chain.along_passed (chain : Chain stage route last npdu destination origin)
    (enters : Chain.Enters stage octets npdu destination origin)
    (hhops : last + 1 < npdu.hopCount.toNat) (hi : i ≤ last) :
    ∃ later, Npdu.decode (along stage octets i) = .ok later ∧ Passed npdu origin i later := by
  induction i with
  | zero =>
    exact ⟨npdu, enters.decode, enters.messageType, rfl, rfl, rfl, rfl, rfl, .inr ⟨rfl, rfl⟩⟩
  | succ i ih =>
    obtain ⟨later, hdecode, hpassed⟩ := ih (by omega)
    obtain ⟨at_, rejects, horigin, hsends⟩ := chain.hop enters hhops (by omega) hdecode hpassed
    have hoctets : along stage octets (i + 1) = (rewrite at_ later (route i)).1.wire := by
      unfold along
      rw [hsends 0]
      rfl
    refine ⟨(rewrite at_ later (route i)).1.normalised, ?_, ?_⟩
    · rw [hoctets]
      exact Npdu.decode_wire (hpassed.encodable (route i) horigin
        (Npdu.decode_encodable enters.decode) (chain.sourceOk enters))
    · exact hpassed.onward horigin (chain.learned i (by omega)) (by rw [enters.addressed]; rfl)
        (by omega)

/-- Forwarding along a chain is transparent: every router sends one NPDU, those before the last to
the next router, and the last one the original APDU to the original DADR. -/
theorem forwarding_transparent (chain : Chain stage route last npdu destination origin)
    (enters : Chain.Enters stage octets npdu destination origin)
    (hhops : last + 1 < npdu.hopCount.toNat) :
    (∀ i < last, ∃ send, (∀ count, (stage i).sends (along stage octets i) (count + 1) = [send]) ∧
      send.port = (route i).port ∧ send.dest = linkDest (route i).nextHop.octets) ∧
    ∃ send, (∀ count, (stage last).sends (along stage octets last) (count + 1) = [send]) ∧
      send.port = (route last).port ∧ send.dest = linkDest destination.mac ∧
      send.priority = npdu.priority ∧
      ∃ arrived, Npdu.decode send.npdu = .ok arrived ∧ arrived.messageType = none ∧
        arrived.payload = npdu.payload ∧ arrived.priority = npdu.priority ∧
        arrived.expectingReply = npdu.expectingReply ∧ arrived.destination = none ∧
        arrived.source = some origin := by
  constructor
  · intro i hi
    obtain ⟨later, hdecode, hpassed⟩ := chain.along_passed enters hhops (Nat.le_of_lt hi)
    obtain ⟨at_, rejects, horigin, hsends⟩ :=
      chain.hop enters hhops (Nat.le_of_lt hi) hdecode hpassed
    refine ⟨_, hsends, rfl, ?_⟩
    unfold onlySend rewrite
    rw [chain.learned i hi, if_neg Bool.false_ne_true]
    rfl
  · obtain ⟨later, hdecode, hpassed⟩ := chain.along_passed enters hhops le_rfl
    obtain ⟨at_, rejects, horigin, hsends⟩ := chain.hop enters hhops le_rfl hdecode hpassed
    have hwire := Npdu.decode_wire (hpassed.encodable (route last) horigin
      (Npdu.decode_encodable enters.decode) (chain.sourceOk enters))
    have hrewrite : rewrite at_ later (route last)
        = ({ later with destination := none, hopCount := 0, source := some origin },
            destination.mac) := by
      unfold rewrite
      rw [chain.delivers.direct, if_pos rfl, hpassed.named horigin, hpassed.destination,
        enters.addressed]
      rfl
    rw [hrewrite] at hsends hwire
    exact ⟨_, hsends, rfl, rfl, hpassed.priority, _, hwire, hpassed.messageType, hpassed.payload,
      hpassed.priority, hpassed.expectingReply, rfl, rfl⟩

end Chain

/-! ## Two routers -/

namespace Chain

/-- The ports of a router behind the one with `benchPorts`: networks 2 and 3. -/
def farPorts : List (PortConfig Groups) :=
  [⟨2, ⟨[0x0C], by decide⟩, .both 64, .none⟩, ⟨3, ⟨[0x0D], by decide⟩, .both 64, .none⟩]

theorem farRouter_isSome :
    (Engine.new 4 2 2 4 2 (List.replicate 64 0) farPorts .standard 0).toOption.isSome = true := by
  decide +kernel

def farRouter : Engine 4 2 2 4 Groups :=
  (Engine.new 4 2 2 4 2 (List.replicate 64 0) farPorts .standard 0).toOption.get farRouter_isSome

/-- The router with `benchPorts`, which knows network 3 through the one behind it. -/
def nearRouter : Engine 4 2 2 4 Groups :=
  ((Engine.bench .standard Engine.bench_standard).step
    (.table (.addLearned 3 ⟨1⟩ ⟨[0x0C], by decide⟩ 0))).1

/-- A frame of station 7 on network 1, as it reaches either router. -/
def benchStage (i : ℕ) : Stage 4 2 2 4 Groups :=
  if i = 0 then ⟨nearRouter, ⟨0⟩, [7], false, 0, fun _ => true⟩
  else ⟨farRouter, ⟨0⟩, [0x0B], false, 0, fun _ => true⟩

def benchRoute (i : ℕ) : Route :=
  if i = 0 then .learned ⟨1⟩ ⟨[0x0C], by decide⟩ 0 else .directVia ⟨1⟩

def benchNpdu : Npdu where
  expectingReply := true
  priority := .normal
  destination := some ⟨3, [9]⟩
  source := none
  hopCount := 255
  messageType := none
  vendorId := none
  payload := [0x00, 0x02]
  payloadOffset := 7

theorem relays_bench (hi : i ≤ 1) : (benchStage i).Relays ⟨3, [9]⟩ (benchRoute i) := by
  rcases Nat.le_one_iff_eq_zero_or_eq_one.mp hi with rfl | rfl
  · exact ⟨.step (.new (Engine.new_bench _ _)) _, by decide +kernel, by decide +kernel,
      fun _ => by decide +kernel⟩
  · exact ⟨.new (Engine.ok_of_isSome farRouter_isSome), by decide +kernel, by decide +kernel,
      fun _ => by decide +kernel⟩

theorem chain_bench : Chain benchStage benchRoute 1 benchNpdu ⟨3, [9]⟩ ⟨1, [7]⟩ where
  relays := fun _ => relays_bench
  learned := fun i hi => by obtain rfl := Nat.lt_one_iff.mp hi; rfl
  linked := fun i hi => by
    obtain rfl := Nat.lt_one_iff.mp hi
    exact ⟨_, _, rfl, rfl, by decide +kernel, by decide +kernel⟩
  delivers := by
    refine ⟨rfl, fun _ egress hegress => ?_, fun _ hport => absurd hport (by decide +kernel)⟩
    cases hegress
    rfl
  carries := fun i hi => by
    obtain rfl := Nat.lt_one_iff.mp hi
    exact ⟨_, rfl, by decide +kernel⟩
  arrives := ⟨_, rfl, by decide +kernel⟩

theorem enters_bench :
    Chain.Enters benchStage [1, 0x24, 0, 3, 1, 9, 255, 0x00, 0x02] benchNpdu ⟨3, [9]⟩ ⟨1, [7]⟩ where
  decode := by decide +kernel
  messageType := rfl
  addressed := rfl
  cast := nofun
  source := by decide
  begins := ⟨_, rfl, by decide +kernel⟩
  named := fun _ => by decide

theorem forwarding_transparent_bench :
    ∃ send, (∀ count, (benchStage 1).sends
        (along benchStage [1, 0x24, 0, 3, 1, 9, 255, 0x00, 0x02] 1) (count + 1) = [send]) ∧
      send.port = ⟨1⟩ ∧ send.dest = .unicast [9] ∧
      ∃ arrived, Npdu.decode send.npdu = .ok arrived ∧ arrived.payload = [0x00, 0x02] ∧
        arrived.source = some ⟨1, [7]⟩ := by
  obtain ⟨send, hsends, hport, hdest, _, arrived, hdecode, _, hpayload, _, _, _, hsource⟩ :=
    (forwarding_transparent chain_bench enters_bench (by decide)).2
  exact ⟨send, hsends, hport, hdest, arrived, hdecode, hpayload, hsource⟩

/-- A request for every station of network 2 that isn't an unconfirmed one. -/
def confirmedNpdu : Npdu where
  expectingReply := false
  priority := .normal
  destination := some ⟨2, []⟩
  source := none
  hopCount := 255
  messageType := none
  vendorId := none
  payload := [0x00, 0x02]
  payloadOffset := 6

/-- A router with a direct route for its network sends it nowhere. -/
theorem confirmed_broadcast_dropped :
    Chain benchStage (fun _ => .directVia ⟨1⟩) 0 confirmedNpdu ⟨2, []⟩ ⟨1, [7]⟩ ∧
      Npdu.decode [1, 0x20, 0, 2, 0, 255, 0x00, 0x02] = .ok confirmedNpdu ∧
      ∀ count, (benchStage 0).sends [1, 0x20, 0, 2, 0, 255, 0x00, 0x02] count = [] := by
  refine ⟨⟨?_, nofun, nofun, ⟨rfl, fun hmac => absurd rfl hmac, fun hmac => absurd rfl hmac⟩, nofun,
    ⟨_, rfl, by decide +kernel⟩⟩, by decide +kernel, fun count => ?_⟩
  · intro i hi
    obtain rfl := Nat.le_zero.mp hi
    exact ⟨.step (.new (Engine.new_bench _ _)) _, by decide +kernel, by decide +kernel,
      fun hmac => absurd rfl hmac⟩
  · exact polls_ended ⟨by decide +kernel, by decide +kernel⟩ (by decide +kernel) count

end Chain

end RustyBacnet.Router
