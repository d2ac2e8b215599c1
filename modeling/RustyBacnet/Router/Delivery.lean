import RustyBacnet.Router.Outcome

/-!
# Every delivery can be answered

`local` builds the return route of an APDU it delivers and expects that to succeed. It does: the
link source was admitted, the SNET and SADR were decoded, and a DNET and DADR become the answer's
source only when they are the router's own address.
-/

namespace RustyBacnet.Router

open Npdu

variable {R H D B : ℕ} {G : Type} {s : Storage R H D B G} {at_ : Arrival} {npdu : Npdu}

/-- A result whose delivery, if it is one, has its return route. -/
def Received.Answerable (received : Received) : Prop :=
  ∀ delivery, received = .delivered delivery → delivery.reply.isSome = true

theorem ownOptional_ok {address : Option Address} (h : ∀ a ∈ address, SourceOk a) :
    ∃ owned, ReplyPlan.ownOptional address = .ok owned := by
  cases address with
  | none => exact ⟨none, rfl⟩
  | some a =>
    have hlen : a.mac.length ≤ maxMacLen := (h a rfl).2.2.2
    unfold ReplyPlan.ownOptional ReplyPlan.own Mac.fromSlice
    dsimp only
    rw [dif_pos hlen]
    exact ⟨_, rfl⟩

theorem replyPlan_ok {peer : List UInt8} {mac : Mac} {source destination : Option Address}
    (port : PortId) (hpeer : Mac.fromSlice peer = some mac) (hsource : ∀ a ∈ source, SourceOk a)
    (hdestination : ∀ a ∈ destination, SourceOk a) :
    (ReplyPlan.new port peer source destination).toOption.isSome = true := by
  have hplain : (destination.any fun a => a.network == globalNetwork || a.mac.isEmpty) = false := by
    cases destination with
    | none => rfl
    | some a =>
      obtain ⟨_, hglobal, hmac, _⟩ := hdestination a rfl
      rw [Option.any_some, Bool.or_eq_false_iff]
      exact ⟨beq_eq_false_iff_ne.mpr hglobal, List.isEmpty_eq_false_iff.mpr hmac⟩
  have henc : ({ Npdu.apdu [] with source := source, destination := destination } : Npdu).Encodable :=
    ⟨fun a ha => ⟨(hdestination a ha).1, (hdestination a ha).2.2.2⟩, hsource⟩
  have hlen : ∀ address : Option Address, (∀ a ∈ address, SourceOk a) →
      addressLen address ≤ 3 + maxMacLen := by
    intro address h
    cases address with
    | none => exact Nat.zero_le _
    | some a => exact Nat.add_le_add_left (h a rfl).2.2.2 3
  have hroom : ({ Npdu.apdu [] with source := source, destination := destination } : Npdu).encodedLen
      ≤ (List.replicate ReplyPlan.headerRoom (0 : UInt8)).length := by
    have hs := hlen source hsource
    have hd := hlen destination hdestination
    have hhop := Bool.toNat_le destination.isSome
    rw [List.length_replicate]
    unfold encodedLen ReplyPlan.headerRoom
    simp only [Npdu.apdu, messageLen, List.length_nil]
    omega
  obtain ⟨ownSource, hown⟩ := ownOptional_ok hsource
  obtain ⟨ownDestination, hown'⟩ := ownOptional_ok hdestination
  unfold ReplyPlan.new
  rw [hplain, if_neg (by decide), encodeInto_of_encodable henc hroom]
  rw [hpeer, hown, hown']
  rfl

/-- An admitted frame's arrival. -/
structure Arrival.Admitted (at_ : Arrival) : Prop where
  source : Mac.fromSlice at_.source = some at_.sourceMac

theorem deliver_group (hat : at_.Admitted) (henc : npdu.Encodable) (global : Bool) :
    (deliver at_ npdu true global).reply.isSome = true :=
  replyPlan_ok at_.port hat.source nofun henc.source

variable {destination : Address}

theorem deliver_own (hat : at_.Admitted) (henc : npdu.Encodable)
    (hdestination : npdu.destination = some destination)
    (hnetwork : destination.network ≠ globalNetwork) (hmac : destination.mac ≠ []) :
    (deliver at_ npdu false false).reply.isSome = true := by
  refine replyPlan_ok at_.port hat.source ?_ henc.source
  rintro address haddress
  obtain ⟨hzero, hlen⟩ := henc.destination destination hdestination
  have : address = destination := by
    rw [if_neg (by decide), hdestination] at haddress
    exact (Option.mem_some_iff.mp haddress).symm
  rw [this]
  exact ⟨hzero, hnetwork, hmac, hlen⟩

theorem deliver_local (hat : at_.Admitted) (henc : npdu.Encodable)
    (hdestination : npdu.destination = none) (group : Bool) :
    (deliver at_ npdu group false).reply.isSome = true := by
  refine replyPlan_ok at_.port hat.source ?_ henc.source
  rw [hdestination, ite_self]
  nofun

/-! ## Results -/

theorem answerable_handled : Received.handled.Answerable := fun _ => Received.noConfusion

theorem answerable_toRouter (npdu : Npdu) : (Received.toRouter npdu).Answerable :=
  fun _ => Received.noConfusion

theorem answerable_discarded (discard : Discard) : (Received.discarded discard).Answerable :=
  fun _ => Received.noConfusion

theorem answerable_delivered {delivery : Delivery} (h : delivery.reply.isSome = true) :
    (Received.delivered delivery).Answerable := by
  rintro other ⟨⟩
  exact h

theorem answerable_ite {α : Type} {c : Prop} [Decidable c] {a b : α × Received}
    (ha : c → a.2.Answerable) (hb : ¬c → b.2.Answerable) : (if c then a else b).2.Answerable := by
  split_ifs with h
  · exact ha h
  · exact hb h

namespace Storage

theorem answerable_forward (s : Storage R H D B G) (at_ : Arrival) (npdu : Npdu) (route : Route) :
    (s.forward at_ npdu route).2.Answerable := by
  refine answerable_ite (fun _ => answerable_discarded _) fun _ => ?_
  split
  · exact answerable_discarded _
  · refine answerable_ite (fun _ => answerable_handled) fun _ => ?_
    exact answerable_ite (fun _ => answerable_handled) fun _ => answerable_discarded _

theorem answerable_authorized {host : Claim → Bool} {claim : Claim}
    {allowed : Storage R H D B G × Received} (h : allowed.2.Answerable) :
    (s.authorized host claim allowed).2.Answerable :=
  answerable_ite (fun _ => h) fun _ => answerable_discarded _

theorem answerable_relayed (s : Storage R H D B G) (at_ : Arrival) (relay : Npdu)
    (kind : NetworkMessageType) : (s.relayed at_ relay kind).2.Answerable := by
  unfold relayed
  split
  · exact answerable_handled
  · exact answerable_discarded _

theorem answerable_whoIsRouter (s : Storage R H D B G) (at_ : Arrival) (npdu : Npdu)
    (options : Options) : (s.whoIsRouter at_ npdu options).2.Answerable := by
  unfold whoIsRouter
  split
  · exact answerable_discarded _
  split
  · exact answerable_discarded _
  · exact answerable_handled
  refine answerable_ite (fun _ => answerable_discarded _) fun _ => ?_
  split
  · exact answerable_ite (fun _ => answerable_handled) fun _ => answerable_handled
  split
  · exact answerable_discarded _
  · exact answerable_relayed _ _ _ _

theorem answerable_iAmRouter (s : Storage R H D B G) (at_ : Arrival) (npdu : Npdu)
    (options : Options) (host : Claim → Bool) :
    (s.iAmRouter at_ npdu options host).2.Answerable := by
  unfold iAmRouter
  split
  · exact answerable_discarded _
  apply answerable_authorized
  split
  · exact answerable_discarded _
  · exact answerable_relayed _ _ _ _

theorem answerable_iCouldBeRouter (s : Storage R H D B G) (at_ : Arrival) (npdu : Npdu)
    (options : Options) (host : Claim → Bool) :
    (s.iCouldBeRouter at_ npdu options host).2.Answerable := by
  unfold iCouldBeRouter
  split
  · exact answerable_discarded _
  apply answerable_authorized
  exact answerable_ite (fun _ => answerable_handled) fun _ => answerable_handled

theorem answerable_passOnReject [GroupClassifier G] (s : Storage R H D B G) (at_ : Arrival)
    (npdu : Npdu) : (s.passOnReject at_ npdu).2.Answerable := by
  unfold passOnReject
  split
  · exact answerable_toRouter npdu
  dsimp only
  split
  · exact answerable_ite (fun _ => answerable_discarded _) fun _ => answerable_forward _ _ _ _
  · exact answerable_discarded _

theorem answerable_receivedReject [GroupClassifier G] (s : Storage R H D B G) (at_ : Arrival)
    (npdu : Npdu) (options : Options) (host : Claim → Bool) :
    (s.receivedReject at_ npdu options host).2.Answerable := by
  unfold receivedReject
  split
  · exact answerable_discarded _
  apply answerable_authorized
  exact answerable_passOnReject _ _ _

theorem answerable_flowControl (s : Storage R H D B G) (at_ : Arrival) (npdu : Npdu) (busy : Bool)
    (options : Options) (host : Claim → Bool) :
    (s.flowControl at_ npdu busy options host).2.Answerable := by
  unfold flowControl
  split
  · exact answerable_discarded _
  apply answerable_authorized
  dsimp only
  generalize (if busy = true then NetworkMessageType.routerBusyToNetwork
    else .routerAvailableToNetwork) = kind
  split
  · exact answerable_discarded _
  · exact answerable_relayed _ _ _ _

theorem answerable_initializeRoutingTable (s : Storage R H D B G) (at_ : Arrival) (npdu : Npdu)
    (options : Options) (host : Claim → Bool) :
    (s.initializeRoutingTable at_ npdu options host).2.Answerable := by
  unfold initializeRoutingTable
  split
  · exact answerable_discarded _
  refine answerable_ite (fun _ => answerable_handled) fun _ => ?_
  apply answerable_authorized
  exact answerable_handled

theorem answerable_routingTableAck (s : Storage R H D B G) (at_ : Arrival) (npdu : Npdu)
    (options : Options) (host : Claim → Bool) :
    (s.routingTableAck at_ npdu options host).2.Answerable := by
  refine answerable_ite (fun _ => answerable_handled) fun _ => ?_
  split
  · exact answerable_discarded _
  apply answerable_authorized
  exact answerable_handled

theorem answerable_handleMessage [GroupClassifier G] (s : Storage R H D B G) (at_ : Arrival)
    (npdu : Npdu) (kind : NetworkMessageType) (options : Options) (host : Claim → Bool) :
    (s.handleMessage at_ npdu kind options host).2.Answerable := by
  refine answerable_ite (fun _ => answerable_whoIsRouter s at_ npdu options) fun _ => ?_
  refine answerable_ite (fun _ => answerable_iAmRouter s at_ npdu options host) fun _ => ?_
  refine answerable_ite (fun _ => answerable_iCouldBeRouter s at_ npdu options host) fun _ => ?_
  refine answerable_ite (fun _ => answerable_receivedReject s at_ npdu options host) fun _ => ?_
  refine answerable_ite (fun _ => answerable_flowControl s at_ npdu true options host) fun _ => ?_
  refine answerable_ite (fun _ => answerable_flowControl s at_ npdu false options host) fun _ => ?_
  refine answerable_ite (fun _ => answerable_initializeRoutingTable s at_ npdu options host)
    fun _ => ?_
  refine answerable_ite (fun _ => answerable_routingTableAck s at_ npdu options host) fun _ => ?_
  refine answerable_ite (fun _ => ?_) fun _ => answerable_ite (fun _ => ?_) fun _ =>
    answerable_ite (fun _ => ?_) fun _ => answerable_ite (fun _ => ?_) fun _ => ?_
  · unfold establishConnection
    split
    · exact answerable_discarded _
    · exact answerable_handled
  · unfold disconnectConnection
    split
    · exact answerable_discarded _
    · exact answerable_handled
  · exact answerable_ite (fun _ => answerable_discarded _) fun _ => answerable_handled
  · refine answerable_ite (fun _ => answerable_discarded _) fun _ => ?_
    split
    · exact answerable_discarded _
    · exact answerable_ite (fun _ => answerable_handled) fun _ => answerable_handled
  · exact answerable_ite (fun _ => answerable_handled) fun _ => answerable_handled

theorem answerable_networkMessage [GroupClassifier G] (s : Storage R H D B G) (at_ : Arrival)
    (npdu : Npdu) (kind : NetworkMessageType) (options : Options) (host : Claim → Bool) :
    (s.networkMessage at_ npdu kind options host).2.Answerable := by
  unfold networkMessage
  split
  · split
    · exact answerable_handled
    · exact answerable_ite (fun _ => answerable_discarded _) fun _ => answerable_forward _ _ _ _
  · exact answerable_handleMessage s at_ npdu kind options host

/-! ## APDUs -/

theorem answerable_forwarded (s : Storage R H D B G) (at_ : Arrival) (npdu : Npdu) (route : Route)
    {delivered : Option Delivery}
    (h : ∀ delivery, delivered = some delivery → delivery.reply.isSome = true) :
    (s.forwarded at_ npdu route delivered).2.Answerable := by
  cases delivered with
  | none => exact answerable_forward s at_ npdu route
  | some delivery => exact answerable_delivered (h delivery rfl)

theorem answerable_routeAlong [GroupClassifier G] (s : Storage R H D B G) (hat : at_.Admitted)
    (henc : npdu.Encodable) (hdestination : npdu.destination = some destination)
    (hnetwork : destination.network ≠ globalNetwork) (route : Route) :
    (s.routeAlong at_ npdu destination route).2.Answerable := by
  have hgroup : ∀ delivery, (if (route.port == at_.port && route.direct) && destination.mac.isEmpty
      then some (deliver at_ npdu true false) else none) = some delivery →
      delivery.reply.isSome = true := by
    intro delivery h
    split_ifs at h
    cases h
    exact deliver_group hat henc false
  have hbroadcast : ({ npdu with destination := some ⟨destination.network, []⟩ } : Npdu).Encodable :=
    ⟨fun address h => (Option.mem_some_iff.mp h) ▸
      ⟨(henc.destination destination hdestination).1, Nat.zero_le _⟩, henc.source⟩
  unfold routeAlong
  dsimp only
  refine answerable_ite (fun h => ?_) fun _ => ?_
  · refine answerable_delivered (deliver_own hat henc hdestination hnetwork ?_)
    simp only [Bool.and_eq_true, Bool.not_eq_true', List.isEmpty_eq_false_iff] at h
    exact h.1.2
  split
  · exact answerable_forwarded s at_ npdu route hgroup
  · refine answerable_ite (fun _ => ?_) fun _ => answerable_discarded _
    refine answerable_forwarded s at_ _ route fun delivery h => ?_
    split at h
    · cases h
      exact deliver_group hat hbroadcast false
    · exact hgroup delivery h
  · exact answerable_discarded _

theorem answerable_routeApdu [GroupClassifier G] (s : Storage R H D B G) (hat : at_.Admitted)
    (henc : npdu.Encodable) (options : Options) : (s.routeApdu at_ npdu options).2.Answerable := by
  unfold routeApdu
  split
  · exact answerable_delivered (deliver_local hat henc ‹_› at_.linkGroup)
  rename_i destination hdestination
  refine answerable_ite (fun _ => ?_) fun hnetwork => answerable_ite (fun h => ?_) fun _ => ?_
  · unfold routeGlobal
    split
    · exact answerable_discarded _
    split
    · exact answerable_discarded _
    · exact answerable_delivered (deliver_group hat henc true)
  · refine answerable_delivered (deliver_own hat henc hdestination hnetwork ?_)
    simp only [Bool.and_eq_true, Bool.not_eq_true', List.isEmpty_eq_false_iff] at h
    exact h.1
  split
  · exact answerable_handled
  · exact answerable_routeAlong _ hat henc hdestination hnetwork _

theorem answerable_receive [GroupClassifier G] (s : Storage R H D B G) (frame : Frame)
    (now : Instant) (options : Options) (host : Claim → Bool) :
    (s.receive frame now options host).2.Answerable := by
  unfold receive
  dsimp only
  split
  · exact answerable_discarded _
  rename_i config _
  split
  · exact answerable_discarded _
  rename_i mac hmac
  split
  · rename_i npdu hadmitted
    have henc := decode_encodable (admitNpdu_ok hadmitted)
    have hat : Arrival.Admitted
        ⟨frame.port, config.network, frame.source, mac, frame.linkGroup, now⟩ := by
      unfold admitSource at hmac
      split at hmac
      · cases hmac
        exact ⟨‹_›⟩
      · cases hmac
    unfold dispatch
    split
    · exact answerable_networkMessage _ _ npdu _ options host
    · exact answerable_routeApdu _ hat henc options
  · exact answerable_discarded _

end Storage

end RustyBacnet.Router
