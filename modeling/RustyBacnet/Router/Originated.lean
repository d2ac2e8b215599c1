import RustyBacnet.Router.Drains
import RustyBacnet.Router.Housed

/-!
# Requests of the router's own

A global broadcast of the router's own goes to every port once before the router is idle. The
copies for the other ports are the NPDU as it was written; the one for the port the request comes
from is its tail. A request that is refused leaves at most a search behind.
-/

namespace RustyBacnet.Router

open BigEndian

variable {options : Options} {now : Instant}

namespace Storage

variable {R H D B : ℕ} {G : Type} {s t : Storage R H D B G}

/-! ## Global requests -/

def namedPort (s : Storage R H D B G) (selected : Option PortId) : Option PortId :=
  if 1 < s.ports.length then selected else none

def globalNpdu (s : Storage R H D B G) (request : Request) (named : Option PortId) : Npdu :=
  { requestNpdu request ⟨globalNetwork, []⟩ with source := named.bind s.addressOf }

def globalCurrent (npdu : Npdu) (request : Request) (named : Option PortId) : Current :=
  let current := Current.new npdu.encodedLen .originate .own request.priority
    (.allBut (named.getD noPort))
  if named.isSome then
    current.withTail (npdu.encodedLen - (requestNpdu request ⟨globalNetwork, []⟩).encodedLen)
      (bare npdu).controlOctet
  else current

/-- The storage with an NPDU written as its current output. -/
def written (s : Storage R H D B G) (npdu : Npdu) (current : Current) : Storage R H D B G :=
  ((s.setScratch (npdu.wire ++ s.scratch.drop npdu.encodedLen)).setCurrent current).bump .originated

/-- A global request that is taken fits every port and is the current output. -/
structure GlobalTaken (s t : Storage R H D B G) (request : Request) (named : Option PortId) :
    Prop where
  encodable : (s.globalNpdu request named).Encodable
  room : (s.globalNpdu request named).encodedLen ≤ s.scratch.length
  fits : s.globalTooLong named (requestNpdu request ⟨globalNetwork, []⟩).encodedLen
    (s.globalNpdu request named).encodedLen = none
  eq : t = s.written (s.globalNpdu request named)
    (globalCurrent (s.globalNpdu request named) request named)

theorem originateGlobal_cases (s : Storage R H D B G) (request : Request)
    (selected : Option PortId) :
    (∃ refused, (s.originateGlobal request selected).2 = .error refused ∧ refused ≠ .noRoute ∧
        Queued s (s.originateGlobal request selected).1 []) ∨
      (s.originateGlobal request selected).2 = .ok () ∧
        GlobalTaken s (s.originateGlobal request selected).1 request (s.namedPort selected) := by
  have hdestination : (s.globalNpdu request (s.namedPort selected)).destination
      = some ⟨globalNetwork, []⟩ := rfl
  have hheader := bareHeader hdestination rfl
  unfold originateGlobal
  dsimp only
  cases hlong : s.globalTooLong (s.namedPort selected)
      (requestNpdu request ⟨globalNetwork, []⟩).encodedLen
      (s.globalNpdu request (s.namedPort selected)).encodedLen with
  | some refused =>
    unfold namedPort globalNpdu at hlong
    rw [hlong]
    exact .inl ⟨_, rfl, nofun, queued_bump s _⟩
  | none =>
    have hlong' := hlong
    unfold namedPort globalNpdu at hlong'
    rw [hlong']
    rcases (s.globalNpdu request (s.namedPort selected)).encodeInto_cases s.scratch with
      ⟨refused, h⟩ | ⟨henc, hroom, h⟩
    · have h' := h
      unfold namedPort globalNpdu at h'
      rw [h']
      exact .inl ⟨_, rfl, nofun, queued_bump s _⟩
    · have h' := h
      unfold namedPort globalNpdu at h'
      rw [h']
      right
      dsimp only
      by_cases hnamed : (s.namedPort selected).isSome = true
      · have hcurrent : globalCurrent (s.globalNpdu request (s.namedPort selected)) request
            (s.namedPort selected) = (Current.new
              (s.globalNpdu request (s.namedPort selected)).encodedLen .originate .own
              request.priority (.allBut ((s.namedPort selected).getD noPort))).withTail
                ((s.globalNpdu request (s.namedPort selected)).encodedLen
                  - (requestNpdu request ⟨globalNetwork, []⟩).encodedLen)
                (bare (s.globalNpdu request (s.namedPort selected))).controlOctet :=
          if_pos hnamed
        have hnamed' := hnamed
        unfold namedPort at hnamed'
        rw [if_pos hnamed']
        unfold globalNpdu namedPort at hheader
        rw [hheader]
        dsimp only
        rw [debugAssert_of _ _ (by rfl)]
        refine ⟨rfl, henc, hroom, hlong, ?_⟩
        rw [hcurrent]
        rfl
      · have hcurrent : globalCurrent (s.globalNpdu request (s.namedPort selected)) request
            (s.namedPort selected) = Current.new
              (s.globalNpdu request (s.namedPort selected)).encodedLen .originate .own
              request.priority (.allBut ((s.namedPort selected).getD noPort)) :=
          if_neg hnamed
        have hnamed' := hnamed
        unfold namedPort at hnamed'
        rw [if_neg hnamed']
        refine ⟨rfl, henc, hroom, hlong, ?_⟩
        rw [hcurrent]
        rfl

section Taken

variable {request : Request} {named : Option PortId}

theorem GlobalTaken.carries (h : GlobalTaken s t request named) :
    Carries t (s.globalNpdu request named) := by
  have hwire := (s.globalNpdu request named).length_wire
  have hroom := h.room
  rw [h.eq]
  refine ⟨h.encodable, ?_, ?_, ?_, ?_⟩
  · show (globalCurrent _ request named).len = _
    unfold globalCurrent
    split_ifs <;> rfl
  · show _ ≤ (_ ++ _ : List UInt8).length
    rw [List.length_append, hwire]
    omega
  · show (_ ++ _ : List UInt8).take _ = _
    rw [← hwire]
    exact List.take_left
  · show (globalCurrent _ request named).start = 0
    unfold globalCurrent
    split_ifs <;> rfl

/-- The fields of a global request's current output. -/
structure GlobalFields (current : Current) (request : Request) (own : PortId) : Prop where
  active : current.active = true
  fanOut : current.fanOut = true
  next : current.next = 0
  port : current.port = own
  kind : current.kind = .originate
  cause : current.cause = .own
  priority : current.priority = request.priority
  origin : current.rejectOrigin = .none

theorem globalCurrent_fields (npdu : Npdu) (request : Request) (named : Option PortId) :
    GlobalFields (globalCurrent npdu request named) request (named.getD noPort) := by
  unfold globalCurrent
  split_ifs
  all_goals exact ⟨rfl, rfl, rfl, rfl, rfl, rfl, rfl, rfl⟩

theorem GlobalTaken.fields (h : GlobalTaken s t request named) :
    GlobalFields t.out.current request (named.getD noPort) := by
  rw [h.eq]
  exact globalCurrent_fields _ request named

theorem GlobalTaken.ports (h : GlobalTaken s t request named) : t.ports = s.ports := by
  rw [h.eq]
  rfl

theorem GlobalTaken.sole (h : GlobalTaken s t request named) (hs : Sole s) : Sole t := by
  rw [h.eq]
  exact ⟨hs.tasks, hs.flows⟩

variable {port : ℕ}

theorem GlobalTaken.fitting (h : GlobalTaken s t request named) (hport : port < s.ports.length) :
    ∃ config, s.ports[port]? = some config ∧
      (if named = some ⟨UInt8.ofNat port⟩ then
        (requestNpdu request ⟨globalNetwork, []⟩).encodedLen
      else (s.globalNpdu request named).encodedLen) ≤ config.maxNpdu.get true := by
  refine ⟨s.ports[port], List.getElem?_eq_getElem hport, ?_⟩
  have hall := List.findSome?_eq_none_iff.mp h.fits (s.ports[port], port)
    (List.mem_zipIdx_iff_getElem?.mpr (List.getElem?_eq_getElem hport))
  dsimp only at hall
  split_ifs at hall ⊢ with hnamed hlt hlt
  all_goals exact Nat.not_lt.mp hlt

theorem portOf_ofNat (h : port < 256) : s.portOf ⟨UInt8.ofNat port⟩ = s.ports[port]? := by
  unfold portOf
  rw [UInt8.toNat_ofNat_of_lt' h]

theorem GlobalTaken.fitsFrom (h : GlobalTaken s t request named) (hports : s.ports.length < 256)
    (hport : port < t.ports.length) (hne : port ≠ t.out.current.port.index.toNat) :
    t.fitsFrom 0 ⟨UInt8.ofNat port⟩ true = true := by
  rw [h.ports] at hport
  obtain ⟨config, hconfig, hfits⟩ := h.fitting hport
  rw [if_neg] at hfits
  · unfold Storage.fitsFrom
    rw [portOf_ofNat (by omega), h.ports, hconfig, h.carries.len]
    exact decide_eq_true hfits
  · rintro rfl
    rw [h.fields.port] at hne
    exact hne ((portId_eq_iff (by omega) _).mp rfl)

theorem requestNpdu_source (request : Request) (destination : Address) :
    (requestNpdu request destination).source = none := rfl

variable {address : Address}

theorem globalNpdu_encodedLen (s : Storage R H D B G) (request : Request) (named : Option PortId)
    (h : named.bind s.addressOf = some address) :
    (s.globalNpdu request named).encodedLen
      = (requestNpdu request ⟨globalNetwork, []⟩).encodedLen + (3 + address.mac.length) := by
  unfold globalNpdu
  rw [h]
  unfold Npdu.encodedLen
  rw [requestNpdu_source]
  simp only [Npdu.addressLen, Option.elim_some, Option.elim_none]
  omega

theorem GlobalTaken.tail {own : PortId} {address : Address}
    (h : GlobalTaken s t request (some own)) (haddress : s.addressOf own = some address) :
    TailOk t.out.current (s.globalNpdu request (some own)) := by
  rw [h.eq]
  refine ⟨rfl, ⟨address, haddress, ?_⟩, rfl⟩
  show (s.globalNpdu request (some own)).encodedLen
    - (requestNpdu request ⟨globalNetwork, []⟩).encodedLen = _
  rw [globalNpdu_encodedLen s request (some own) haddress]
  omega

variable {own : PortId}

theorem GlobalTaken.tail_fits (h : GlobalTaken s t request (some own))
    (hown : own.index.toNat < s.ports.length) :
    t.fitsFrom t.out.current.tail t.out.current.port true = true := by
  obtain ⟨config, hconfig, hfits⟩ := h.fitting hown
  rw [if_pos (by rw [UInt8.ofNat_toNat])] at hfits
  have hport : t.out.current.port = own := h.fields.port
  have htail : t.out.current.tail = (s.globalNpdu request (some own)).encodedLen
      - (requestNpdu request ⟨globalNetwork, []⟩).encodedLen := by
    rw [h.eq]
    rfl
  unfold Storage.fitsFrom portOf
  rw [hport, h.ports, hconfig, h.carries.len, htail]
  refine decide_eq_true ?_
  omega

/-- The copy of a global request for a port, with or without its source fields. -/
def globalSend (request : Request) (port : PortId) (npdu : Npdu) : Send where
  port := port
  dest := .broadcast
  npdu := npdu.wire
  priority := request.priority
  kind := .originate
  cause := .own
  rejectOrigin := none

theorem GlobalTaken.sendOf (h : GlobalTaken s t request named) (port : PortId) :
    t.sendOf port true = globalSend request port (s.globalNpdu request named) := by
  have hoctets := h.carries.sentOctets_eq
  unfold sentOctets at hoctets
  unfold Storage.sendOf globalSend
  rw [if_pos rfl, hoctets, h.fields.priority, h.fields.kind, h.fields.cause, h.fields.origin]
  rfl

/-- The other ports in order, then the one the request comes from. -/
theorem GlobalTaken.drains_named (h : GlobalTaken s t request (some own)) (hs : Sole s)
    (hports : s.ports.length < 256) (haddress : s.addressOf own = some address)
    (hown : own.index.toNat < s.ports.length) :
    Drains t ((((List.range s.ports.length).filter fun port => port != own.index.toNat).map
        fun port => globalSend request ⟨UInt8.ofNat port⟩ (s.globalNpdu request (some own)))
      ++ [globalSend request own (bare (s.globalNpdu request (some own)))]) := by
  have hfields := h.fields
  have hall := drains_fanOut (s := t)
    [globalSend request own (bare (s.globalNpdu request (some own)))]
    s.ports.length (h.sole hs) hfields.active hfields.fanOut
    (by rw [hfields.next, h.ports, Nat.zero_add]) (by rw [h.ports]; exact hports)
    (fun port => h.fitsFrom hports) fun u hu hnext => ?_
  · unfold copiesFrom at hall
    rw [hfields.next, hfields.port, Option.getD_some] at hall
    simp only [h.sendOf] at hall
    rw [← List.range_eq_range'] at hall
    exact hall
  · obtain ⟨next, hcurrent⟩ := hu.current
    have hcarries := h.carries
    have htail := h.tail haddress
    have hsend : u.tailSend (s.globalNpdu request (some own))
        = globalSend request own (bare (s.globalNpdu request (some own))) := by
      unfold tailSend
      rw [hu.sendOf, h.sendOf, show u.out.current.port = own by rw [hcurrent]; exact hfields.port]
      rfl
    rw [← hsend]
    refine drains_tail (hu.sole (h.sole hs)) (by rw [hcurrent]; exact hfields.active)
      (by rw [hcurrent]; exact hfields.fanOut) hnext ⟨hcarries.encodable, ?_, ?_, ?_, ?_⟩
      ⟨htail.destination, ?_, ?_⟩ ?_
    · rw [hcurrent]
      exact hcarries.len
    · rw [hu.scratch]
      exact hcarries.room
    · rw [hu.scratch]
      exact hcarries.octets
    · rw [hcurrent]
      exact hcarries.start
    · rw [hcurrent]
      exact htail.source
    · rw [hcurrent]
      exact htail.control
    · rw [hu.fitsFrom, hcurrent]
      exact h.tail_fits hown

theorem GlobalTaken.drains_plain (h : GlobalTaken s t request none) (hs : Sole s)
    (hports : s.ports.length ≤ 255) :
    Drains t ((List.range s.ports.length).map fun port =>
      globalSend request ⟨UInt8.ofNat port⟩ (s.globalNpdu request none)) := by
  have hfields := h.fields
  have hall := drains_fanOut (s := t) [] s.ports.length (h.sole hs) hfields.active
    hfields.fanOut (by rw [hfields.next, h.ports, Nat.zero_add]) (by rw [h.ports]; omega)
    (fun port => h.fitsFrom (by omega)) fun u hu hnext => ?_
  · unfold copiesFrom at hall
    rw [hfields.next, hfields.port, Option.getD_none] at hall
    simp only [h.sendOf] at hall
    rw [← List.range_eq_range', List.append_nil, List.filter_eq_self.mpr] at hall
    · exact hall
    · intro port hport
      have hlt := List.mem_range.mp hport
      rw [bne_iff_ne]
      show port ≠ 255
      omega
  · obtain ⟨next, hcurrent⟩ := hu.current
    refine drains_past (hu.sole (h.sole hs)) (by rw [hcurrent]; exact hfields.active)
      (by rw [hcurrent]; exact hfields.fanOut) ?_ hnext
    rw [hcurrent, h.eq]
    rfl

end Taken

/-- What the copy of a global request for a port decodes to, apart from its source fields. -/
structure GlobalCopy (request : Request) (npdu : Npdu) : Prop where
  destination : npdu.destination = some ⟨globalNetwork, []⟩
  hopCount : npdu.hopCount = 255
  priority : npdu.priority = request.priority
  expectingReply : npdu.expectingReply = request.expectingReply
  messageType : npdu.messageType = none
  payload : npdu.payload = request.apdu

/-- The copies for other ports than the one the request comes from name it; no other does. -/
structure CopySource (s : Storage R H D B G) (request : Request) (port : PortId)
    (source : Option Address) : Prop where
  named : ∀ own, request.source = .port own → 1 < s.ports.length → port ≠ own →
    ∃ config, s.portOf own = some config ∧ source = some ⟨config.network, config.mac.octets⟩
  plain : (∀ own, request.source = .port own → 1 < s.ports.length → port = own) → source = none

/-- A send of a global request. -/
structure GlobalSent (s : Storage R H D B G) (request : Request) (send : Send) : Prop where
  dest : send.dest = .broadcast
  kind : send.kind = .originate
  priority : send.priority = request.priority
  decodes : ∃ npdu, Npdu.decode send.npdu = .ok npdu ∧ GlobalCopy request npdu ∧
    CopySource s request send.port npdu.source

variable {npdu : Npdu}

theorem globalSent {request : Request} {port : PortId} (henc : npdu.Encodable)
    (hcopy : GlobalCopy request npdu) (hsource : CopySource s request port npdu.source) :
    GlobalSent s request (globalSend request port npdu) where
  dest := rfl
  kind := rfl
  priority := rfl
  decodes := by
    refine ⟨npdu.normalised, Npdu.decode_wire henc, ⟨hcopy.destination, ?_, hcopy.priority,
      hcopy.expectingReply, hcopy.messageType, hcopy.payload⟩, hsource⟩
    unfold Npdu.normalised
    rw [hcopy.destination, hcopy.hopCount]
    rfl

theorem globalCopy_npdu (s : Storage R H D B G) (request : Request) (named : Option PortId) :
    GlobalCopy request (s.globalNpdu request named) := ⟨rfl, rfl, rfl, rfl, rfl, rfl⟩

theorem globalCopy_bare (s : Storage R H D B G) (request : Request) (named : Option PortId) :
    GlobalCopy request (bare (s.globalNpdu request named)) := ⟨rfl, rfl, rfl, rfl, rfl, rfl⟩

def allPorts (s : Storage R H D B G) : List PortId :=
  (List.range s.ports.length).map fun port => ⟨UInt8.ofNat port⟩

variable {selected : Option PortId}

theorem selectSource_ok {selection : SourceSelection} (h : s.selectSource selection = .ok selected)
    :
    (selection = .egressPort ∧ selected = none) ∨
      ∃ own config, selection = .port own ∧ selected = some own ∧ s.portOf own = some config := by
  unfold selectSource at h
  cases selection with
  | egressPort =>
    cases h
    exact .inl ⟨rfl, rfl⟩
  | port own =>
    dsimp only at h
    split_ifs at h with hknown
    cases h
    obtain ⟨config, hconfig⟩ := Option.isSome_iff_exists.mp hknown
    exact .inr ⟨own, config, rfl, rfl, hconfig⟩

/-- A global request that is taken goes to every port once. -/
theorem originateGlobal_sends {request : Request} (hs : Sole s) (hports : s.ports.length ≤ 255)
    (hselect : s.selectSource request.source = .ok selected)
    (h : GlobalTaken s t request (s.namedPort selected)) :
    ∃ sends, Drains t sends ∧ (sends.map Send.port).Perm s.allPorts ∧
      ∀ send ∈ sends, GlobalSent s request send := by
  have hplain : s.namedPort selected = none →
      (∀ own, request.source = .port own → ¬1 < s.ports.length) →
      ∃ sends, Drains t sends ∧ (sends.map Send.port).Perm s.allPorts ∧
        ∀ send ∈ sends, GlobalSent s request send := by
    intro hnone hfew
    rw [hnone] at h
    refine ⟨_, h.drains_plain hs hports, ?_, ?_⟩
    · rw [List.map_map]
      exact List.Perm.refl _
    · intro send hmem
      obtain ⟨port, _, rfl⟩ := List.mem_map.mp hmem
      refine globalSent h.encodable (globalCopy_npdu s request none) ⟨?_, fun _ => rfl⟩
      intro own hown hmany
      exact absurd hmany (hfew own hown)
  rcases selectSource_ok hselect with ⟨hsource, rfl⟩ | ⟨own, config, hsource, rfl, hconfig⟩
  · refine hplain (ite_self none) fun own hown => ?_
    rw [hsource] at hown
    cases hown
  by_cases hmany : 1 < s.ports.length
  case neg => exact hplain (if_neg hmany) fun _ _ => hmany
  rw [show s.namedPort (some own) = some own from if_pos hmany] at h
  have hown : own.index.toNat < s.ports.length :=
    (List.getElem?_eq_some_iff.mp hconfig).choose
  have haddress : s.addressOf own = some ⟨config.network, config.mac.octets⟩ := by
    unfold addressOf
    rw [hconfig]
    rfl
  have hsame : ∀ other, request.source = .port other → other = own := by
    intro other hother
    rw [hsource] at hother
    cases hother
    rfl
  refine ⟨_, h.drains_named hs (by omega) haddress hown, ?_, ?_⟩
  · have hperm : ((List.range s.ports.length).filter fun port => port != own.index.toNat).concat
        own.index.toNat |>.Perm (List.range s.ports.length) := by
      rw [← List.Nodup.erase_eq_filter List.nodup_range, List.concat_eq_append]
      exact (List.perm_append_singleton _ _).trans
        (List.perm_cons_erase (List.mem_range.mpr hown)).symm
    have hports := hperm.map fun port => (⟨UInt8.ofNat port⟩ : PortId)
    rw [List.concat_eq_append, List.map_append, List.map_singleton, UInt8.ofNat_toNat] at hports
    rw [List.map_append, List.map_map]
    exact hports
  · intro send hmem
    rcases List.mem_append.mp hmem with hmem | hmem
    · obtain ⟨port, hport, rfl⟩ := List.mem_map.mp hmem
      obtain ⟨hlt, hne⟩ := List.mem_filter.mp hport
      have hlt := List.mem_range.mp hlt
      refine globalSent h.encodable (globalCopy_npdu s request _) ⟨?_, ?_⟩
      · intro other hother _ _
        rw [hsame other hother]
        exact ⟨config, hconfig, haddress⟩
      · intro hall
        have heq := (portId_eq_iff (by omega) own).mp (hall own hsource hmany)
        exact absurd heq (by simpa using hne)
    · obtain rfl := List.mem_singleton.mp hmem
      refine globalSent (Encodable.bare h.encodable) (globalCopy_bare s request _)
        ⟨?_, fun _ => rfl⟩
      intro other hother _ hne
      exact absurd (hsame other hother).symm hne

/-! ## Refused requests -/

theorem Quiet.hasMore (h : Quiet s t) :
    t.out.current.hasMore t.ports.length = s.out.current.hasMore s.ports.length := by
  rw [h.current, h.ports]

/-- A request that is refused leaves nothing behind, or a search for a network with no route. -/
def Refusal (s t : Storage R H D B G) (request : Request) (refused : OriginateError) : Prop :=
  Queued s t [] ∨
    refused = .noRoute ∧ request.destination.network ≠ globalNetwork ∧
      s.table.lookup request.destination.network = none ∧
      Queued s t [.solicit noPort request.destination.network]

variable {refused : OriginateError}

theorem writeRequest_refused {limits : NpduLimits} {port : PortId} {dest : List UInt8}
    (h : (s.writeRequest npdu limits port dest).2 = .error refused) :
    Queued s (s.writeRequest npdu limits port dest).1 [] := by
  unfold writeRequest at h ⊢
  dsimp only at h ⊢
  split_ifs at h ⊢ with hlong
  · exact queued_bump s _
  rcases npdu.encodeInto_cases s.scratch with ⟨refused, hwrite⟩ | ⟨_, _, hwrite⟩
  · rw [hwrite]
    exact queued_bump s _
  · rw [hwrite] at h
    cases h

theorem originateAlong_refused [GroupClassifier G] {request : Request} {route : Route}
    (h : (s.originateAlong request selected route).2 = .error refused) :
    Queued s (s.originateAlong request selected route).1 [] := by
  unfold originateAlong at h ⊢
  cases hegress : s.portOf route.port with
  | none => exact Queued.refl s
  | some egress =>
    rw [hegress] at h
    dsimp only at h ⊢
    split_ifs at h ⊢
    · exact Queued.refl s
    all_goals exact writeRequest_refused h

theorem solicit_queued (hs : s.out.tasks = []) (allBut : PortId) (dnet : UInt16) (now : Instant)
    (cooldown : Duration) :
    Queued s (s.solicit allBut dnet now cooldown) [] ∨
      Queued s (s.solicit allBut dnet now cooldown) [.solicit allBut dnet] := by
  unfold solicit
  dsimp only
  split_ifs
  · refine .inr ((queued_setDiscovery s _).trans ((queued_bump _ _).trans (queued_push _ _ ?_)))
    show s.out.tasks.length < queueLen
    rw [hs]
    decide
  · exact .inl (queued_setDiscovery s _)

theorem originateTo_refused [GroupClassifier G] {request : Request} (hs : s.out.tasks = [])
    (hglobal : request.destination.network ≠ globalNetwork)
    (h : (s.originateTo request now options selected).2 = .error refused) :
    Refusal s (s.originateTo request now options selected).1 request refused := by
  unfold originateTo at h ⊢
  dsimp only at h ⊢
  cases hlookup : s.table.lookup request.destination.network with
  | none =>
    rw [hlookup] at h
    cases h
    rcases solicit_queued hs noPort request.destination.network now options.discoveryCooldown with
      hq | hq
    · exact .inl hq
    · exact .inr ⟨rfl, hglobal, hlookup, hq⟩
  | some route =>
    rw [hlookup] at h
    have htouch := queued_setTable s (s.table.touch request.destination.network now)
    generalize Table.effectiveReachability
      (s.setTable (s.table.touch request.destination.network now)).table
      request.destination.network now = reached at h ⊢
    rcases reached with _ | ⟨_ | _ | _⟩
    · exact .inl (htouch.trans (originateAlong_refused h))
    · exact .inl (htouch.trans (originateAlong_refused h))
    · exact .inl htouch
    · exact .inl htouch

theorem originate_refused [GroupClassifier G] (s : Storage R H D B G) {request : Request}
    (h : (s.originate request now options).2 = .error refused) :
    Refusal s.dropUndrained (s.originate request now options).1 request refused := by
  have hstill : Refusal s.dropUndrained s.dropUndrained request refused := .inl (Queued.refl _)
  unfold originate at h ⊢
  by_cases hzero : request.destination.network = 0
  · rw [if_pos hzero]
    exact hstill
  rw [if_neg hzero] at h ⊢
  by_cases hdadr : (request.destination.network == globalNetwork
      && !request.destination.mac.isEmpty) = true
  · rw [if_pos hdadr]
    exact hstill
  rw [if_neg hdadr] at h ⊢
  by_cases hown : (!request.destination.mac.isEmpty
      && s.dropUndrained.isOwn request.destination) = true
  · rw [if_pos hown]
    exact hstill
  rw [if_neg hown] at h ⊢
  by_cases hcast : (request.destination.mac.isEmpty && !isUnconfirmed request.apdu) = true
  · rw [if_pos hcast]
    exact hstill
  rw [if_neg hcast] at h ⊢
  cases hselect : s.dropUndrained.selectSource request.source with
  | error why => exact hstill
  | ok selected =>
    rw [hselect] at h
    dsimp only at h ⊢
    by_cases hglobal : (request.destination.network == globalNetwork) = true
    · rw [if_pos hglobal] at h ⊢
      rcases originateGlobal_cases s.dropUndrained request selected with ⟨_, _, _, hq⟩ | ⟨hok, _⟩
      · exact .inl hq
      · rw [hok] at h
        cases h
    · rw [if_neg hglobal] at h ⊢
      exact originateTo_refused (drained_dropUndrained s).tasks (by simpa using hglobal) h

/-! ## Searches -/

def searchNpdu (network : UInt16) : Npdu := .message .whoIsRouterToNetwork (toBytes16 network)

/-- A send of a search. -/
structure SearchSent (network : UInt16) (send : Send) : Prop where
  dest : send.dest = .broadcast
  kind : send.kind = .solicit
  decodes : ∃ npdu, Npdu.decode send.npdu = .ok npdu ∧ npdu.destination = none ∧
    npdu.messageType = some .whoIsRouterToNetwork ∧ npdu.payload = toBytes16 network

/-- A queued search goes to the ports and nothing follows it. -/
theorem drains_search (network : UInt16) (htasks : s.out.tasks = [.solicit noPort network])
    (hmore : s.out.current.hasMore s.ports.length = false)
    (hflows : ∀ flow ∈ s.flows, flow.waits = false) (hports : s.ports.length < 256)
    (hroom : (searchNpdu network).encodedLen ≤ s.scratch.length)
    (hlimits : ∀ config ∈ s.ports, (searchNpdu network).encodedLen ≤ config.maxNpdu.get true) :
    ∃ sends, Drains s sends ∧ ∀ send ∈ sends, SearchSent network send := by
  have henc : (searchNpdu network).Encodable := message_encodable _ _
  obtain ⟨t, ht, hsame, hpoll⟩ := ready_of_spent htasks hmore hflows
  have hroom' : (searchNpdu network).encodedLen ≤ t.scratch.length := by
    rw [hsame.room]
    exact hroom
  have hwrite := writeTask_once ht.tasks (show t.taskOutput (.solicit noPort network)
    = .once (some (searchNpdu network).encodedLen, (searchNpdu network).wire
        ++ t.scratch.drop (searchNpdu network).encodedLen) .solicit .ingress (.allBut noPort)
    from congrArg (TaskOutput.once · _ _ _) (writeNpdu_ok henc hroom'))
  generalize hu : t.tookOnly (.solicit noPort network) [] (searchNpdu network).encodedLen
    ((searchNpdu network).wire ++ t.scratch.drop (searchNpdu network).encodedLen) .solicit
    .ingress (.allBut noPort) = u at hwrite
  have hsole : Sole u := by
    rw [← hu]
    exact ⟨rfl, ht.flows⟩
  have huports : u.ports = s.ports := by
    rw [← hu]
    exact hsame.ports
  have hall := drains_fanOut (s := u) [] u.ports.length hsole (by rw [← hu]; rfl)
    (by rw [← hu]; rfl) (by rw [← hu]; exact Nat.zero_add _) (by rw [huports]; exact hports) ?_ ?_
  · refine ⟨_, .of_poll (hpoll.trans (poll_of_writeTask ht.loaded ht.nextTarget hwrite)) hall, ?_⟩
    intro send hmem
    rw [List.append_nil] at hmem
    obtain ⟨port, _, rfl⟩ := List.mem_map.mp hmem
    have hoctets : u.scratch.take (searchNpdu network).encodedLen = (searchNpdu network).wire := by
      rw [← hu, ← (searchNpdu network).length_wire]
      exact List.take_left
    refine ⟨rfl, by rw [← hu]; rfl, (searchNpdu network).normalised, ?_, rfl, rfl, rfl⟩
    rw [← Npdu.decode_wire henc, ← hoctets, ← hu]
    rfl
  · intro port hport _
    rw [huports] at hport
    unfold fitsFrom
    rw [portOf_ofNat (by omega), huports, List.getElem?_eq_getElem hport, ← hu]
    exact decide_eq_true (hlimits _ (List.getElem_mem hport))
  · intro v hv hvnext
    obtain ⟨next, hcurrent⟩ := hv.current
    refine drains_past (hv.sole hsole) ?_ ?_ ?_ hvnext
    all_goals
      rw [hcurrent, ← hu]
      rfl

theorem originate_taken [GroupClassifier G] (s : Storage R H D B G) {request : Request}
    (hglobal : request.destination.network = globalNetwork)
    (h : (s.originate request now options).2 = .ok ()) :
    ∃ selected, s.dropUndrained.selectSource request.source = .ok selected ∧
      GlobalTaken s.dropUndrained (s.originate request now options).1 request
        (s.dropUndrained.namedPort selected) := by
  unfold originate at h ⊢
  dsimp only at h ⊢
  rw [hglobal] at h ⊢
  split_ifs at h ⊢ with hzero hdadr hown hcast hsame
  case neg => exact absurd (beq_self_eq_true _) hsame
  cases hselect : s.dropUndrained.selectSource request.source with
  | error why =>
    rw [hselect] at h
    cases h
  | ok selected =>
    rw [hselect] at h
    rcases originateGlobal_cases s.dropUndrained request selected with
      ⟨_, herror, _, _⟩ | ⟨_, htaken⟩
    · rw [herror] at h
      cases h
    · exact ⟨selected, rfl, htaken⟩

end Storage

namespace Engine

open Storage

variable {R H D B : ℕ} {G : Type} {router : Engine R H D B G}

theorem new_ports {capacity : ℕ} {scratch : List UInt8} {ports : List (PortConfig G)}
    (h : Engine.new R H D B capacity scratch ports options now = .ok router) :
    0 < router.storage.ports.length ∧ router.storage.ports.length ≤ 255 := by
  obtain ⟨hcheck, table, _, rfl⟩ := new_cases h
  unfold checkConfig at hcheck
  by_cases hnone : ports = []
  · rw [if_pos hnone] at hcheck
    cases hcheck
  by_cases hmany : min capacity 255 < ports.length
  · rw [if_neg hnone, if_pos hmany] at hcheck
    cases hcheck
  exact ⟨List.length_pos_of_ne_nil hnone, (Nat.not_lt.mp hmany).trans (Nat.min_le_right _ _)⟩

theorem Reachable.ports [GroupClassifier G] (h : Reachable router) :
    0 < router.storage.ports.length ∧ router.storage.ports.length ≤ 255 := by
  induction h with
  | new h => exact new_ports h
  | step h call ih =>
    rw [step_ports anyLaw _ call h.loaded]
    exact ih

theorem search_fits {s : Storage R H D B G} (h : Housed s) (hports : 0 < s.ports.length)
    (network : UInt16) :
    (searchNpdu network).encodedLen ≤ s.scratch.length ∧
      ∀ config ∈ s.ports, (searchNpdu network).encodedLen ≤ config.maxNpdu.get true := by
  have hlimit : ∀ config ∈ s.ports, 64 ≤ config.maxNpdu.get true :=
    fun config hmem => limitsFit_least (h.limits config hmem) true
  have hlen : (searchNpdu network).encodedLen = 5 := rfl
  have hmem := List.getElem_mem hports
  have hroom := limitsFit_get (h.limits _ hmem) true
  have hfirst := hlimit _ hmem
  refine ⟨by omega, fun config hconfig => ?_⟩
  have := hlimit config hconfig
  omega

/-- A global broadcast that the router takes goes to every port once; what it refuses sends nothing
but a search for a network with no route. -/
theorem originate_broadcasts [GroupClassifier G] (router : Engine R H D B G)
    (hreach : router.Reachable) (request : Request) (now : Instant) :
    (request.destination.network = globalNetwork →
        (router.step (.originate request now)).2 = .originated (.ok ()) →
        ∃ sends, Drains (router.step (.originate request now)).1.storage sends ∧
          (sends.map Send.port).Perm router.storage.allPorts ∧
          ∀ send ∈ sends, GlobalSent router.storage request send) ∧
      ∀ refused, (router.step (.originate request now)).2 = .originated (.error refused) →
        ∃ sends, Drains (router.step (.originate request now)).1.storage sends ∧
          ∀ send ∈ sends, refused = .noRoute ∧ request.destination.network ≠ globalNetwork ∧
            router.storage.table.lookup request.destination.network = none ∧
            SearchSent request.destination.network send := by
  obtain ⟨hsome, hmost⟩ := hreach.ports
  have hsole : Sole (router.clocked now).dropUndrained := sole_dropUndrained _
  have hports : (router.clocked now).dropUndrained.ports = router.storage.ports :=
    dropUndrained_ports _
  constructor
  · intro hglobal hok
    have hok' : ((router.clocked now).originate request (router.clocked now).latest
        router.options).2 = .ok () := by
      unfold step at hok
      dsimp only at hok
      injection hok
    obtain ⟨selected, hselect, htaken⟩ := originate_taken _ hglobal hok'
    obtain ⟨sends, hdrains, hperm, hall⟩ :=
      originateGlobal_sends hsole (by rw [hports]; exact hmost) hselect htaken
    refine ⟨sends, hdrains, ?_, fun send hmem => ?_⟩
    · unfold allPorts at hperm ⊢
      rw [hports] at hperm
      exact hperm
    · obtain ⟨hdest, hkind, hpriority, npdu, hdecode, hcopy, hnamed, hplain⟩ := hall send hmem
      unfold portOf at hnamed
      rw [hports] at hnamed hplain
      exact ⟨hdest, hkind, hpriority, npdu, hdecode, hcopy, hnamed, hplain⟩
  · intro refused herror
    have herror' : ((router.clocked now).originate request (router.clocked now).latest
        router.options).2 = .error refused := by
      unfold step at herror
      dsimp only at herror
      injection herror
    have hmore := (drained_iff.mp (drained_dropUndrained (router.clocked now))).2
    rcases originate_refused _ herror' with hq | ⟨hwhy, hglobal, hlookup, hq⟩
    · refine ⟨[], drains_nothing ⟨?_, ?_⟩ ?_, fun send hmem => absurd hmem List.not_mem_nil⟩
      · exact (congrArg Outputs.tasks hq.out_eq).trans hsole.tasks
      · intro flow hmem
        exact hsole.flows flow (hq.flows ▸ hmem)
      · exact (hq.quiet.hasMore).trans hmore
    · have hfits := search_fits hreach.housed hsome request.destination.network
      have hsearch := drains_search
        (s := ((router.clocked now).originate request (router.clocked now).latest router.options).1)
        request.destination.network ?_ (hq.quiet.hasMore.trans hmore) ?_ ?_ ?_ ?_
      · obtain ⟨sends, hdrains, hall⟩ := hsearch
        refine ⟨sends, hdrains, fun send hmem => ⟨hwhy, hglobal, ?_, hall send hmem⟩⟩
        rw [dropUndrained_table] at hlookup
        exact hlookup
      · refine (congrArg Outputs.tasks hq.out).trans ?_
        show (router.clocked now).dropUndrained.out.tasks ++ _ = _
        rw [hsole.tasks]
        rfl
      · intro flow hmem
        exact hsole.flows flow (hq.flows ▸ hmem)
      · rw [hq.ports, hports]
        omega
      · rw [hq.scratch, dropUndrained_scratch]
        exact hfits.1
      · rw [hq.ports, hports]
        exact hfits.2

def benchRequest : Request := ⟨⟨globalNetwork, []⟩, [0x10, 8], false, .normal, .port ⟨0⟩⟩

theorem originate_broadcasts_bench :
    ∃ sends, Drains ((bench .standard bench_standard).step (.originate benchRequest 0)).1.storage
        sends ∧
      (sends.map Send.port).Perm [⟨0⟩, ⟨1⟩] ∧
      ∀ send ∈ sends, GlobalSent (bench .standard bench_standard).storage benchRequest send :=
  (originate_broadcasts _ (.new (new_bench _ bench_standard)) benchRequest 0).1 rfl rfl

end Engine

end RustyBacnet.Router
