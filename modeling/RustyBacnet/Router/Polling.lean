import RustyBacnet.Router.Outcome

/-!
# What polling sends

The current output carries one NPDU in the scratch from the call that wrote it until its last send.

1. `Carries` says which NPDU that is, and `Loaded P` that it is one the law `P` allows.
2. `nextTarget` sends it, as a whole or, at the end of a fan-out, without its source fields.
3. `writeTask` replaces it by an output of the router's own, and `poll` ends within its rounds.
-/

namespace RustyBacnet.Router.Storage

open Slices

variable {R H D B : ℕ} {G : Type} {s t u : Storage R H D B G}

/-! ## The NPDU of the current output -/

/-- The current output is this NPDU, from the start of the scratch. -/
structure Carries (s : Storage R H D B G) (npdu : Npdu) : Prop where
  encodable : npdu.Encodable
  len : s.out.current.len = npdu.encodedLen
  room : npdu.encodedLen ≤ s.scratch.length
  octets : s.scratch.take npdu.encodedLen = npdu.wire
  start : s.out.current.start = 0

def bare (npdu : Npdu) : Npdu := { npdu with source := none }

/-- A tail is that of a global broadcast with source fields. -/
structure TailOk (current : Current) (npdu : Npdu) : Prop where
  destination : npdu.destination = some ⟨globalNetwork, []⟩
  source : ∃ address, npdu.source = some address ∧ current.tail = 3 + address.mac.length
  control : current.tailControl = (bare npdu).controlOctet

/-- A current output with a send left carries an NPDU that `P` allows. -/
def Loaded (s : Storage R H D B G) (P : Npdu → Kind → RejectOrigin → Prop) : Prop :=
  s.out.current.hasMore s.ports.length = true →
    ∃ npdu, Carries s npdu ∧ P npdu s.out.current.kind s.out.current.rejectOrigin ∧
      (s.out.current.tail ≠ 0 → TailOk s.out.current npdu)

/-- `t` has the current output of `s`. -/
structure Quiet (s t : Storage R H D B G) : Prop where
  ports : t.ports.length = s.ports.length
  scratch : t.scratch = s.scratch
  current : t.out.current = s.out.current

theorem Quiet.refl (s : Storage R H D B G) : Quiet s s := ⟨rfl, rfl, rfl⟩

theorem Quiet.trans (h : Quiet s t) (h' : Quiet t u) : Quiet s u :=
  ⟨h'.ports.trans h.ports, h'.scratch.trans h.scratch, h'.current.trans h.current⟩

theorem Quiet.loaded {P : Npdu → Kind → RejectOrigin → Prop} (h : Quiet s t) (hs : Loaded s P) :
    Loaded t P := by
  intro hmore
  rw [h.current, h.ports] at hmore
  obtain ⟨npdu, hc, hP, htail⟩ := hs hmore
  refine ⟨npdu, ⟨hc.encodable, by rw [h.current]; exact hc.len,
    by rw [h.scratch]; exact hc.room, by rw [h.scratch]; exact hc.octets,
    by rw [h.current]; exact hc.start⟩, ?_, ?_⟩
  · rw [h.current]
    exact hP
  · rw [h.current]
    exact htail

variable {current : Current}

theorem hasMore_inactive (h : current.active = false) (ports : ℕ) :
    current.hasMore ports = false := by
  unfold Current.hasMore
  rw [h, Bool.false_and]

variable {ports : ℕ}

theorem hasMore_eq_false (hactive : current.active = true) (h : current.hasMore ports = false) :
    current.fanOut = true ∧ current.tail = 0 ∧
      ∀ port, current.next ≤ port → port < ports → port = current.port.index.toNat := by
  unfold Current.hasMore at h
  rw [hactive, Bool.true_and, Bool.or_eq_false_iff, Bool.or_eq_false_iff] at h
  obtain ⟨⟨hfan, htail⟩, hports⟩ := h
  refine ⟨by simpa using hfan, by simpa using htail, ?_⟩
  intro port hle hlt
  have := List.any_eq_false.mp hports port (List.mem_range'_1.mpr ⟨hle, by omega⟩)
  simpa using this

theorem hasMore_past (hfan : current.fanOut = true) (htail : current.tail = 0)
    (hnext : ports ≤ current.next) : current.hasMore ports = false := by
  unfold Current.hasMore
  rw [hfan, htail, Nat.sub_eq_zero_of_le hnext]
  simp

theorem hasMore_single (hactive : current.active = true) (hfan : current.fanOut = false) (ports : ℕ) :
    current.hasMore ports = true := by
  unfold Current.hasMore
  rw [hactive, hfan]
  rfl

theorem hasMore_tail (hactive : current.active = true) (htail : current.tail ≠ 0) (ports : ℕ) :
    current.hasMore ports = true := by
  unfold Current.hasMore
  rw [hactive, bne_iff_ne.mpr htail]
  simp

/-- How many sends the current output has left at most. -/
def sendsLeft (s : Storage R H D B G) : ℕ :=
  if s.out.current.hasMore s.ports.length then
    if s.out.current.fanOut then
      s.ports.length - s.out.current.next + (s.out.current.tail != 0).toNat
    else 1
  else 0

theorem sendsLeft_spent (h : s.out.current.hasMore s.ports.length = false) : s.sendsLeft = 0 :=
  if_neg (by rw [h]; decide)

theorem sendsLeft_fanOut (hmore : s.out.current.hasMore s.ports.length = true)
    (hfan : s.out.current.fanOut = true) :
    s.sendsLeft = s.ports.length - s.out.current.next + (s.out.current.tail != 0).toNat := by
  unfold sendsLeft
  rw [if_pos hmore, if_pos hfan]

theorem sendsLeft_le (hfan : s.out.current.fanOut = true) :
    s.sendsLeft ≤ s.ports.length - s.out.current.next + (s.out.current.tail != 0).toNat := by
  unfold sendsLeft
  split_ifs
  · exact le_rfl
  · exact Nat.zero_le _

theorem Loaded.of_drained {P : Npdu → Kind → RejectOrigin → Prop} (h : s.Drained) : Loaded s P := by
  intro hmore
  rw [(drained_iff.mp h).2] at hmore
  cases hmore

def ownKind : Kind → Bool
  | .forward => false
  | .global => false
  | .relay _ => false
  | _ => true

/-- An output of the router's own: one of kind reject is a reject. -/
structure OwnOutput (npdu : Npdu) (kind : Kind) : Prop where
  own : ownKind kind = true
  reject : ∀ reason, kind = .reject reason → npdu.messageType = some .rejectMessageToNetwork

/-- A law that every output of the router's own meets, and that source fields don't matter to. -/
structure OutputLaw (P : Npdu → Kind → RejectOrigin → Prop) : Prop where
  own : ∀ npdu kind, OwnOutput npdu kind → P npdu kind .none
  bare : ∀ npdu kind origin, P npdu kind origin → P (bare npdu) kind origin

theorem anyLaw : OutputLaw fun _ _ _ => True := ⟨fun _ _ _ => trivial, fun _ _ _ _ => trivial⟩

def sentOctets (s : Storage R H D B G) : List UInt8 :=
  (s.scratch.take s.out.current.len).drop s.out.current.start

variable {npdu : Npdu}

theorem Carries.sentOctets_eq (h : Carries s npdu) : s.sentOctets = npdu.wire := by
  unfold sentOctets
  rw [h.start, h.len, List.drop_zero, h.octets]

/-- A tail's header and what it leaves of the NPDU are the NPDU without its source. -/
theorem wire_bare {address : Address} (hdestination : npdu.destination = some ⟨globalNetwork, []⟩)
    (hsource : npdu.source = some address) :
    ([npduVersion, (bare npdu).controlOctet, 0xFF, 0xFF, 0] : List UInt8)
      ++ npdu.wire.drop (3 + address.mac.length + 5) = (bare npdu).wire := by
  have hwire : npdu.wire
      = ([npduVersion, npdu.controlOctet] ++ Npdu.addressOctets (some ⟨globalNetwork, []⟩)
          ++ Npdu.addressOctets (some address))
        ++ (npdu.hopOctets ++ npdu.messageOctets ++ npdu.payload) := by
    unfold Npdu.wire Npdu.npci
    rw [hdestination, hsource]
    simp only [List.append_assoc]
  have hlen : ([npduVersion, npdu.controlOctet] ++ Npdu.addressOctets (some ⟨globalNetwork, []⟩)
      ++ Npdu.addressOctets (some address)).length = 3 + address.mac.length + 5 := by
    simp only [List.length_append, Npdu.length_addressOctets, Npdu.addressLen, Option.elim_some,
      List.length_cons, List.length_nil]
    omega
  have hbare : (bare npdu).wire
      = [npduVersion, (bare npdu).controlOctet, 0xFF, 0xFF, 0]
        ++ (npdu.hopOctets ++ npdu.messageOctets ++ npdu.payload) := by
    unfold Npdu.wire Npdu.npci bare
    rw [hdestination]
    simp only [List.append_assoc, Npdu.addressOctets, Npdu.hopOctets, Npdu.messageOctets]
    rw [hdestination]
    rfl
  rw [hwire, hbare, ← hlen, List.drop_left]

/-! ## The next target -/

/-- `t` is `s` with its current output moved on to a later port. -/
structure Advanced (s t : Storage R H D B G) : Prop where
  ports : t.ports = s.ports
  flows : t.flows = s.flows
  scratch : t.scratch = s.scratch
  table : t.table = s.table
  notes : t.notes = s.notes
  out : ∃ next, s.out.current.next ≤ next ∧
    t.out = { s.out with current := { s.out.current with next := next } }

theorem nextFanOut_cases (left : ℕ) (s : Storage R H D B G) :
    Advanced s (s.nextFanOut left).1 ∧
      (∀ port, (s.nextFanOut left).2 = some port →
        (s.nextFanOut left).1.fitsFrom 0 port true = true) ∧
      ((s.nextFanOut left).2 = none →
        (s.nextFanOut left).1.out.current.next = s.out.current.next + left) ∧
      ((s.nextFanOut left).2.isSome = true →
        s.out.current.next < (s.nextFanOut left).1.out.current.next ∧ 0 < left) := by
  induction left generalizing s with
  | zero =>
    refine ⟨⟨rfl, rfl, rfl, rfl, rfl, _, le_rfl, rfl⟩, ?_, fun _ => rfl, ?_⟩
    · intro port h
      cases h
    · intro h
      cases h
  | succ left ih =>
    have hmoved : ∀ v : Storage R H D B G, v.ports = s.ports → v.flows = s.flows →
        v.scratch = s.scratch → v.table = s.table → v.notes = s.notes →
        v.out = { s.out with current := { s.out.current with next := s.out.current.next + 1 } } →
        Advanced s (v.nextFanOut left).1 ∧
          (∀ port, (v.nextFanOut left).2 = some port →
            (v.nextFanOut left).1.fitsFrom 0 port true = true) ∧
          ((v.nextFanOut left).2 = none →
            (v.nextFanOut left).1.out.current.next = s.out.current.next + (left + 1)) ∧
          ((v.nextFanOut left).2.isSome = true →
            s.out.current.next < (v.nextFanOut left).1.out.current.next ∧ 0 < left + 1) := by
      intro v hports hflows hscratch htable hnotes hout
      obtain ⟨hadv, hsome, hnone, hnext'⟩ := ih v
      obtain ⟨next, hle, hnext⟩ := hadv.out
      refine ⟨⟨hadv.ports.trans hports, hadv.flows.trans hflows, hadv.scratch.trans hscratch,
        hadv.table.trans htable, hadv.notes.trans hnotes, next, ?_, ?_⟩, hsome, ?_, ?_⟩
      · rw [hout] at hle
        exact (Nat.le_succ _).trans hle
      · rw [hnext, hout]
      · intro h
        rw [hnone h, hout]
        dsimp only
        omega
      · intro h
        have := (hnext' h).1
        rw [hout] at this
        exact ⟨(Nat.lt_succ_self _).trans this, Nat.succ_pos _⟩
    unfold nextFanOut
    dsimp only
    split_ifs with hown hfits
    · exact hmoved _ rfl rfl rfl rfl rfl rfl
    · refine ⟨⟨rfl, rfl, rfl, rfl, rfl, _, Nat.le_succ _, rfl⟩, ?_, ?_, ?_⟩
      · intro port h
        cases h
        exact hfits
      · intro h
        cases h
      · exact fun _ => ⟨Nat.lt_succ_self _, Nat.succ_pos _⟩
    · exact hmoved _ rfl rfl rfl rfl rfl rfl

theorem nextFanOut_own (left : ℕ) (s : Storage R H D B G)
    (h : ∀ port, s.out.current.next ≤ port → port < s.out.current.next + left →
      port = s.out.current.port.index.toNat) : (s.nextFanOut left).2 = none := by
  induction left generalizing s with
  | zero => rfl
  | succ left ih =>
    have hown := h s.out.current.next le_rfl (by omega)
    unfold nextFanOut
    rw [if_pos]
    · refine ih _ fun port hle hlt => h port ?_ ?_
      · exact (Nat.le_succ _).trans hle
      · have hlt' : port < s.out.current.next + 1 + left := hlt
        omega
    · show (⟨UInt8.ofNat s.out.current.next⟩ : PortId) = s.out.current.port
      rw [hown, UInt8.ofNat_toNat]

/-- The storage with a tail written over the source fields. -/
def tailed (s : Storage R H D B G) : Storage R H D B G :=
  ((s.setCurrent { s.out.current with tail := 0 }).setScratch
      (splice s.scratch s.out.current.tail (tailHeader s.out.current))).setCurrent
    { s.out.current with tail := 0, start := s.out.current.tail }

def ended (s : Storage R H D B G) : Storage R H D B G :=
  s.setCurrent { s.out.current with active := false }

theorem nextTail_of_zero (h : s.out.current.tail = 0) : s.nextTail = (s.ended, none) := by
  unfold nextTail
  rw [if_neg (not_not.mpr h)]
  unfold ended setCurrent
  rw [← h]

theorem TailOk.room (h : TailOk s.out.current npdu) (hc : Carries s npdu) :
    s.out.current.tail + 5 < s.out.current.len := by
  obtain ⟨address, hsource, htail⟩ := h.source
  rw [hc.len, htail]
  unfold Npdu.encodedLen
  rw [h.destination, hsource]
  simp only [Npdu.addressLen, Option.elim_some, List.length_nil, Option.isSome_some, Bool.toNat_true]
  omega

theorem nextTail_of_tail (hc : Carries s npdu) (h : TailOk s.out.current npdu)
    (hne : s.out.current.tail ≠ 0) :
    s.nextTail = if s.tailed.fitsFrom s.out.current.tail s.out.current.port true then
        (s.tailed, some (s.out.current.port, true))
      else ((s.tailed.bump .egressTooLong).ended, none) := by
  have hin := h.room hc
  have hroom : s.out.current.tail + 5 ≤ s.scratch.length := by
    have := hc.room
    rw [← hc.len] at this
    omega
  have hassert : (s.setCurrent { s.out.current with tail := 0 }).debugAssert .tailInside
      (decide (s.out.current.tail + (tailHeader s.out.current).length < s.out.current.len))
      = s.setCurrent { s.out.current with tail := 0 } :=
    debugAssert_of _ _ (decide_eq_true hin)
  unfold nextTail
  rw [if_pos hne]
  have hassert' : (s.setCurrent { s.out.current with tail := 0 }).debugAssert .tailInside
      (decide (s.out.current.tail + (tailHeader s.out.current).length
        < (s.setCurrent { s.out.current with tail := 0 }).out.current.len))
      = s.setCurrent { s.out.current with tail := 0 } := hassert
  rw [hassert']
  rw [if_pos (show s.out.current.tail + (tailHeader s.out.current).length
    ≤ (s.setCurrent { s.out.current with tail := 0 }).scratch.length from hroom)]
  rfl

theorem sentOctets_tailed (hc : Carries s npdu) (h : TailOk s.out.current npdu) :
    s.tailed.sentOctets = (bare npdu).wire := by
  obtain ⟨address, hsource, htail⟩ := h.source
  have hin := h.room hc
  have hlen : s.out.current.len ≤ s.scratch.length := by
    rw [hc.len]
    exact hc.room
  show ((splice s.scratch s.out.current.tail (tailHeader s.out.current)).take
    s.out.current.len).drop s.out.current.tail = _
  rw [← wire_bare h.destination hsource, ← hc.octets, ← hc.len, ← htail, ← h.control]
  have hheader : (tailHeader s.out.current).length = 5 := rfl
  have htake : ((splice s.scratch s.out.current.tail (tailHeader s.out.current)).take
      s.out.current.len).drop s.out.current.tail
      = slice (splice s.scratch s.out.current.tail (tailHeader s.out.current))
        s.out.current.tail (s.out.current.len - s.out.current.tail) := by
    unfold slice
    rw [List.take_drop]
    congr 2
    omega
  rw [htake, show s.out.current.len - s.out.current.tail
      = 5 + (s.out.current.len - (s.out.current.tail + 5)) by omega, slice_add]
  congr 1
  · have hsplice : slice (splice s.scratch s.out.current.tail (tailHeader s.out.current))
        s.out.current.tail (tailHeader s.out.current).length = tailHeader s.out.current :=
      slice_splice (by omega)
    rw [hheader] at hsplice
    exact hsplice
  · rw [slice_splice_after (by rw [hheader]) (by omega)]
    unfold slice
    rw [List.take_drop]
    congr 2
    omega

/-- What looking for the next target leaves alone. -/
structure Looked (s t : Storage R H D B G) : Prop where
  ports : t.ports = s.ports
  flows : t.flows = s.flows
  room : t.scratch.length = s.scratch.length
  table : t.table = s.table
  notes : t.notes = s.notes
  tasks : t.out.tasks = s.out.tasks
  kind : t.out.current.kind = s.out.current.kind
  origin : t.out.current.rejectOrigin = s.out.current.rejectOrigin

theorem Looked.ended (h : Looked s t) (counter : Counter) : Looked s (t.bump counter).ended :=
  ⟨h.ports, h.flows, h.room, h.table, h.notes, h.tasks, h.kind, h.origin⟩

/-- A send of the current output: to a port it fits, of an NPDU that the law allows. -/
structure Sends (t : Storage R H D B G) (P : Npdu → Kind → RejectOrigin → Prop) (port : PortId)
    (broadcast : Bool) (npdu : Npdu) : Prop where
  fits : t.fitsFrom t.out.current.start port broadcast = true
  encodable : npdu.Encodable
  octets : t.sentOctets = npdu.wire
  allowed : P npdu t.out.current.kind t.out.current.rejectOrigin

theorem Loaded.of_spent {P : Npdu → Kind → RejectOrigin → Prop}
    (h : s.out.current.hasMore s.ports.length = false) : Loaded s P := by
  intro hmore
  rw [h] at hmore
  cases hmore

theorem Loaded.of_inactive {P : Npdu → Kind → RejectOrigin → Prop}
    (h : s.out.current.active = false) : Loaded s P := .of_spent (hasMore_inactive h _)

theorem Encodable.bare (h : npdu.Encodable) : (bare npdu).Encodable :=
  ⟨h.destination, nofun⟩

/-- `t` has just sent the current output of `s`, to its only port unless it is a fan-out. -/
structure Went (s t : Storage R H D B G) : Prop where
  more : s.out.current.hasMore s.ports.length = true
  tasks : t.out.tasks = s.out.tasks
  kind : t.out.current.kind = s.out.current.kind
  left : t.sendsLeft < s.sendsLeft
  origin : t.out.current.rejectOrigin = s.out.current.rejectOrigin
  ends : s.out.current.fanOut = false → t.out.current.active = false

/-- Looking for the next target either ends the current output or sends an NPDU it may. -/
def Looks (s : Storage R H D B G) (P : Npdu → Kind → RejectOrigin → Prop)
    (found : Storage R H D B G × Option (PortId × Bool)) : Prop :=
  Looked s found.1 ∧ Loaded found.1 P ∧
    match found.2 with
    | none => found.1.out.current.active = false
    | some (port, broadcast) => (∃ npdu, Sends found.1 P port broadcast npdu) ∧ Went s found.1

section Target

variable {P : Npdu → Kind → RejectOrigin → Prop}

theorem nextTail_looks (hbare : ∀ npdu kind origin, P npdu kind origin → P (bare npdu) kind origin)
    (hactive : s.out.current.active = true) (hfan : s.out.current.fanOut = true)
    (hnext : s.ports.length ≤ s.out.current.next) (h : Loaded s P) : Looks s P s.nextTail := by
  by_cases hzero : s.out.current.tail = 0
  · rw [nextTail_of_zero hzero]
    exact ⟨⟨rfl, rfl, rfl, rfl, rfl, rfl, rfl, rfl⟩, .of_inactive rfl, rfl⟩
  · obtain ⟨npdu, hc, hP, htail⟩ := h (hasMore_tail hactive hzero _)
    have hok := htail hzero
    have hin := hok.room hc
    have hroom : (splice s.scratch s.out.current.tail (tailHeader s.out.current)).length
        = s.scratch.length := by
      refine length_splice ?_
      have := hc.room
      rw [← hc.len] at this
      show s.out.current.tail + 5 ≤ _
      omega
    have hlooked : Looked s s.tailed := ⟨rfl, rfl, hroom, rfl, rfl, rfl, rfl, rfl⟩
    rw [nextTail_of_tail hc hok hzero]
    split_ifs with hfits
    · refine ⟨hlooked, .of_spent (hasMore_past hfan rfl hnext), ⟨bare npdu, hfits,
        Encodable.bare hc.encodable, sentOctets_tailed hc hok, hbare _ _ _ hP⟩,
        hasMore_tail hactive hzero _, rfl, rfl, ?_, rfl, fun h => ?_⟩
      · rw [sendsLeft_spent (s := s.tailed) (hasMore_past hfan rfl hnext),
          sendsLeft_fanOut (hasMore_tail hactive hzero _) hfan, bne_iff_ne.mpr hzero]
        exact Nat.succ_pos _
      · rw [hfan] at h
        cases h
    · exact ⟨hlooked.ended _, .of_inactive rfl, rfl⟩

theorem nextTarget_looks
    (hbare : ∀ npdu kind origin, P npdu kind origin → P (bare npdu) kind origin)
    (h : Loaded s P) : Looks s P s.nextTarget := by
  unfold nextTarget
  dsimp only
  by_cases hactive : s.out.current.active = true
  case neg =>
    rw [if_pos (by simpa using hactive)]
    exact ⟨⟨rfl, rfl, rfl, rfl, rfl, rfl, rfl, rfl⟩, h, by simpa using hactive⟩
  rw [if_neg (by simpa using hactive)]
  by_cases hfan : s.out.current.fanOut = true
  case neg =>
    rw [if_pos (by simpa using hfan)]
    split_ifs with hfits
    · have hmore := hasMore_single hactive (by simpa using hfan) s.ports.length
      obtain ⟨npdu, hc, hP, _⟩ := h hmore
      refine ⟨⟨rfl, rfl, rfl, rfl, rfl, rfl, rfl, rfl⟩, .of_inactive rfl, ⟨npdu, ?_, hc.encodable,
        hc.sentOctets_eq, hP⟩, hmore, rfl, rfl, ?_, rfl, fun _ => rfl⟩
      rotate_left
      · rw [sendsLeft_spent (hasMore_inactive rfl _)]
        unfold sendsLeft
        rw [if_pos hmore, if_neg (by simpa using hfan)]
        exact Nat.one_pos
      show fitsFrom _ s.out.current.start _ _ = true
      rw [hc.start]
      exact hfits
    · exact ⟨⟨rfl, rfl, rfl, rfl, rfl, rfl, rfl, rfl⟩, .of_inactive rfl, rfl⟩
  rw [if_neg (by simpa using hfan)]
  obtain ⟨hadv, hsome, hnone, hnext⟩ :=
    nextFanOut_cases (s.ports.length - s.out.current.next) s
  by_cases hmore : s.out.current.hasMore s.ports.length = true
  case neg =>
    -- A spent fan-out passes over its own port only.
    obtain ⟨_, htail, hports⟩ := hasMore_eq_false hactive (Bool.eq_false_of_not_eq_true hmore)
    have hown := nextFanOut_own (s.ports.length - s.out.current.next) s
      fun port hle hlt => hports port hle (by omega)
    generalize s.nextFanOut (s.ports.length - s.out.current.next) = found at hadv hown ⊢
    obtain ⟨t, found⟩ := found
    subst hown
    obtain ⟨next, _, hout⟩ := hadv.out
    dsimp only
    rw [nextTail_of_zero (by rw [hout]; exact htail)]
    have hlooked : Looked s t.ended :=
      ⟨hadv.ports, hadv.flows, by rw [← hadv.scratch]; rfl, hadv.table, hadv.notes,
        by rw [← show t.out.tasks = s.out.tasks by rw [hout]]; rfl,
        by rw [← show t.out.current.kind = s.out.current.kind by rw [hout]]; rfl,
        by rw [← show t.out.current.rejectOrigin = s.out.current.rejectOrigin by rw [hout]]; rfl⟩
    exact ⟨hlooked, .of_inactive rfl, rfl⟩
  obtain ⟨npdu, hc, hP, htail⟩ := h hmore
  generalize s.nextFanOut (s.ports.length - s.out.current.next) = found at hadv hsome hnone hnext ⊢
  obtain ⟨t, found⟩ := found
  dsimp only at hadv hsome hnone hnext
  obtain ⟨next, hle, hout⟩ := hadv.out
  have hlooked : Looked s t :=
    ⟨hadv.ports, hadv.flows, by rw [hadv.scratch], hadv.table, hadv.notes, by rw [hout],
      by rw [hout], by rw [hout]⟩
  have hcarries : Carries t npdu :=
    ⟨hc.encodable, by rw [hout]; exact hc.len, by rw [hadv.scratch]; exact hc.room,
      by rw [hadv.scratch]; exact hc.octets, by rw [hout]; exact hc.start⟩
  have hloaded : Loaded t P := by
    intro _
    refine ⟨npdu, hcarries, by rw [hout]; exact hP, ?_⟩
    rw [hout]
    intro hne
    exact ⟨(htail hne).destination, (htail hne).source, (htail hne).control⟩
  cases found with
  | some port =>
    refine ⟨hlooked, hloaded, ⟨npdu, ?_, hc.encodable, hcarries.sentOctets_eq, ?_⟩,
      hmore, hlooked.tasks, hlooked.kind, ?_, hlooked.origin,
      fun h => absurd h (by rw [hfan]; decide)⟩
    rotate_left 2
    · obtain ⟨hlt, hleft⟩ := hnext rfl
      have hle := sendsLeft_le (s := t) (by rw [hout]; exact hfan)
      rw [sendsLeft_fanOut hmore hfan]
      rw [hadv.ports, show t.out.current.tail = s.out.current.tail by rw [hout]] at hle
      dsimp only
      omega
    · rw [hcarries.start]
      exact hsome port rfl
    · rw [hout]
      exact hP
  | none =>
    have htail := nextTail_looks hbare (s := t) (by rw [hout]; exact hactive)
      (by rw [hout]; exact hfan) (by rw [hnone rfl, hadv.ports]; omega) hloaded
    obtain ⟨hlook, hload, hfound⟩ := htail
    have hall : Looked s t.nextTail.1 :=
      ⟨hlook.ports.trans hlooked.ports, hlook.flows.trans hlooked.flows,
        hlook.room.trans hlooked.room, hlook.table.trans hlooked.table,
        hlook.notes.trans hlooked.notes, hlook.tasks.trans hlooked.tasks,
        hlook.kind.trans hlooked.kind, hlook.origin.trans hlooked.origin⟩
    show Looks s P t.nextTail
    generalize t.nextTail = found at hall hload hfound ⊢
    refine ⟨hall, hload, ?_⟩
    obtain ⟨u, found⟩ := found
    cases found with
    | none => exact hfound
    | some target =>
      refine ⟨hfound.1, hmore, hall.tasks, hall.kind, ?_, hall.origin,
        fun h => absurd h (by rw [hfan]; decide)⟩
      have hlt := hfound.2.left
      have hle := sendsLeft_le (s := t) (by rw [hout]; exact hfan)
      rw [sendsLeft_fanOut hmore hfan]
      rw [hadv.ports, hnone rfl, show t.out.current.tail = s.out.current.tail by rw [hout]] at hle
      omega

end Target

/-! ## Writing the router's own messages -/

/-- What a writer makes of a buffer: a message of a type at its front, or nothing. -/
structure Writes (scratch : List UInt8) (messageType : Option NetworkMessageType)
    (written : Option ℕ × List UInt8) : Prop where
  room : written.2.length = scratch.length
  some : ∀ len, written.1 = some len → ∃ npdu : Npdu, npdu.Encodable ∧ npdu.encodedLen = len ∧
    len ≤ scratch.length ∧ written.2.take len = npdu.wire ∧ npdu.messageType = messageType

theorem Writes.none (scratch : List UInt8) (messageType : Option NetworkMessageType) :
    Writes scratch messageType (none, scratch) :=
  ⟨rfl, nofun⟩

variable {scratch : List UInt8}

theorem writes_front (h : npdu.Encodable) (hroom : npdu.encodedLen ≤ scratch.length) :
    Writes scratch npdu.messageType
      (some npdu.encodedLen, npdu.wire ++ scratch.drop npdu.encodedLen) where
  room := by
    rw [List.length_append, npdu.length_wire, List.length_drop]
    omega
  some := by
    intro len hlen
    cases hlen
    refine ⟨npdu, h, rfl, hroom, ?_, rfl⟩
    rw [← npdu.length_wire]
    exact List.take_left

theorem writeNpdu_writes (scratch : List UInt8) (npdu : Npdu) :
    Writes scratch npdu.messageType (writeNpdu scratch npdu) := by
  unfold writeNpdu
  rcases npdu.encodeInto_cases scratch with ⟨refused, h⟩ | ⟨henc, hroom, h⟩
  · rw [h]
    exact .none scratch _
  · rw [h]
    exact writes_front henc hroom

theorem message_encodable (kind : NetworkMessageType) (payload : List UInt8) :
    (Npdu.message kind payload).Encodable := ⟨nofun, nofun⟩

theorem wire_message (kind : NetworkMessageType) (payload : List UInt8) :
    (Npdu.message kind payload).wire = (Npdu.message kind []).wire ++ payload := by
  unfold Npdu.wire
  rw [show (Npdu.message kind []).payload = [] from rfl, List.append_nil]
  rfl

theorem encodedLen_message (kind : NetworkMessageType) (payload : List UInt8) :
    (Npdu.message kind payload).encodedLen
      = (Npdu.message kind []).encodedLen + payload.length := by
  rw [← Npdu.length_wire, ← Npdu.length_wire, wire_message, List.length_append]

theorem writeMessage_writes (scratch : List UInt8) (kind : NetworkMessageType)
    {data : List UInt8 → Except DataError ℕ × List UInt8} (payload : List UInt8)
    (hdata : ∀ out, data out = writeFront payload out ∨ ∃ error, data out = (.error error, out)) :
    Writes scratch (some kind) (writeMessage scratch kind data) := by
  unfold writeMessage
  dsimp only
  split_ifs with hshort
  · exact .none scratch _
  have hnone : Writes scratch (some kind) (none, scratch.take (Npdu.message kind []).encodedLen
      ++ scratch.drop (Npdu.message kind []).encodedLen) := by
    rw [List.take_append_drop]
    exact .none scratch _
  rcases hdata (scratch.drop (Npdu.message kind []).encodedLen) with h | ⟨error, h⟩
  · rw [h, writeFront_eq]
    split_ifs with hroom
    · have hlen : (scratch.take (Npdu.message kind []).encodedLen).length
          = (Npdu.message kind []).encodedLen := by
        rw [List.length_take]
        omega
      have hall : (Npdu.message kind payload).encodedLen ≤ scratch.length := by
        rw [encodedLen_message]
        rw [List.length_drop] at hroom
        omega
      have hwrites := writes_front (message_encodable kind payload) hall
      rw [Npdu.encodeInto_of_encodable (message_encodable kind []) hlen.ge]
      dsimp only
      rw [List.drop_eq_nil_of_le hlen.le, List.append_nil, ← List.append_assoc, ← wire_message,
        List.drop_drop, ← encodedLen_message]
      exact hwrites
    · exact hnone
  · rw [h]
    exact hnone

theorem networks_write (scratch : List UInt8) (kind : NetworkMessageType) (networks : List UInt16) :
    Writes scratch (some kind) (writeMessage scratch kind (Networks.write networks)) :=
  writeMessage_writes scratch kind (networks.flatMap BigEndian.toBytes16) fun _ => .inl rfl

theorem routingEntries_write (scratch : List UInt8) (kind : NetworkMessageType)
    (entries : List (UInt16 × UInt8)) :
    Writes scratch (some kind) (writeMessage scratch kind (RoutingEntries.write entries)) := by
  refine writeMessage_writes scratch kind
    (UInt8.ofNat entries.length :: entries.flatMap RoutingEntries.entryOctets) fun out => ?_
  unfold RoutingEntries.write
  split_ifs
  · exact .inr ⟨_, rfl⟩
  · exact .inl rfl

/-! ## Tasks -/

/-- What a task may write: an NPDU of the router's own, and a cursor that only moves on. -/
structure TaskOk (s : Storage R H D B G) (task : Task) (output : TaskOutput) : Prop where
  room : output.scratch.length = s.scratch.length
  npdu : ∀ written len, output.output = some written → written.len = some len →
    ∃ npdu : Npdu, npdu.Encodable ∧ npdu.encodedLen = len ∧ len ≤ s.scratch.length ∧
      output.scratch.take len = npdu.wire ∧ OwnOutput npdu written.kind
  next : ∀ cursor, output.next = some cursor →
    task.cursor < cursor ∧ cursor ≤ 65536 + s.announceEnd

theorem taskOk_nothing (s : Storage R H D B G) (task : Task) :
    TaskOk s task ⟨s.scratch, none, none⟩ where
  room := rfl
  npdu := by
    intro written len h
    cases h
  next := by
    intro cursor h
    cases h

/-- A kind whose outputs are of this message type. -/
def OwnMessage (messageType : Option NetworkMessageType) (kind : Kind) : Prop :=
  ∀ npdu : Npdu, npdu.messageType = messageType → OwnOutput npdu kind

variable {messageType : Option NetworkMessageType} {kind : Kind} {written : Option ℕ × List UInt8}

theorem Writes.own {len : ℕ} (h : Writes scratch messageType written)
    (hown : OwnMessage messageType kind) (hlen : written.1 = Option.some len) :
    ∃ npdu : Npdu, npdu.Encodable ∧ npdu.encodedLen = len ∧ len ≤ scratch.length ∧
      written.2.take len = npdu.wire ∧ OwnOutput npdu kind := by
  obtain ⟨npdu, henc, hnlen, hroom, hoctets, htype⟩ := h.some len hlen
  exact ⟨npdu, henc, hnlen, hroom, hoctets, hown npdu htype⟩

theorem ownMessage_plain (h : ownKind kind = true) (hreject : ∀ reason, kind ≠ .reject reason) :
    OwnMessage messageType kind :=
  fun _ _ => ⟨h, fun reason heq => absurd heq (hreject reason)⟩

theorem taskOk_once (h : Writes s.scratch messageType written) (task : Task)
    (hown : OwnMessage messageType kind) (cause : Cause) (target : Target) :
    TaskOk s task (.once written kind cause target) where
  room := h.room
  npdu := by
    intro written len heq hlen
    cases heq
    exact h.own hown hlen
  next := nofun

theorem writeNumberIs_writes (s : Storage R H D B G) (port : PortId) :
    Writes s.scratch (some .networkNumberIs) (s.writeNumberIs port) := by
  unfold writeNumberIs
  cases s.portOf port with
  | none => exact .none s.scratch _
  | some config => exact writeNpdu_writes s.scratch (.message .networkNumberIs _)

variable {cursor : ℕ}

theorem nextAnnouncement_cases {left : ℕ} {found : ℕ × Option ℕ × List UInt8}
    (h : s.nextAnnouncement cursor left = some found) :
    cursor ≤ found.1 ∧ found.1 < cursor + left ∧
      ∃ messageType, Writes s.scratch messageType found.2 := by
  induction left generalizing cursor with
  | zero => cases h
  | succ left ih =>
    unfold nextAnnouncement at h
    split_ifs at h
    · cases h
      exact ⟨le_rfl, by omega, _, writeNumberIs_writes s _⟩
    · cases h
      exact ⟨le_rfl, by omega, _, networks_write s.scratch _ _⟩
    · obtain ⟨hle, hlt, hwrites⟩ := ih h
      exact ⟨by omega, by omega, hwrites⟩

theorem announceOutput_ok (s : Storage R H D B G) (task : Task) :
    TaskOk s task (s.announceOutput task) := by
  unfold announceOutput
  cases h : s.nextAnnouncement task.cursor (s.announceEnd - task.cursor) with
  | none => exact taskOk_nothing s task
  | some found =>
    obtain ⟨cursor, len, scratch⟩ := found
    obtain ⟨hle, hlt, _, hwrites⟩ := nextAnnouncement_cases h
    refine ⟨hwrites.room, ?_, ?_⟩
    · intro written len' heq hlen
      cases heq
      exact hwrites.own (ownMessage_plain rfl fun _ => Kind.noConfusion) hlen
    · intro next hnext
      dsimp only at hnext hle hlt
      split_ifs at hnext <;> cases hnext <;> omega

theorem wireEntries_from {table : Table R H} {start : ℕ} {entry : UInt16 × UInt8}
    (h : entry ∈ wireEntries table start) : start ≤ entry.1.toNat := by
  obtain ⟨⟨network, route⟩, hmem, heq⟩ := List.mem_filterMap.mp h
  obtain ⟨id, _, rfl⟩ := Option.map_eq_some_iff.mp heq
  simpa using (List.mem_filter.mp hmem).2

theorem tableAckOutput_ok (s : Storage R H D B G) (task : Task) :
    TaskOk s task (s.tableAckOutput task) := by
  unfold tableAckOutput
  dsimp only
  split_ifs with hdone hsome
  · exact taskOk_nothing s task
  all_goals
    have hwrites := routingEntries_write s.scratch .initializeRoutingTableAck
      ((wireEntries s.table task.cursor).take ackEntries)
    refine ⟨hwrites.room, ?_, ?_⟩
    · intro written len heq hlen
      cases heq
      exact hwrites.own (ownMessage_plain rfl fun _ => Kind.noConfusion) hlen
  · intro cursor hcursor
    obtain ⟨network, hlast, rfl⟩ := Option.map_eq_some_iff.mp hcursor
    obtain ⟨entry, hentry, rfl⟩ := Option.map_eq_some_iff.mp hlast
    have hfrom := wireEntries_from (List.mem_of_mem_take (List.mem_of_getLast? hentry))
    have := entry.1.toNat_lt
    omega
  · nofun

theorem taskOutput_ok (s : Storage R H D B G) (task : Task) :
    TaskOk s task (s.taskOutput task) := by
  unfold taskOutput
  split
  · exact taskOk_nothing s task
  · exact taskOk_once (writeNpdu_writes s.scratch _) task (ownMessage_plain rfl fun _ => Kind.noConfusion) _ _
  · refine taskOk_once (writeNpdu_writes s.scratch _) task ?_ _ _
    intro npdu htype
    refine ⟨rfl, fun _ _ => htype.trans ?_⟩
    unfold rejectNpdu
    split_ifs <;> rfl
  · split_ifs
    · exact taskOk_once (networks_write s.scratch _ _) task (ownMessage_plain rfl fun _ => Kind.noConfusion) _ _
    · exact taskOk_nothing s task
    · exact taskOk_once (networks_write s.scratch _ _) task (ownMessage_plain rfl fun _ => Kind.noConfusion) _ _
  · exact taskOk_once (writeNpdu_writes s.scratch _) task (ownMessage_plain rfl fun _ => Kind.noConfusion) _ _
  · exact tableAckOutput_ok s task
  · exact taskOk_once (writeNumberIs_writes s _) task (ownMessage_plain rfl fun _ => Kind.noConfusion) _ _
  · exact announceOutput_ok s task
  · exact announceOutput_ok s task

/-- An output that is one of the router's own. -/
structure Own (current : Current) : Prop where
  origin : current.rejectOrigin = .none
  kind : ownKind current.kind = true

/-- One round of polling between two outputs. -/
structure TaskStep (s t : Storage R H D B G) : Prop where
  ports : t.ports = s.ports
  flows : t.flows.length = s.flows.length
  room : t.scratch.length = s.scratch.length
  table : t.table = s.table
  notes : t.notes = s.notes
  tasks : t.out.tasks.length ≤ s.out.tasks.length
  own : Own t.out.current ∨ t.out.current = s.out.current
  rounds : t.pollRounds < s.pollRounds
  loaded : ∀ P, OutputLaw P → Loaded t P

variable {task : Task} {rest : List Task}

theorem pop_cons (out : Outputs) (h : out.tasks = task :: rest) :
    out.pop = { out with tasks := rest } := by
  unfold Outputs.pop
  rw [h]
  have := Swaps.float_eq [] rest task
  simp only [List.nil_append, List.length_nil] at this
  rw [this, List.dropLast_concat]

variable (len : ℕ)

@[simp] theorem new_start (kind : Kind) (cause : Cause) (priority : NetworkPriority)
    (target : Target) : (Current.new len kind cause priority target).start = 0 := by
  cases target <;> rfl

@[simp] theorem new_tail (kind : Kind) (cause : Cause) (priority : NetworkPriority)
    (target : Target) : (Current.new len kind cause priority target).tail = 0 := by
  cases target <;> rfl

@[simp] theorem new_len (kind : Kind) (cause : Cause) (priority : NetworkPriority) (target : Target) :
    (Current.new len kind cause priority target).len = len := by
  cases target <;> rfl

@[simp] theorem new_kind (kind : Kind) (cause : Cause) (priority : NetworkPriority)
    (target : Target) : (Current.new len kind cause priority target).kind = kind := by
  cases target <;> rfl

@[simp] theorem new_rejectOrigin (kind : Kind) (cause : Cause) (priority : NetworkPriority)
    (target : Target) : (Current.new len kind cause priority target).rejectOrigin = .none := by
  cases target <;> rfl

theorem loaded_of_own (hcurrent : s.out.current = current) (hlen : current.len = npdu.encodedLen)
    (hstart : current.start = 0) (htail : current.tail = 0) (hown : OwnOutput npdu current.kind)
    (horigin : current.rejectOrigin = .none) (henc : npdu.Encodable)
    (hroom : npdu.encodedLen ≤ s.scratch.length)
    (hoctets : s.scratch.take npdu.encodedLen = npdu.wire) (P : Npdu → Kind → RejectOrigin → Prop)
    (law : OutputLaw P) : Loaded s P := by
  intro _
  refine ⟨npdu, ⟨henc, by rw [hcurrent]; exact hlen, hroom, hoctets,
    by rw [hcurrent]; exact hstart⟩, ?_, ?_⟩
  · rw [hcurrent, horigin]
    exact law.own npdu _ hown
  · intro hne
    rw [hcurrent] at hne
    exact absurd htail hne

/-- What making a task's output the current one does. -/
theorem takeOutput_cases {output : TaskOutput} (h : TaskOk s task output)
    (hidle : s.out.current.active = false) :
    let t := (s.setScratch output.scratch).takeOutput task output.output
    t.ports = s.ports ∧ t.flows = s.flows ∧ t.scratch.length = s.scratch.length ∧
      t.table = s.table ∧ t.notes = s.notes ∧ t.out.tasks = s.out.tasks ∧
      (Own t.out.current ∨ t.out.current = s.out.current) ∧
      ∀ P, OutputLaw P → Loaded t P := by
  cases houtput : output.output with
  | none => exact ⟨rfl, rfl, h.room, rfl, rfl, rfl, .inr rfl, fun P _ => .of_inactive hidle⟩
  | some written =>
    cases hlen : written.len with
    | none =>
      unfold takeOutput
      dsimp only
      rw [hlen]
      exact ⟨rfl, rfl, h.room, rfl, rfl, rfl, .inr rfl, fun P _ => .of_inactive hidle⟩
    | some len =>
      unfold takeOutput
      dsimp only
      rw [hlen]
      obtain ⟨npdu, henc, hnlen, hroom, hoctets, hown⟩ := h.npdu written len houtput hlen
      subst hnlen
      refine ⟨rfl, rfl, h.room, rfl, rfl, rfl, .inl ⟨new_rejectOrigin _ _ _ _ _, ?_⟩, ?_⟩
      · show ownKind (Current.new _ written.kind written.cause .normal written.target).kind = true
        rw [new_kind]
        exact hown.own
      refine loaded_of_own rfl ?_ ?_ ?_ ?_ ?_ henc (by rw [← h.room] at hroom; exact hroom) hoctets
      · exact new_len _ _ _ _ _
      · exact new_start _ _ _ _ _
      · exact new_tail _ _ _ _ _
      · dsimp only
        rw [new_kind]
        exact hown
      · exact new_rejectOrigin _ _ _ _ _

theorem roundsFrom_pos (ports cursor : ℕ) : 0 < roundsFrom ports cursor := Nat.succ_pos _

theorem roundsFrom_lt {next : ℕ} (h : cursor < next) (hnext : next ≤ 65536 + 2 * ports) :
    roundsFrom ports next < roundsFrom ports cursor := by
  unfold roundsFrom
  omega

theorem writeTask_step (htasks : s.out.tasks = task :: rest) (hidle : s.out.current.active = false) :
    s.writeTask.2 = true ∧ TaskStep s s.writeTask.1 := by
  unfold writeTask
  rw [htasks, List.head?_cons]
  dsimp only
  have hok := taskOutput_ok s task
  obtain ⟨hports, hflows, hroom, htable, hnotes, hkept, horigin, hloaded⟩ :=
    takeOutput_cases hok hidle
  generalize (s.setScratch (s.taskOutput task).scratch).takeOutput task (s.taskOutput task).output
    = t at hports hflows hroom htable hnotes hkept horigin hloaded ⊢
  have hrounds : ∀ tasks : List Task,
      (tasks.map fun task => roundsFrom s.ports.length task.cursor).sum
        < (s.out.tasks.map fun task => roundsFrom s.ports.length task.cursor).sum →
      ({ t with out := { t.out with tasks := tasks } } : Storage R H D B G).pollRounds
        < s.pollRounds := by
    intro tasks hlt
    unfold pollRounds
    dsimp only
    rw [hflows, hports]
    omega
  have hload : ∀ tasks : List Task, ∀ P, OutputLaw P →
      Loaded ({ t with out := { t.out with tasks := tasks } } : Storage R H D B G) P :=
    fun tasks P law => Quiet.loaded (s := t) ⟨rfl, rfl, rfl⟩ (hloaded P law)
  have hcons : t.out.tasks = task :: rest := by rw [hkept, htasks]
  cases hnext : (s.taskOutput task).next with
  | none =>
    refine ⟨rfl, ?_⟩
    dsimp only
    rw [pop_cons t.out hcons]
    refine ⟨hports, by rw [hflows], hroom, htable, hnotes, ?_, horigin, hrounds rest ?_,
      hload rest⟩
    · show rest.length ≤ s.out.tasks.length
      rw [htasks, List.length_cons]
      omega
    · rw [htasks, List.map_cons, List.sum_cons]
      have := roundsFrom_pos s.ports.length task.cursor
      omega
  | some cursor =>
    obtain ⟨hlt, hle⟩ := hok.next cursor hnext
    refine ⟨rfl, ?_⟩
    dsimp only
    unfold Outputs.advance
    rw [hcons, List.modifyHead_cons]
    refine ⟨hports, by rw [hflows], hroom, htable, hnotes, ?_, horigin, hrounds _ ?_, hload _⟩
    · rw [htasks]
      simp
    · rw [htasks, List.map_cons, List.map_cons, List.sum_cons, List.sum_cons]
      have := roundsFrom_lt hlt hle
      dsimp only
      omega

variable {index : ℕ}

theorem sum_map_set_lt {α : Type} (g : α → ℕ) {x y : α} (xs : List α) (hx : xs[index]? = some x)
    (h : g y < g x) : ((xs.set index y).map g).sum < (xs.map g).sum := by
  induction xs generalizing index with
  | nil => cases hx
  | cons z xs ih =>
    cases index with
    | zero =>
      cases hx
      simpa using h
    | succ index =>
      rw [List.getElem?_cons_succ] at hx
      have := ih hx
      simp only [List.set_cons_succ, List.map_cons, List.sum_cons]
      omega

variable {port : PortId}

theorem congestedNetworks_from {perMessage : ℕ} {network : UInt16}
    (h : network ∈ s.congestedNetworks port cursor perMessage) : cursor ≤ network.toNat := by
  obtain ⟨⟨n, route⟩, hmem, rfl⟩ := List.mem_map.mp (List.mem_of_mem_take h)
  have := (List.mem_filter.mp hmem).2
  simp only [Bool.and_eq_true, decide_eq_true_eq] at this
  exact this.1.1

theorem taskStep_setFlow {flow other : Flow} (hflow : s.flows[index]? = some flow)
    (hports : t.ports = s.ports) (hflows : t.flows = s.flows)
    (hroom : t.scratch.length = s.scratch.length) (htable : t.table = s.table)
    (hnotes : t.notes = s.notes) (htasks : t.out.tasks = s.out.tasks)
    (hown : Own t.out.current ∨ t.out.current = s.out.current)
    (hloaded : ∀ P, OutputLaw P → Loaded t P)
    (hlt : (if other.waits then roundsFrom s.ports.length other.cursor else 0)
      < if flow.waits then roundsFrom s.ports.length flow.cursor else 0) :
    TaskStep s (t.setFlow index other) where
  ports := hports
  flows := by
    show (t.flows.set index other).length = _
    rw [List.length_set, hflows]
  room := hroom
  table := htable
  notes := hnotes
  tasks := by
    show t.out.tasks.length ≤ _
    rw [htasks]
  own := hown
  rounds := by
    unfold pollRounds
    show ((t.out.tasks.map _).sum + ((t.flows.set index other).map _).sum + 1 < _)
    rw [show (t.setFlow index other).ports = s.ports from hports, hflows, htasks]
    have := sum_map_set_lt (fun flow : Flow =>
      if flow.waits then roundsFrom s.ports.length flow.cursor else 0) s.flows hflow hlt
    omega
  loaded := fun P law => Quiet.loaded (s := t) ⟨rfl, rfl, rfl⟩ (hloaded P law)

theorem writeAnnouncement_step (hidle : s.out.current.active = false) :
    s.writeAnnouncement = (s, false) ∨
      s.writeAnnouncement.2 = true ∧ TaskStep s s.writeAnnouncement.1 := by
  unfold writeAnnouncement
  cases hindex : s.flows.findIdx? Flow.waits with
  | none => exact .inl rfl
  | some index =>
    obtain ⟨hbound, hwaits, _⟩ := List.findIdx?_eq_some_iff_getElem.mp hindex
    have hflow : s.flows[index]? = some s.flows[index] := List.getElem?_eq_getElem hbound
    right
    dsimp only
    rw [hflow, Option.getD_some]
    generalize s.flows[index] = flow at hwaits hflow ⊢
    have hended : (if flow.takePending.waits then roundsFrom s.ports.length flow.takePending.cursor
        else 0) < if flow.waits then roundsFrom s.ports.length flow.cursor else 0 := by
      rw [if_pos hwaits]
      exact roundsFrom_pos _ _
    cases s.smallestBroadcast index with
    | none =>
      exact ⟨rfl, taskStep_setFlow hflow rfl rfl rfl rfl rfl rfl (.inr rfl)
        (fun P _ => .of_inactive hidle) hended⟩
    | some limit =>
      dsimp only
      cases hlast : (s.congestedNetworks ⟨UInt8.ofNat index⟩ flow.cursor ((limit - 3) / 2)).getLast?
        with
      | none =>
        exact ⟨rfl, taskStep_setFlow hflow rfl rfl rfl rfl rfl rfl (.inr rfl)
          (fun P _ => .of_inactive hidle) hended⟩
      | some last =>
        dsimp only
        have hfrom := congestedNetworks_from (List.mem_of_getLast? hlast)
        generalize hkind : (if flow.pending = .available then
          NetworkMessageType.routerAvailableToNetwork else .routerBusyToNetwork) = kind
        have hwrites := networks_write s.scratch kind
          (s.congestedNetworks ⟨UInt8.ofNat index⟩ flow.cursor ((limit - 3) / 2))
        generalize writeMessage s.scratch kind (Networks.write
          (s.congestedNetworks ⟨UInt8.ofNat index⟩ flow.cursor ((limit - 3) / 2)))
          = written at hwrites ⊢
        obtain ⟨len, scratch⟩ := written
        cases len with
        | none =>
          exact ⟨rfl, taskStep_setFlow hflow rfl rfl hwrites.room rfl rfl rfl (.inr rfl)
            (fun P _ => .of_inactive hidle) hended⟩
        | some len =>
          obtain ⟨npdu, henc, hlen, hroom, hoctets, _⟩ := hwrites.some len rfl
          subst hlen
          refine ⟨rfl, taskStep_setFlow hflow rfl rfl hwrites.room rfl rfl rfl
            (.inl ⟨new_rejectOrigin _ _ _ _ _, rfl⟩) ?_ ?_⟩
          · refine loaded_of_own rfl (new_len _ _ _ _ _) (new_start _ _ _ _ _) (new_tail _ _ _ _ _)
              ?_ (new_rejectOrigin _ _ _ _ _) henc ?_ hoctets
            · exact ⟨rfl, nofun⟩
            · have := hwrites.room
              show npdu.encodedLen ≤ scratch.length
              rw [this]
              exact hroom
          · rw [if_pos hwaits, if_pos (show ({ flow with cursor := last.toNat + 1 } : Flow).waits
              = true from hwaits)]
            refine roundsFrom_lt (by dsimp only; omega) ?_
            have := last.toNat_lt
            dsimp only
            omega

theorem writeTask_cases (hidle : s.out.current.active = false) :
    (s.writeTask = (s, false) ∧ s.out.tasks = []) ∨
      s.writeTask.2 = true ∧ TaskStep s s.writeTask.1 := by
  cases htasks : s.out.tasks with
  | nil =>
    have heq : s.writeTask = s.writeAnnouncement := by
      unfold writeTask
      rw [htasks]
      rfl
    rw [heq]
    rcases writeAnnouncement_step hidle with h | h
    · exact .inl ⟨h, rfl⟩
    · exact .inr h
  | cons task rest => exact .inr (writeTask_step htasks hidle)

/-! ## Polling -/

/-- What a poll leaves alone. -/
structure Polled (s t : Storage R H D B G) : Prop where
  ports : t.ports = s.ports
  flows : t.flows.length = s.flows.length
  room : t.scratch.length = s.scratch.length
  table : t.table = s.table
  notes : t.notes = s.notes
  tasks : t.out.tasks.length ≤ s.out.tasks.length

/-- A polled send is the current output's, which goes on carrying it. -/
structure SendOf (t : Storage R H D B G) (P : Npdu → Kind → RejectOrigin → Prop) (send : Send)
    (npdu : Npdu) : Prop where
  fits : (t.portOf send.port).any fun config =>
    decide (send.npdu.length ≤ config.maxNpdu.get (send.dest == .broadcast))
  encodable : npdu.Encodable
  octets : send.npdu = npdu.wire
  kind : send.kind = t.out.current.kind
  allowed : ∃ origin, P npdu send.kind origin ∧ send.rejectOrigin = origin.asOption ∧
    t.out.current.rejectOrigin = origin

/-- The outcome of a poll under a law. -/
def PollOk (s : Storage R H D B G) (P : Npdu → Kind → RejectOrigin → Prop)
    (polled : Storage R H D B G × Action) : Prop :=
  Polled s polled.1 ∧ Loaded polled.1 P ∧
    match polled.2 with
    | .send send => (∃ npdu, SendOf polled.1 P send npdu) ∧
        (Went s polled.1 ∨ Own polled.1.out.current)
    | .idle => polled.1.out.tasks = [] ∧ polled.1.out.current.active = false

theorem TaskStep.pollOk {P : Npdu → Kind → RejectOrigin → Prop}
    {polled : Storage R H D B G × Action} (hlook : Looked s t)
    (hended : t.out.current.active = false) (hstep : TaskStep t u)
    (h : PollOk u P polled) : PollOk s P polled := by
  obtain ⟨hpolled, hloaded, hrest⟩ := h
  refine ⟨⟨hpolled.ports.trans (hstep.ports.trans hlook.ports),
    hpolled.flows.trans (hstep.flows.trans (by rw [hlook.flows])),
    hpolled.room.trans (hstep.room.trans hlook.room),
    hpolled.table.trans (hstep.table.trans hlook.table),
    hpolled.notes.trans (hstep.notes.trans hlook.notes),
    hpolled.tasks.trans (hstep.tasks.trans (by rw [hlook.tasks]))⟩, hloaded, ?_⟩
  obtain ⟨v, action⟩ := polled
  cases action with
  | idle => exact hrest
  | send send =>
    obtain ⟨hsend, hwent⟩ := hrest
    refine ⟨hsend, .inr ?_⟩
    rcases hwent with hwent | hown
    · -- What was sent is the task's output, since the one before it had ended.
      rcases hstep.own with hown | hcurrent
      · exact ⟨by rw [hwent.origin, hown.origin], by rw [hwent.kind]; exact hown.kind⟩
      · have hmore := hwent.more
        rw [hcurrent, hasMore_inactive hended] at hmore
        cases hmore
    · exact hown

theorem sendOf_sends {P : Npdu → Kind → RejectOrigin → Prop} {broadcast : Bool}
    (h : Sends t P port broadcast npdu) (lastTableAck : Bool) (lastPort : PortId) :
    SendOf { t with out := { t.out with lastTableAck := lastTableAck, lastPort := lastPort } } P
      (t.sendOf port broadcast) npdu where
  fits := by
    have hdest : ((t.sendOf port broadcast).dest == .broadcast) = broadcast := by
      cases broadcast <;> rfl
    rw [hdest]
    have hfits := h.fits
    obtain ⟨config, hconfig, hle⟩ := (Option.any_eq_true _ _).mp hfits
    refine (Option.any_eq_true _ _).mpr ⟨config, hconfig, ?_⟩
    simp only [decide_eq_true_eq] at hle ⊢
    refine le_trans ?_ hle
    show t.sentOctets.length ≤ _
    unfold sentOctets
    rw [List.length_drop, List.length_take]
    omega
  encodable := h.encodable
  octets := h.octets
  kind := rfl
  allowed := ⟨_, h.allowed, rfl, rfl⟩

/-- Polling ends within its rounds, with a send the law allows or with nothing left. -/
theorem pollLoop_ok {P : Npdu → Kind → RejectOrigin → Prop} (law : OutputLaw P) (rounds : ℕ)
    (hrounds : s.pollRounds ≤ rounds) (h : Loaded s P) :
    ∃ polled, pollLoop rounds s = some polled ∧ PollOk s P polled := by
  induction rounds generalizing s with
  | zero =>
    unfold pollRounds at hrounds
    omega
  | succ rounds ih =>
    obtain ⟨hlook, hload, hfound⟩ := nextTarget_looks law.bare h
    unfold pollLoop
    generalize s.nextTarget = found at hlook hload hfound ⊢
    obtain ⟨t, found⟩ := found
    cases found with
    | some target =>
      obtain ⟨port, broadcast⟩ := target
      obtain ⟨⟨npdu, hsends⟩, hwent⟩ := hfound
      refine ⟨_, rfl, ⟨hlook.ports, by rw [hlook.flows], hlook.room, hlook.table, hlook.notes,
        le_of_eq (by rw [hlook.tasks])⟩, ?_, ⟨npdu, sendOf_sends hsends _ _⟩,
        .inl ⟨hwent.more, hwent.tasks, hwent.kind, hwent.left, hwent.origin, hwent.ends⟩⟩
      exact Quiet.loaded (s := t) ⟨rfl, rfl, rfl⟩ hload
    | none =>
      dsimp only at hlook hload hfound ⊢
      have hsame : t.pollRounds = s.pollRounds := by
        unfold pollRounds
        rw [hlook.ports, hlook.flows, hlook.tasks]
      rcases writeTask_cases hfound with ⟨hdone, htasks⟩ | ⟨hmore, hstep⟩
      · rw [hdone]
        exact ⟨_, rfl, ⟨hlook.ports, by rw [hlook.flows], hlook.room, hlook.table, hlook.notes,
          le_of_eq (by rw [hlook.tasks])⟩, hload, htasks, hfound⟩
      · generalize t.writeTask = written at hmore hstep ⊢
        obtain ⟨u, more⟩ := written
        subst hmore
        dsimp only at hstep ⊢
        obtain ⟨polled, hpolled, hok⟩ := ih (s := u)
          (by have := hstep.rounds; omega) (hstep.loaded P law)
        exact ⟨polled, hpolled, hstep.pollOk hlook hfound hok⟩

/-- Nothing but the current output waits. -/
structure Sole (s : Storage R H D B G) : Prop where
  tasks : s.out.tasks = []
  flows : ∀ flow ∈ s.flows, flow.waits = false

theorem Sole.writeTask (h : Sole s) : s.writeTask = (s, false) := by
  unfold Storage.writeTask writeAnnouncement
  rw [h.tasks, List.findIdx?_eq_none_iff.mpr h.flows]
  rfl

theorem Sole.poll_ok {P : Npdu → Kind → RejectOrigin → Prop} (h : Sole s)
    (hbare : ∀ npdu kind origin, P npdu kind origin → P (bare npdu) kind origin)
    (hloaded : Loaded s P) : Sole s.poll.1 ∧ PollOk s P s.poll := by
  obtain ⟨hlook, hload, hfound⟩ := nextTarget_looks hbare hloaded
  have hrounds : s.pollRounds = (s.pollRounds - 1) + 1 := by
    unfold pollRounds
    omega
  unfold poll
  rw [hrounds]
  unfold pollLoop
  generalize s.nextTarget = found at hlook hload hfound ⊢
  obtain ⟨t, found⟩ := found
  have hsole : Sole t := ⟨hlook.tasks.trans h.tasks, by rw [hlook.flows]; exact h.flows⟩
  have hpolled : Polled s t := ⟨hlook.ports, by rw [hlook.flows], hlook.room, hlook.table,
    hlook.notes, le_of_eq (by rw [hlook.tasks])⟩
  cases found with
  | some target =>
    obtain ⟨port, broadcast⟩ := target
    obtain ⟨⟨npdu, hsends⟩, hwent⟩ := hfound
    refine ⟨⟨hsole.tasks, hsole.flows⟩, ⟨hpolled.ports, hpolled.flows, hpolled.room,
      hpolled.table, hpolled.notes, hpolled.tasks⟩, ?_, ⟨npdu, sendOf_sends hsends _ _⟩,
      .inl ⟨hwent.more, hwent.tasks, hwent.kind, hwent.left, hwent.origin, hwent.ends⟩⟩
    exact Quiet.loaded (s := t) ⟨rfl, rfl, rfl⟩ hload
  | none =>
    dsimp only
    rw [hsole.writeTask]
    exact ⟨hsole, hpolled, hload, hsole.tasks, hfound⟩

def polls : ℕ → Storage R H D B G → List Send
  | 0, _ => []
  | count + 1, s =>
    match s.poll with
    | (s, .send send) => send :: polls count s
    | (s, .idle) => polls count s

/-- Polled sends that a law allows. -/
def Sent (P : Npdu → Kind → RejectOrigin → Prop) (send : Send) : Prop :=
  ∃ npdu origin, npdu.Encodable ∧ send.npdu = npdu.wire ∧ P npdu send.kind origin ∧
    send.rejectOrigin = RejectOrigin.asOption origin

theorem SendOf.sent {P : Npdu → Kind → RejectOrigin → Prop} {send : Send} (h : SendOf t P send npdu) :
    Sent P send := by
  obtain ⟨origin, hP, horigin, _⟩ := h.allowed
  exact ⟨npdu, origin, h.encodable, h.octets, hP, horigin⟩

theorem polls_sent {P : Npdu → Kind → RejectOrigin → Prop} {I : Storage R H D B G → Prop}
    (hpoll : ∀ s, I s → I s.poll.1 ∧ PollOk s P s.poll) (count : ℕ) (h : I s) :
    ∀ send ∈ polls count s, Sent P send := by
  induction count generalizing s with
  | zero =>
    intro send h
    cases h
  | succ count ih =>
    obtain ⟨hI, _, _, hok⟩ := hpoll s h
    unfold polls
    generalize s.poll = polled at hI hok ⊢
    obtain ⟨t, action⟩ := polled
    cases action with
    | idle => exact ih hI
    | send send =>
      obtain ⟨⟨npdu, hsend⟩, _⟩ := hok
      intro other hmem
      rcases List.mem_cons.mp hmem with rfl | hmem
      · exact hsend.sent
      · exact ih hI other hmem

theorem poll_ok {P : Npdu → Kind → RejectOrigin → Prop} (law : OutputLaw P) (h : Loaded s P) :
    PollOk s P s.poll := by
  obtain ⟨polled, hpolled, hok⟩ := pollLoop_ok law s.pollRounds le_rfl h
  unfold poll
  rw [hpolled]
  exact hok

end RustyBacnet.Router.Storage
