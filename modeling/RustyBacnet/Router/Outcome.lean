import RustyBacnet.Npdu.Codec
import RustyBacnet.Router.Engine

/-!
# What a received frame leaves to send

Every handler of a frame starts from a drained storage and does one of two things to the outputs:
it queues a few tasks, or it writes one NPDU as the current output. The argument has three steps.

1. `Queued` and `Wrote` say what either does to the outputs, the scratch and the assertions; the
   table, the records, the counts and the host's events are beside it.
2. One lemma for each function says which of the two it does, and `FrameOutput` says which NPDUs a
   frame can make the router write.
3. `receive_leaves` joins them over the whole of `receive`.
-/

namespace RustyBacnet.Router.Storage

variable {R H D B : ℕ} {G : Type} {s t u : Storage R H D B G}

/-! ## Effects on the outputs -/

def faults (s : Storage R H D B G) : List Assertion :=
  s.notes.filterMap fun
    | .failed assertion => some assertion
    | _ => none

/-- `t` is `s` with tasks queued, as far as the outputs go. -/
structure Queued (s t : Storage R H D B G) (tasks : List Task) : Prop where
  ports : t.ports = s.ports
  flows : t.flows = s.flows
  scratch : t.scratch = s.scratch
  out : t.out = { s.out with tasks := s.out.tasks ++ tasks }
  faults : t.faults = s.faults

/-- The current output of a frame that had this NPDU written. -/
def currentOf (npdu : Npdu) (kind : Kind) (target : Target) (origin : RejectOrigin) : Current :=
  { Current.new npdu.encodedLen kind .ingress npdu.priority target with rejectOrigin := origin }

/-- `t` is `s` with an NPDU written as the current output. -/
structure Wrote (s t : Storage R H D B G) (npdu : Npdu) (kind : Kind) (target : Target)
    (origin : RejectOrigin) : Prop where
  encodable : npdu.Encodable
  room : npdu.encodedLen ≤ s.scratch.length
  ports : t.ports = s.ports
  flows : t.flows = s.flows
  scratch : t.scratch = npdu.wire ++ s.scratch.drop npdu.encodedLen
  out : t.out = { s.out with current := currentOf npdu kind target origin }
  faults : t.faults = s.faults

/-- Nothing waits to be sent. -/
def Drained (s : Storage R H D B G) : Prop := s.out.pending s.ports.length = 0

/-- Queued at most `most` tasks, or wrote an NPDU of those `W` allows. -/
inductive Leaves (s t : Storage R H D B G) (most : ℕ)
    (W : Npdu → Kind → Target → RejectOrigin → Prop) : Prop
  | queued (tasks : List Task) (h : Queued s t tasks) (hmost : tasks.length ≤ most)
  | wrote (npdu : Npdu) (kind : Kind) (target : Target) (origin : RejectOrigin)
      (h : Wrote s t npdu kind target origin) (hw : W npdu kind target origin)

theorem Queued.refl (s : Storage R H D B G) : Queued s s [] :=
  ⟨rfl, rfl, rfl, by rw [List.append_nil], rfl⟩

theorem Queued.trans {first second : List Task} (h : Queued s t first) (h' : Queued t u second) :
    Queued s u (first ++ second) where
  ports := h'.ports.trans h.ports
  flows := h'.flows.trans h.flows
  scratch := h'.scratch.trans h.scratch
  out := by rw [h'.out, h.out, List.append_assoc]
  faults := h'.faults.trans h.faults

theorem Queued.out_eq (h : Queued s t []) : t.out = s.out := by rw [h.out, List.append_nil]

theorem Queued.drained (h : Queued s t []) (hs : s.Drained) : t.Drained := by
  unfold Drained
  rw [h.out_eq, h.ports]
  exact hs

variable {target : Target} {origin : RejectOrigin}

theorem Queued.wrote {npdu : Npdu} {kind : Kind} (h : Queued s t [])
    (h' : Wrote t u npdu kind target origin) :
    Wrote s u npdu kind target origin where
  encodable := h'.encodable
  room := by rw [← h.scratch]; exact h'.room
  ports := h'.ports.trans h.ports
  flows := h'.flows.trans h.flows
  scratch := by rw [h'.scratch, h.scratch]
  out := by rw [h'.out, h.out_eq]
  faults := h'.faults.trans h.faults

theorem Wrote.queued {npdu : Npdu} {kind : Kind} (h : Wrote s t npdu kind target origin)
    (h' : Queued t u []) :
    Wrote s u npdu kind target origin where
  encodable := h.encodable
  room := h.room
  ports := h'.ports.trans h.ports
  flows := h'.flows.trans h.flows
  scratch := h'.scratch.trans h.scratch
  out := h'.out_eq.trans h.out
  faults := h'.faults.trans h.faults

section Leaves

variable {most : ℕ} {W W' : Npdu → Kind → Target → RejectOrigin → Prop}

theorem Leaves.still (h : Queued s t []) : Leaves s t most W := .queued [] h (Nat.zero_le _)

theorem Leaves.after (h : Queued s t []) (h' : Leaves t u most W) : Leaves s u most W := by
  cases h' with
  | queued tasks hq hmost => exact .queued tasks (h.trans hq) hmost
  | wrote npdu kind target origin hwrote hw => exact .wrote npdu kind target origin (h.wrote hwrote) hw

theorem Leaves.mono {more : ℕ} (h : Leaves s t most W) (hmore : most ≤ more)
    (hW : ∀ npdu kind target origin, W npdu kind target origin → W' npdu kind target origin) :
    Leaves s t more W' := by
  cases h with
  | queued tasks hq hmost => exact .queued tasks hq (hmost.trans hmore)
  | wrote npdu kind target origin hwrote hw =>
    exact .wrote npdu kind target origin hwrote (hW _ _ _ _ hw)

theorem Leaves.ite {c : Prop} [Decidable c] {a b : Storage R H D B G × Received}
    (ha : c → Leaves s a.1 most W) (hb : Leaves s b.1 most W) :
    Leaves s (if c then a else b).1 most W := by
  split_ifs with h
  · exact ha h
  · exact hb

end Leaves

/-! ## Small steps -/

theorem queued_bump (s : Storage R H D B G) (counter : Counter) : Queued s (s.bump counter) [] :=
  ⟨rfl, rfl, rfl, by rw [List.append_nil]; rfl, rfl⟩

variable {note : Note}

theorem faults_note (s : Storage R H D B G) (h : ∀ a, note ≠ .failed a) :
    (s.note note).faults = s.faults := by
  unfold faults Storage.note
  rw [List.filterMap_append]
  cases note <;> simp_all

theorem queued_note (s : Storage R H D B G) (h : ∀ a, note ≠ .failed a) :
    Queued s (s.note note) [] :=
  ⟨rfl, rfl, rfl, by rw [List.append_nil]; rfl, faults_note s h⟩

theorem queued_observe (s : Storage R H D B G) (event : Event) : Queued s (s.observe event) [] :=
  queued_note s fun _ => Note.noConfusion

theorem queued_setTable (s : Storage R H D B G) (table : Table R H) :
    Queued s (s.setTable table) [] :=
  ⟨rfl, rfl, rfl, by rw [List.append_nil]; rfl, rfl⟩

theorem queued_setRecent (s : Storage R H D B G) (recent : Recent B) :
    Queued s { s with recent := recent } [] :=
  ⟨rfl, rfl, rfl, by rw [List.append_nil], rfl⟩

theorem queued_setDiscovery (s : Storage R H D B G) (discovery : Discovery D) :
    Queued s { s with discovery := discovery } [] :=
  ⟨rfl, rfl, rfl, by rw [List.append_nil], rfl⟩

theorem debugAssert_of (s : Storage R H D B G) (assertion : Assertion) {holds : Bool}
    (h : holds = true) : s.debugAssert assertion holds = s := if_pos h

theorem queued_push (s : Storage R H D B G) (task : Task) (h : s.out.tasks.length < queueLen) :
    Queued s (s.push task) [task] := by
  unfold push
  rw [debugAssert_of s .queueRoom (decide_eq_true h)]
  rw [if_pos h]
  exact ⟨rfl, rfl, rfl, rfl, rfl⟩

theorem queued_foldl {α : Type} {step : Storage R H D B G → α → Storage R H D B G}
    (hstep : ∀ s x, Queued s (step s x) []) (xs : List α) (s : Storage R H D B G) :
    Queued s (xs.foldl step s) [] := by
  induction xs generalizing s with
  | nil => exact Queued.refl s
  | cons x xs ih => exact (hstep s x).trans (ih (step s x))

/-! ## Draining -/

theorem drained_iff : s.Drained ↔ s.out.tasks = [] ∧ s.out.current.hasMore s.ports.length = false := by
  unfold Drained Outputs.pending
  rw [Nat.add_eq_zero_iff, List.length_eq_zero_iff, and_comm]
  refine and_congr_right fun _ => ?_
  cases s.out.current.hasMore s.ports.length <;> simp

theorem Drained.tasks (h : s.Drained) : s.out.tasks = [] := (drained_iff.mp h).1

@[simp] theorem dropUndrained_ports (s : Storage R H D B G) : s.dropUndrained.ports = s.ports := by
  unfold dropUndrained
  dsimp only
  split_ifs <;> rfl

@[simp] theorem dropUndrained_scratch (s : Storage R H D B G) :
    s.dropUndrained.scratch = s.scratch := by
  unfold dropUndrained
  dsimp only
  split_ifs <;> rfl

@[simp] theorem dropUndrained_table (s : Storage R H D B G) : s.dropUndrained.table = s.table := by
  unfold dropUndrained
  dsimp only
  split_ifs <;> rfl

@[simp] theorem dropUndrained_notes (s : Storage R H D B G) : s.dropUndrained.notes = s.notes := by
  unfold dropUndrained
  dsimp only
  split_ifs <;> rfl

@[simp] theorem dropUndrained_flows (s : Storage R H D B G) :
    s.dropUndrained.flows = s.flows.map Flow.takePending := by
  unfold dropUndrained
  dsimp only
  split_ifs <;> rfl

theorem drained_dropUndrained (s : Storage R H D B G) : s.dropUndrained.Drained := by
  unfold Drained
  rw [dropUndrained_ports]
  unfold dropUndrained
  dsimp only
  split_ifs with h
  · rfl
  · dsimp only
    omega

theorem queued_queueReject (origin : RejectOrigin) (reason : RejectMessageReason)
    (h : s.out.tasks.length < queueLen) :
    Queued s (s.queueReject origin reason) [origin.task reason] :=
  (queued_bump s .rejects).trans (queued_push (s.bump .rejects) _ h)

theorem queued_reject (at_ : Arrival) (origin : Option Address) (network : UInt16)
    (reason : RejectMessageReason) (h : s.out.tasks.length < queueLen) :
    ∃ tasks, Queued s (s.reject at_ origin network reason) tasks ∧ tasks.length ≤ 1 := by
  unfold reject
  split
  · exact ⟨_, queued_queueReject _ reason h, le_rfl⟩
  · exact ⟨[], queued_observe s _, Nat.zero_le _⟩

theorem queued_solicit (allBut : PortId) (dnet : UInt16) (now : Instant) (cooldown : Duration)
    (h : s.out.tasks.length < queueLen) :
    ∃ tasks, Queued s (s.solicit allBut dnet now cooldown) tasks ∧ tasks.length ≤ 1 := by
  unfold solicit
  dsimp only
  split_ifs
  · exact ⟨_, (queued_setDiscovery s _).trans ((queued_bump _ _).trans (queued_push _ _ h)), le_rfl⟩
  · exact ⟨[], queued_setDiscovery s _, Nat.zero_le _⟩

/-! ## Writing -/

theorem wrote_writeNow (hs : s.Drained) (npdu : Npdu) (kind : Kind) (target : Target) :
    ((s.writeNow npdu kind target).2 = true ∧
        Wrote s (s.writeNow npdu kind target).1 npdu kind target .none) ∨
      ((s.writeNow npdu kind target).2 = false ∧
        Queued s (s.writeNow npdu kind target).1 []) := by
  unfold writeNow
  rw [debugAssert_of s .outputFirst (beq_iff_eq.mpr hs)]
  dsimp only
  rcases npdu.encodeInto_cases s.scratch with ⟨refused, h⟩ | ⟨henc, hroom, h⟩
  · rw [h]
    exact .inr ⟨rfl, queued_bump s _⟩
  · rw [h]
    refine .inl ⟨rfl, henc, hroom, rfl, rfl, rfl, ?_, rfl⟩
    cases target <;> rfl

theorem queued_observeTooLong (s : Storage R H D B G) (octets : ℕ) (allBut : PortId) :
    Queued s (s.observeTooLong octets allBut) [] := by
  refine queued_foldl (fun s x => ?_) _ s
  dsimp only
  split_ifs
  · exact queued_observe s _
  · exact Queued.refl s

theorem wrote_writeFanOut (hs : s.Drained) (npdu : Npdu) (kind : Kind) (allBut : PortId) :
    ((s.writeFanOut npdu kind allBut).2 = true ∧
        Wrote s (s.writeFanOut npdu kind allBut).1 npdu kind (.allBut allBut) .none) ∨
      ((s.writeFanOut npdu kind allBut).2 = false ∧
        Queued s (s.writeFanOut npdu kind allBut).1 []) := by
  unfold writeFanOut
  rcases hwrite : s.writeNow npdu kind (.allBut allBut) with ⟨written, ok⟩
  have h := wrote_writeNow hs npdu kind (.allBut allBut)
  rw [hwrite] at h
  rcases h with ⟨rfl, h⟩ | ⟨rfl, h⟩
  · exact .inl ⟨rfl, h.queued (queued_observeTooLong _ _ _)⟩
  · exact .inr ⟨rfl, h⟩

/-- The NPDUs a frame can make the router write, with their kinds, targets and return paths. -/
inductive FrameOutput (at_ : Arrival) (npdu : Npdu) :
    Npdu → Kind → Target → RejectOrigin → Prop
  | forward {destination : Address} {mac : List UInt8} {route : Route} {origin : RejectOrigin}
      (hdestination : npdu.destination = some destination) (hhop : npdu.hopCount ≠ 0)
      (hnext : route.direct = false → npdu.hopCount ≠ 1)
      (horigin : eligible npdu = false → origin = .none) :
      FrameOutput at_ npdu
        (rewrite at_ { npdu with destination := some ⟨destination.network, mac⟩ } route).1 .forward
        (.toward route.port
          (rewrite at_ { npdu with destination := some ⟨destination.network, mac⟩ } route).2)
        origin
  | global {destination : Address} (hdestination : npdu.destination = some destination)
      (hhop : 1 < npdu.hopCount) (htype : npdu.messageType = none) :
      FrameOutput at_ npdu
        { npdu with source := sourceOf at_ npdu, hopCount := npdu.hopCount - 1 } .global
        (.allBut at_.port) .none
  | relay {kind : NetworkMessageType} {sent : Npdu} (hkind : npdu.messageType = some kind)
      (hreject : kind ≠ .rejectMessageToNetwork) (hsent : sent.messageType = some kind)
      (hdestination : sent.destination = none) :
      FrameOutput at_ npdu sent (.relay kind) (.allBut at_.port) .none

/-! ## Routes and forwarding -/

theorem findRoute_cases (hs : s.Drained) (at_ : Arrival) (npdu : Npdu) (dnet : UInt16)
    (options : Options) :
    ((s.findRoute at_ npdu dnet options).2 = none ∧
        ∃ tasks, Queued s (s.findRoute at_ npdu dnet options).1 tasks ∧ tasks.length ≤ 2) ∨
      ∃ route, (s.findRoute at_ npdu dnet options).2 = some route ∧
        Queued s (s.findRoute at_ npdu dnet options).1 [] := by
  have hroom : ∀ t : Storage R H D B G, ∀ tasks, Queued s t tasks → tasks.length ≤ 1 →
      t.out.tasks.length < queueLen := by
    intro t tasks h hlen
    rw [h.out, hs.tasks]
    simp only [List.nil_append, queueLen]
    omega
  unfold findRoute
  cases hroute : s.table.lookup dnet with
  | none =>
    left
    refine ⟨rfl, ?_⟩
    have h0 := queued_observe s (.noRoute at_.port dnet)
    obtain ⟨first, h1, hfirst⟩ := queued_solicit at_.port dnet at_.now options.discoveryCooldown
      (hroom _ _ h0 (Nat.zero_le _))
    have h01 := h0.trans h1
    obtain ⟨second, h2, hsecond⟩ := queued_reject at_ npdu.source dnet .notDirectlyConnected
      (hroom _ _ h01 hfirst)
    refine ⟨_, h01.trans h2, ?_⟩
    rw [List.length_append, List.nil_append]
    omega
  | some route =>
    dsimp only
    have h0 := queued_setTable s (s.table.touch dnet at_.now)
    split
    · obtain ⟨tasks, h1, hlen⟩ := queued_reject at_ npdu.source dnet .routerBusy
        (hroom _ _ h0 (Nat.zero_le _))
      exact .inl ⟨rfl, tasks, h0.trans h1, by omega⟩
    · have h01 := h0.trans (queued_observe _ (.noRoute at_.port dnet))
      obtain ⟨tasks, h1, hlen⟩ := queued_reject at_ npdu.source dnet .notDirectlyConnected
        (hroom _ _ h01 (Nat.zero_le _))
      exact .inl ⟨rfl, tasks, h01.trans h1, by omega⟩
    · exact .inr ⟨route, rfl, h0⟩

theorem leaves_hopCountSpent (s : Storage R H D B G) (npdu : Npdu) :
    Queued s (s.hopCountSpent npdu).1 [] :=
  (queued_bump s _).trans (queued_observe _ _)

theorem Wrote.setRejectOrigin {npdu : Npdu} {kind : Kind} (h : Wrote s t npdu kind target .none)
    (origin : RejectOrigin) :
    Wrote s (t.setRejectOrigin origin) npdu kind target origin where
  encodable := h.encodable
  room := h.room
  ports := h.ports
  flows := h.flows
  scratch := h.scratch
  out := by
    show { t.out with current := { t.out.current with rejectOrigin := origin } } = _
    rw [h.out]
    rfl
  faults := h.faults

/-- A reject passed on is rewritten with no return path, and its length draws nothing. -/
theorem forward_leaves (hs : s.Drained) (at_ : Arrival) (npdu : Npdu) (route : Route) :
    Leaves s (s.forward at_ npdu route).1 (eligible npdu).toNat
      fun sent kind target origin =>
        npdu.hopCount ≠ 0 ∧ (route.direct = false → npdu.hopCount ≠ 1) ∧
          (eligible npdu = false → origin = .none) ∧
          sent = (rewrite at_ npdu route).1 ∧ kind = .forward ∧
          target = .toward route.port (rewrite at_ npdu route).2 := by
  unfold forward
  by_cases hspent : npdu.hopCount = 0 ∨ (!route.direct ∧ npdu.hopCount = 1)
  · rw [if_pos hspent]
    exact .still (leaves_hopCountSpent s npdu)
  rw [if_neg hspent]
  have hhop : npdu.hopCount ≠ 0 := fun h => hspent (.inl h)
  have hnext : route.direct = false → npdu.hopCount ≠ 1 :=
    fun hd h => hspent (.inr ⟨by rw [hd]; rfl, h⟩)
  cases hport : s.portOf route.port with
  | none => exact .still ((queued_bump s _).trans (queued_observe _ _))
  | some egress =>
    rcases hrewrite : rewrite at_ npdu route with ⟨rewritten, dest⟩
    dsimp only
    by_cases hlong : egress.maxNpdu.get dest.isEmpty < rewritten.encodedLen
    · rw [if_pos hlong]
      have h0 := (queued_bump s .egressTooLong).trans (queued_observe (s.bump .egressTooLong)
        (.tooLong route.port rewritten.encodedLen (egress.maxNpdu.get dest.isEmpty)
          (if eligible npdu then some (dnetOf npdu) else none)))
      by_cases heligible : eligible npdu = true
      · rw [if_pos heligible]
        obtain ⟨tasks, h1, hlen⟩ := queued_reject at_ npdu.source (dnetOf npdu) .messageTooLong
          (by rw [h0.out_eq, hs.tasks]; decide)
        exact .queued tasks (h0.trans h1) (by rw [heligible]; exact hlen)
      · rw [if_neg heligible]
        exact .still h0
    · rw [if_neg hlong]
      have hwrite := wrote_writeNow hs rewritten .forward (.toward route.port dest)
      rcases hwritten : s.writeNow rewritten .forward (.toward route.port dest) with ⟨t, ok⟩
      rw [hwritten] at hwrite
      rcases hwrite with ⟨rfl, h⟩ | ⟨rfl, h⟩
      · rw [if_pos rfl]
        by_cases heligible : eligible npdu = true
        · rw [if_pos heligible]
          exact .wrote _ _ _ _ (h.setRejectOrigin _)
            ⟨hhop, hnext, fun hn => absurd heligible (by rw [hn]; decide), rfl, rfl, rfl⟩
        · rw [if_neg heligible]
          exact .wrote _ _ _ _ h ⟨hhop, hnext, fun _ => rfl, rfl, rfl, rfl⟩
      · exact .still h

variable {destination : Address}

/-- Forwarding, as the output of a frame with its own destination or its network's broadcast. -/
theorem forward_output (hs : s.Drained) (at_ : Arrival) {npdu : Npdu}
    (hdestination : npdu.destination = some destination) (mac : List UInt8) (route : Route) :
    Leaves s
      (s.forward at_ { npdu with destination := some ⟨destination.network, mac⟩ } route).1
      (eligible npdu).toNat (FrameOutput at_ npdu) := by
  refine (forward_leaves hs at_ _ route).mono le_rfl ?_
  rintro sent kind target origin ⟨hhop, hnext, horigin, rfl, rfl, rfl⟩
  exact .forward hdestination hhop hnext horigin

theorem forward_output_self (hs : s.Drained) (at_ : Arrival) {npdu : Npdu}
    (hdestination : npdu.destination = some destination) (route : Route) :
    Leaves s (s.forward at_ npdu route).1 (eligible npdu).toNat
      (FrameOutput at_ npdu) := by
  have h := forward_output hs at_ hdestination destination.mac route
  rwa [show ({ npdu with destination := some ⟨destination.network, destination.mac⟩ } : Npdu)
    = npdu by rw [show (⟨destination.network, destination.mac⟩ : Address) = destination from rfl,
      ← hdestination]] at h

theorem forwardGlobal_leaves (hs : s.Drained) (at_ : Arrival) {npdu : Npdu}
    (hdestination : npdu.destination = some destination) (htype : npdu.messageType = none) :
    Leaves s (s.forwardGlobal at_ npdu) 0 (FrameOutput at_ npdu) := by
  unfold forwardGlobal
  split_ifs with hhop
  · exact .still (leaves_hopCountSpent s npdu)
  · rcases wrote_writeFanOut hs { npdu with source := sourceOf at_ npdu,
                                            hopCount := npdu.hopCount - 1 } .global at_.port
      with ⟨_, h⟩ | ⟨_, h⟩
    · exact .wrote _ _ _ _ h (.global hdestination (UInt8.not_le.mp hhop) htype)
    · exact .still h

/-! ## Network messages -/

section Messages

variable {at_ : Arrival} {npdu : Npdu}

theorem queued_droppedAsOwn (s : Storage R H D B G) (npdu : Npdu) :
    Queued s (s.droppedAsOwn npdu).1 [] := by
  unfold droppedAsOwn
  split_ifs
  · exact queued_bump s _
  · exact Queued.refl s

theorem queued_repeatedRelay (s : Storage R H D B G) (at_ : Arrival) (npdu : Npdu)
    (kind : NetworkMessageType) (options : Options) :
    Queued s (s.repeatedRelay at_ npdu kind options).1 [] := by
  unfold repeatedRelay
  cases options.duplicates with
  | none => exact Queued.refl s
  | some duplicates =>
    dsimp only
    split_ifs
    · exact (queued_setRecent s _).trans (queued_bump _ _)
    · exact queued_setRecent s _

variable {kind : NetworkMessageType}

theorem relayed_leaves (hs : s.Drained) {relay : Npdu} (hkind : npdu.messageType = some kind)
    (hreject : kind ≠ .rejectMessageToNetwork) (hsent : relay.messageType = some kind)
    (hdestination : relay.destination = none) :
    Leaves s (s.relayed at_ relay kind).1 0 (FrameOutput at_ npdu) := by
  unfold relayed
  have h := wrote_writeFanOut hs relay (.relay kind) at_.port
  rcases hwritten : s.writeFanOut relay (.relay kind) at_.port with ⟨t, ok⟩
  rw [hwritten] at h
  rcases h with ⟨rfl, h⟩ | ⟨rfl, h⟩
  · exact .wrote _ _ _ _ h (.relay hkind hreject hsent hdestination)
  · exact .still h

theorem rebroadcast_leaves (hs : s.Drained) (hkind : npdu.messageType = some kind)
    (hreject : kind ≠ .rejectMessageToNetwork) :
    Leaves s (s.rebroadcast at_ npdu kind).1 0 (FrameOutput at_ npdu) :=
  relayed_leaves hs hkind hreject rfl rfl

theorem push_leaves (hs : s.Drained) (task : Task)
    {W : Npdu → Kind → Target → RejectOrigin → Prop} : Leaves s (s.push task) 1 W :=
  .queued [task] (queued_push s task (by rw [hs.tasks]; decide)) le_rfl

theorem queued_badMessage (s : Storage R H D B G) : Queued s s.badMessage.1 [] := queued_bump s _

theorem authorized_leaves {host : Claim → Bool} {claim : Claim}
    {allowed : Storage R H D B G × Received} {most : ℕ}
    {W : Npdu → Kind → Target → RejectOrigin → Prop} (h : Leaves s allowed.1 most W) :
    Leaves s (s.authorized host claim allowed).1 most W := by
  unfold authorized
  split_ifs
  · exact h
  · exact .still (queued_bump s _)

theorem whoIsRouter_leaves (hs : s.Drained) (options : Options)
    (hkind : npdu.messageType = some .whoIsRouterToNetwork) :
    Leaves s (s.whoIsRouter at_ npdu options).1 1 (FrameOutput at_ npdu) := by
  unfold whoIsRouter
  have hown := queued_droppedAsOwn s npdu
  generalize s.droppedAsOwn npdu = own at hown ⊢
  obtain ⟨t, dropped⟩ := own
  cases dropped with
  | true => exact .still hown
  | false =>
    refine .after hown ?_
    have ht := hown.drained hs
    dsimp only
    split
    · exact .still (queued_badMessage t)
    · exact push_leaves ht _
    · split_ifs
      · exact .still (queued_badMessage t)
      split
      · split_ifs
        · exact push_leaves ht _
        · exact .still (Queued.refl t)
      · have hrelay := queued_repeatedRelay t at_ npdu .whoIsRouterToNetwork options
        generalize t.repeatedRelay at_ npdu .whoIsRouterToNetwork options = relay at hrelay ⊢
        obtain ⟨u, repeats⟩ := relay
        cases repeats with
        | true => exact .still hrelay
        | false =>
          refine .after hrelay ((relayed_leaves (hrelay.drained ht) hkind (by decide) ?_ rfl).mono
            (Nat.zero_le _) fun _ _ _ _ h => h)
          exact hkind

theorem queued_reportLearned (s : Storage R H D B G) (network : UInt16) (port : PortId)
    (controlClass : ControlClass) (learned : Learned) :
    Queued s (s.reportLearned network port controlClass learned) [] := by
  have hflap : ∀ t : Storage R H D B G, Queued s t [] →
      Queued s (if learned.isApplied then
        (t.setTable t.table.recordLearned).observe (.learned network port controlClass)
      else t) [] := by
    intro t ht
    split_ifs
    · exact ht.trans ((queued_setTable t _).trans (queued_observe _ _))
    · exact ht
  apply hflap
  split
  · split_ifs
    · exact queued_observe s _
    · exact Queued.refl s
  · exact Queued.refl s

theorem queued_applyClaim (s : Storage R H D B G) (at_ : Arrival) (network : UInt16)
    (controlClass : ControlClass) (options : Options) :
    Queued s (s.applyClaim at_ network controlClass options) [] := by
  exact (queued_setTable s _).trans
    ((queued_note _ fun _ => Note.noConfusion).trans (queued_reportLearned _ _ _ _ _))

theorem queued_claim (s : Storage R H D B G) (at_ : Arrival) (network : UInt16)
    (claimed : List UInt16) (controlClass : ControlClass) (options : Options) :
    Queued s (s.claim at_ network claimed controlClass options).1 [] := by
  unfold claim
  dsimp only
  split_ifs
  · exact (queued_setTable s _).trans (queued_observe _ _)
  · split
    · exact Queued.refl s
    · exact queued_applyClaim s at_ network controlClass options
  · exact queued_applyClaim s at_ network controlClass options

theorem queued_claimAll (at_ : Arrival) (controlClass : ControlClass) (options : Options)
    (networks claimed : List UInt16) (s : Storage R H D B G) :
    Queued s (s.claimAll at_ controlClass options networks claimed) [] := by
  induction networks generalizing s claimed with
  | nil => exact Queued.refl s
  | cons network rest ih =>
    unfold claimAll
    have h := queued_claim s at_ network claimed controlClass options
    generalize s.claim at_ network claimed controlClass options = result at h ⊢
    obtain ⟨t, claimed, goes⟩ := result
    cases goes with
    | true => exact h.trans (ih claimed t)
    | false => exact h

theorem iAmRouter_leaves (hs : s.Drained) (options : Options) (host : Claim → Bool)
    (hkind : npdu.messageType = some .iAmRouterToNetwork) :
    Leaves s (s.iAmRouter at_ npdu options host).1 0 (FrameOutput at_ npdu) := by
  unfold iAmRouter
  split
  · exact .still (queued_badMessage s)
  · apply authorized_leaves
    have h := queued_repeatedRelay s at_ npdu .iAmRouterToNetwork options
    generalize s.repeatedRelay at_ npdu .iAmRouterToNetwork options = relay at h ⊢
    obtain ⟨t, repeats⟩ := relay
    cases repeats with
    | true => exact .still h
    | false =>
      rename_i list _
      have hall := h.trans (queued_claimAll at_ .iAm options list.iter [] t)
      exact .after hall (rebroadcast_leaves (hall.drained hs) hkind (by decide))

theorem iCouldBeRouter_queued (s : Storage R H D B G) (at_ : Arrival) (npdu : Npdu)
    (options : Options) (host : Claim → Bool) {W : Npdu → Kind → Target → RejectOrigin → Prop} :
    Leaves s (s.iCouldBeRouter at_ npdu options host).1 0 W := by
  unfold iCouldBeRouter
  split
  · exact .still (queued_badMessage s)
  · apply authorized_leaves
    have hcap := (queued_setTable s s.table.recordLearningCap).trans
      (queued_observe _ (.routeCap .iCouldBe))
    have hstore : ∀ (t : Storage R H D B G) (table : Table R H) (stored : Bool) (network : UInt16)
        (event : Event), Queued t ((if stored then (t.setTable table).note (.wrote network)
          else t.setTable table).observe event) [] := by
      intro t table stored network event
      cases stored with
      | true =>
        exact (queued_setTable t table).trans
          ((queued_note _ fun _ => Note.noConfusion).trans (queued_observe _ _))
      | false => exact (queued_setTable t table).trans (queued_observe _ _)
    refine .still ?_
    by_cases hfull : options.cap R ≤ s.table.len
    · simp only [decide_eq_true hfull, Bool.not_true, Bool.and_false, Bool.false_eq_true,
        if_false, Bool.and_true]
      split_ifs
      · exact hcap.trans (queued_observe _ _)
      · exact queued_observe s _
    · simp only [decide_eq_false hfull, Bool.and_false, Bool.false_eq_true, if_false,
        Bool.not_false, Bool.and_true]
      split
      · exact hstore s _ _ _ _
      · exact queued_observe s _

theorem queued_takeReject (s : Storage R H D B G) (at_ : Arrival) (reject : RejectMessageToNetwork)
    (options : Options) : Queued s (s.takeReject at_ reject options).1 [] := by
  unfold takeReject
  dsimp only
  split_ifs
  · exact queued_bump s _
  · exact queued_setTable s _

theorem passOnReject_leaves [GroupClassifier G] (hs : s.Drained)
    (hkind : npdu.messageType = some .rejectMessageToNetwork) :
    Leaves s (s.passOnReject at_ npdu).1 0 (FrameOutput at_ npdu) := by
  have hineligible : (eligible npdu).toNat = 0 := by
    unfold eligible
    rw [hkind]
    rfl
  unfold passOnReject
  cases hdest : npdu.destination.filter fun destination => !s.isOwn destination with
  | none => exact .still (Queued.refl s)
  | some destination =>
    have hdestination : npdu.destination = some destination :=
      (Option.filter_eq_some_iff.mp hdest).1
    dsimp only
    split
    · split_ifs
      · exact .still (queued_bump s _)
      · rename_i route _ _
        have h := forward_output_self hs at_ hdestination route
        rwa [hineligible] at h
    · exact .still (queued_bump s _)

theorem receivedReject_leaves [GroupClassifier G] (hs : s.Drained) (options : Options)
    (host : Claim → Bool) (hkind : npdu.messageType = some .rejectMessageToNetwork) :
    Leaves s (s.receivedReject at_ npdu options host).1 0 (FrameOutput at_ npdu) := by
  unfold receivedReject
  split
  · exact .still (queued_badMessage s)
  · rename_i reject _
    apply authorized_leaves
    have h := (queued_takeReject s at_ reject options).trans (queued_observe _
      (.rejectReceived reject.network reject.reason (s.takeReject at_ reject options).2))
    exact .after h (passOnReject_leaves (h.drained hs) hkind)

theorem queued_mark (s : Storage R H D B G) (busy : Bool) (deadline : Instant)
    (network : UInt16) : Queued s (s.mark busy deadline network) [] :=
  (queued_setTable s _).trans (queued_observe _ _)

theorem queued_markServed (at_ : Arrival) (busy : Bool) (deadline : Instant) (passes : ℕ)
    (start : ℕ) (s : Storage R H D B G) :
    Queued s (s.markServed at_ busy deadline passes start) [] := by
  induction passes generalizing s start with
  | zero => exact Queued.refl s
  | succ passes ih =>
    unfold markServed
    dsimp only
    split
    · exact Queued.refl s
    · exact (queued_mark s busy deadline _).trans (ih _ _)

theorem queued_markListed (s : Storage R H D B G) (at_ : Arrival) (busy : Bool) (deadline : Instant)
    (network : UInt16) : Queued s (s.markListed at_ busy deadline network) [] := by
  unfold markListed
  split_ifs
  · exact queued_mark s busy deadline network
  · exact queued_bump s _
  · exact Queued.refl s

theorem flowControl_leaves (hs : s.Drained) (busy : Bool) (options : Options)
    (host : Claim → Bool)
    (hkind : npdu.messageType
      = some (if busy then .routerBusyToNetwork else .routerAvailableToNetwork)) :
    Leaves s (s.flowControl at_ npdu busy options host).1 0 (FrameOutput at_ npdu) := by
  unfold flowControl
  split
  · exact .still (queued_badMessage s)
  · apply authorized_leaves
    dsimp only
    generalize hk : (if busy then NetworkMessageType.routerBusyToNetwork
      else .routerAvailableToNetwork) = kind at hkind ⊢
    have hreject : kind ≠ .rejectMessageToNetwork := by
      rw [← hk]
      cases busy <;> decide
    have h := queued_repeatedRelay s at_ npdu kind options
    generalize s.repeatedRelay at_ npdu kind options = relay at h ⊢
    obtain ⟨t, repeats⟩ := relay
    cases repeats with
    | true => exact .still h
    | false =>
      rename_i list _
      have hmarks : Queued t (if list.isEmpty = true then
          t.markServed at_ busy (satAdd at_.now options.timing.busyFor) t.table.len 0
        else list.iter.foldl (fun s network => s.markListed at_ busy
          (satAdd at_.now options.timing.busyFor) network) t) [] := by
        split_ifs
        · exact queued_markServed at_ busy _ _ _ t
        · exact queued_foldl (fun s network => queued_markListed s at_ busy _ network) _ t
      have hall := h.trans hmarks
      exact .after hall (rebroadcast_leaves (hall.drained hs) hkind hreject)

theorem queued_updateAll (at_ : Arrival) (options : Options) (entries : List RoutingEntry)
    (s : Storage R H D B G) : Queued s (s.updateAll at_ options entries) [] := by
  induction entries generalizing s with
  | nil => exact Queued.refl s
  | cons entry rest ih =>
    have hnoted : ∀ (table : Table R H) (changed : Bool) (note : Note) (event : Event),
        (∀ a, note ≠ .failed a) →
        Queued s (if changed then ((s.setTable table).note note).observe event
          else s.setTable table) [] := by
      intro table changed note event hnote
      cases changed with
      | true =>
        exact (queued_setTable s table).trans ((queued_note _ hnote).trans (queued_observe _ _))
      | false => exact queued_setTable s table
    unfold updateAll
    dsimp only
    split
    · exact ih s
    split
    · exact (hnoted _ _ (.removed entry.network) _ fun _ => Note.noConfusion).trans (ih _)
    split
    · exact (queued_observe s _).trans (ih _)
    split
    · exact (queued_setTable s _).trans (queued_observe _ _)
    · exact (hnoted _ _ (.wrote entry.network) _ fun _ => Note.noConfusion).trans (ih _)

theorem initializeRoutingTable_leaves (hs : s.Drained) (options : Options) (host : Claim → Bool)
    {W : Npdu → Kind → Target → RejectOrigin → Prop} :
    Leaves s (s.initializeRoutingTable at_ npdu options host).1 1 W := by
  unfold initializeRoutingTable
  split
  · exact .still (queued_badMessage s)
  · split_ifs
    · exact push_leaves hs _
    · apply authorized_leaves
      rename_i entries _ _
      have h := queued_updateAll at_ options entries.iter s
      exact .after h (push_leaves (h.drained hs) _)

theorem routingTableAck_leaves (s : Storage R H D B G) (at_ : Arrival) (npdu : Npdu)
    (options : Options) (host : Claim → Bool) {W : Npdu → Kind → Target → RejectOrigin → Prop} :
    Leaves s (s.routingTableAck at_ npdu options host).1 0 W := by
  unfold routingTableAck
  split_ifs
  · exact .still (Queued.refl s)
  · split
    · exact .still (queued_badMessage s)
    · apply authorized_leaves
      exact .still (queued_claimAll at_ .initAck options _ [] s)

theorem networkNumberIs_queued (s : Storage R H D B G) (at_ : Arrival) (npdu : Npdu) :
    Queued s (s.networkNumberIs at_ npdu).1 [] := by
  unfold networkNumberIs
  split_ifs
  · exact queued_badMessage s
  · split
    · exact queued_badMessage s
    · split_ifs
      · exact queued_observe s _
      · exact Queued.refl s

theorem whatIsNetworkNumber_leaves (hs : s.Drained) {W : Npdu → Kind → Target → RejectOrigin → Prop}
    : Leaves s (s.whatIsNetworkNumber at_ npdu).1 1 W := by
  unfold whatIsNetworkNumber
  split_ifs
  · exact .still (queued_badMessage s)
  · exact push_leaves hs _

theorem establishConnection_queued (s : Storage R H D B G) (npdu : Npdu) :
    Queued s (s.establishConnection npdu).1 [] := by
  unfold establishConnection
  split
  · exact queued_badMessage s
  · exact queued_observe s _

theorem disconnectConnection_queued (s : Storage R H D B G) (npdu : Npdu) :
    Queued s (s.disconnectConnection npdu).1 [] := by
  unfold disconnectConnection
  split
  · exact queued_badMessage s
  · exact (queued_observe s _).trans (queued_setTable _ _)

theorem unknownMessage_leaves (hs : s.Drained) (kind : NetworkMessageType)
    {W : Npdu → Kind → Target → RejectOrigin → Prop} :
    Leaves s (s.unknownMessage at_ npdu kind).1 1 W := by
  unfold unknownMessage
  split_ifs
  · exact .still (queued_observe s _)
  · have h := queued_observe s (.unknownMessage kind)
    obtain ⟨tasks, hq, hlen⟩ := queued_reject at_ npdu.source 0 .unknownMessageType
      (by rw [h.out_eq, hs.tasks]; decide)
    exact .queued tasks (h.trans hq) hlen

/-- What a message for this router leaves: a reject queues nothing. -/
theorem handleMessage_leaves [GroupClassifier G] (hs : s.Drained) (options : Options)
    (host : Claim → Bool) (hkind : npdu.messageType = some kind) :
    Leaves s (s.handleMessage at_ npdu kind options host).1
      (2 * (eligible npdu).toNat) (FrameOutput at_ npdu) := by
  by_cases hreject : kind = .rejectMessageToNetwork
  · subst hreject
    exact (receivedReject_leaves hs options host hkind).mono (Nat.zero_le _) fun _ _ _ _ h => h
  have heligible : eligible npdu = true := by
    unfold eligible
    rw [hkind]
    simpa using hreject
  rw [heligible]
  have hmore : ∀ {t : Storage R H D B G} {most : ℕ}, most ≤ 1 →
      Leaves s t most (FrameOutput at_ npdu) → Leaves s t (2 * true.toNat) (FrameOutput at_ npdu) :=
    fun hle h => h.mono (hle.trans (by decide)) fun _ _ _ _ h => h
  refine .ite (fun h => ?_) (.ite (fun h => ?_) (.ite (fun h => ?_) (.ite (fun h => ?_)
    (.ite (fun h => ?_) (.ite (fun h => ?_) (.ite (fun h => ?_) (.ite (fun h => ?_)
    (.ite (fun h => ?_) (.ite (fun h => ?_) (.ite (fun h => ?_) (.ite (fun h => ?_) ?_)))))))))))
  · exact hmore le_rfl (whoIsRouter_leaves hs options (h ▸ hkind))
  · exact hmore (Nat.zero_le _) (iAmRouter_leaves hs options host (h ▸ hkind))
  · exact hmore (Nat.zero_le _) (iCouldBeRouter_queued s at_ npdu options host)
  · exact absurd h hreject
  · exact hmore (Nat.zero_le _) (flowControl_leaves hs true options host (h ▸ hkind))
  · exact hmore (Nat.zero_le _) (flowControl_leaves hs false options host (h ▸ hkind))
  · exact hmore le_rfl (initializeRoutingTable_leaves hs options host)
  · exact hmore (Nat.zero_le _) (routingTableAck_leaves s at_ npdu options host)
  · exact .still (establishConnection_queued s npdu)
  · exact .still (disconnectConnection_queued s npdu)
  · exact hmore le_rfl (whatIsNetworkNumber_leaves hs)
  · exact .still (networkNumberIs_queued s at_ npdu)
  · exact hmore le_rfl (unknownMessage_leaves hs kind)

theorem networkMessage_leaves [GroupClassifier G] (hs : s.Drained) (options : Options)
    (host : Claim → Bool) (hkind : npdu.messageType = some kind) :
    Leaves s (s.networkMessage at_ npdu kind options host).1
      (2 * (eligible npdu).toNat) (FrameOutput at_ npdu) := by
  unfold networkMessage
  cases hdest : (elsewhere at_ npdu).filter fun _ => !alwaysHere kind with
  | none => exact handleMessage_leaves hs options host hkind
  | some destination =>
    obtain ⟨hdest, hhere⟩ := Option.filter_eq_some_iff.mp hdest
    have hdestination : npdu.destination = some destination :=
      (Option.filter_eq_some_iff.mp hdest).1
    have heligible : eligible npdu = true := by
      unfold eligible
      rw [hkind]
      by_contra hreject
      have : kind = .rejectMessageToNetwork := by simpa using hreject
      rw [this] at hhere
      exact absurd hhere (by decide)
    rw [heligible]
    dsimp only
    have hfind := findRoute_cases hs at_ npdu destination.network options
    generalize s.findRoute at_ npdu destination.network options = found at hfind ⊢
    obtain ⟨t, found⟩ := found
    rcases hfind with ⟨rfl, tasks, h, hlen⟩ | ⟨route, rfl, h⟩
    · exact .queued tasks h hlen
    · refine .after h (.ite (fun _ => .still (queued_bump t _)) ?_)
      have hforward := forward_output_self (h.drained hs) at_ hdestination route
      rw [heligible] at hforward
      exact hforward.mono (by decide) fun _ _ _ _ h => h

end Messages

/-! ## APDUs -/

section Apdus

variable {at_ : Arrival} {npdu : Npdu}

theorem queued_repeatedGlobal (s : Storage R H D B G) (at_ : Arrival) (npdu : Npdu)
    (options : Options) : Queued s (s.repeatedGlobal at_ npdu options).1 [] := by
  unfold repeatedGlobal
  cases options.duplicates with
  | none => exact Queued.refl s
  | some duplicates =>
    dsimp only
    split_ifs
    · exact (queued_setRecent s _).trans (queued_bump _ _)
    · exact queued_setRecent s _

theorem routeGlobal_leaves (hs : s.Drained) (options : Options)
    (hdestination : npdu.destination = some destination) (htype : npdu.messageType = none) :
    Leaves s (s.routeGlobal at_ npdu options).1 0 (FrameOutput at_ npdu) := by
  unfold routeGlobal
  have hown := queued_droppedAsOwn s npdu
  generalize s.droppedAsOwn npdu = own at hown ⊢
  obtain ⟨t, dropped⟩ := own
  cases dropped with
  | true => exact .still hown
  | false =>
    dsimp only
    have hrepeat := queued_repeatedGlobal t at_ npdu options
    generalize t.repeatedGlobal at_ npdu options = again at hrepeat ⊢
    obtain ⟨u, repeats⟩ := again
    have hall := hown.trans hrepeat
    cases repeats with
    | true => exact .still hall
    | false => exact .after hall (forwardGlobal_leaves (hall.drained hs) at_ hdestination htype)

theorem forwarded_fst (s : Storage R H D B G) (at_ : Arrival) (npdu : Npdu) (route : Route)
    (delivered : Option Delivery) :
    (s.forwarded at_ npdu route delivered).1 = (s.forward at_ npdu route).1 := by
  cases delivered <;> rfl

theorem routeAlong_leaves [GroupClassifier G] (hs : s.Drained)
    (hdestination : npdu.destination = some destination) (route : Route) :
    Leaves s (s.routeAlong at_ npdu destination route).1 1 (FrameOutput at_ npdu) := by
  have hforward := (forward_output_self hs at_ hdestination route).mono
    (Bool.toNat_le _) fun _ _ _ _ h => h
  have hbroadcast := (forward_output hs at_ hdestination [] route).mono
    (Bool.toNat_le _) fun _ _ _ _ h => h
  unfold routeAlong
  dsimp only
  refine .ite (fun _ => .still (Queued.refl s)) ?_
  split
  · rw [forwarded_fst]
    exact hforward
  · refine .ite (fun _ => ?_) (.still (queued_bump s _))
    rw [forwarded_fst]
    exact hbroadcast
  · exact .still (queued_bump s _)

theorem routeApdu_leaves [GroupClassifier G] (hs : s.Drained) (options : Options)
    (htype : npdu.messageType = none) :
    Leaves s (s.routeApdu at_ npdu options).1 2 (FrameOutput at_ npdu) := by
  unfold routeApdu
  cases hdestination : npdu.destination with
  | none => exact .still (Queued.refl s)
  | some destination =>
    refine .ite (fun _ => ?_) (.ite (fun _ => .still (Queued.refl s)) ?_)
    · exact (routeGlobal_leaves hs options hdestination htype).mono (Nat.zero_le _)
        fun _ _ _ _ h => h
    · have hfind := findRoute_cases hs at_ npdu destination.network options
      generalize s.findRoute at_ npdu destination.network options = found at hfind ⊢
      obtain ⟨t, found⟩ := found
      rcases hfind with ⟨rfl, tasks, h, hlen⟩ | ⟨route, rfl, h⟩
      · exact .queued tasks h hlen
      · exact .after h ((routeAlong_leaves (h.drained hs) hdestination route).mono (by decide)
          fun _ _ _ _ h => h)

end Apdus

/-! ## Frames -/

/-- How many tasks a frame can queue: none when it is a reject. -/
def mayQueue (octets : List UInt8) : ℕ :=
  match Npdu.decode octets with
  | .ok npdu => 2 * (eligible npdu).toNat
  | .error _ => 1

/-- What a frame with these octets, received on this port, can make the router write. -/
def OutputFor (frame : Frame) (sent : Npdu) (kind : Kind) (target : Target)
    (origin : RejectOrigin) : Prop :=
  ∃ at_ npdu, at_.port = frame.port ∧ Npdu.decode frame.npdu = .ok npdu ∧
    FrameOutput at_ npdu sent kind target origin

theorem dispatch_leaves [GroupClassifier G] (hs : s.Drained) (at_ : Arrival) (npdu : Npdu)
    (options : Options) (host : Claim → Bool) :
    Leaves s (s.dispatch at_ npdu options host).1 (2 * (eligible npdu).toNat)
      (FrameOutput at_ npdu) := by
  unfold dispatch
  cases hkind : npdu.messageType with
  | none =>
    have heligible : eligible npdu = true := by
      unfold eligible
      rw [hkind]
      rfl
    rw [heligible]
    exact routeApdu_leaves hs options hkind
  | some kind => exact networkMessage_leaves hs options host hkind

theorem refuse_leaves (hs : s.Drained) (at_ : Arrival) (refused : Refused)
    {W : Npdu → Kind → Target → RejectOrigin → Prop} :
    Leaves s (s.refuse at_ refused).1 (refused.rejectTo.isSome).toNat W := by
  unfold refuse
  have hreject : ∀ (source : Option Address) (dnet : UInt16),
      ∃ tasks, Queued s (s.reject at_ source dnet .addressingError) tasks ∧ tasks.length ≤ 1 :=
    fun source dnet => queued_reject at_ source dnet _ (by rw [hs.tasks]; decide)
  split
  · rename_i dnet source hto
    rw [hto]
    split_ifs
    · obtain ⟨tasks, h, hlen⟩ := hreject source dnet
      have hall := h.trans (queued_bump _ refused.count)
      rw [List.append_nil] at hall
      exact .queued tasks hall hlen
    · exact .still (queued_bump s _)
  · exact .still (queued_bump s _)

variable {octets : List UInt8}

theorem admitNpdu_ok {npdu : Npdu} (h : admitNpdu octets = .ok npdu) :
    Npdu.decode octets = .ok npdu := by
  unfold admitNpdu at h
  split at h
  · cases h
  · cases h
  · rename_i decoded hdecode
    split at h
    · cases h
      exact hdecode
    · dsimp only at h
      split_ifs at h
      cases h
      exact hdecode

theorem admitNpdu_error {refused : Refused} (h : admitNpdu octets = .error refused) :
    refused.rejectTo = none ∨ ∃ error, Npdu.decode octets = .error error := by
  unfold admitNpdu at h
  split at h
  · exact .inr ⟨_, ‹_›⟩
  · exact .inr ⟨_, ‹_›⟩
  · split at h
    · cases h
    · dsimp only at h
      split_ifs at h <;> cases h <;> exact .inl rfl

theorem receive_leaves [GroupClassifier G] (s : Storage R H D B G) (frame : Frame)
    (now : Instant) (options : Options) (host : Claim → Bool) :
    Leaves s.dropUndrained (s.receive frame now options host).1 (mayQueue frame.npdu)
      (OutputFor frame) := by
  unfold receive
  dsimp only
  have h0 : Queued s.dropUndrained (s.dropUndrained.note (.received frame now)) [] :=
    queued_note _ fun _ => Note.noConfusion
  have hs := h0.drained (drained_dropUndrained s)
  refine .after h0 ?_
  split
  · exact .still (queued_bump _ _)
  split
  · exact .still (queued_bump _ _)
  split
  · rename_i npdu hadmitted
    have hdecode := admitNpdu_ok hadmitted
    refine (dispatch_leaves hs _ npdu options host).mono ?_ ?_
    · unfold mayQueue
      rw [hdecode]
    · intro sent kind target origin hout
      exact ⟨_, npdu, rfl, hdecode, hout⟩
  · rename_i refused hadmitted
    refine (refuse_leaves hs _ refused).mono ?_ fun _ _ _ _ h => h
    rcases admitNpdu_error hadmitted with hnone | ⟨error, hdecode⟩
    · rw [hnone]
      exact Nat.zero_le _
    · unfold mayQueue
      rw [hdecode]
      exact Bool.toNat_le _

end RustyBacnet.Router.Storage
