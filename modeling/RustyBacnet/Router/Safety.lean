import RustyBacnet.Router.Delivery
import RustyBacnet.Router.Sending

/-!
# Output safety

Whatever frames, table writes and limits a router is given, each send it asks for fits a port and
holds an NPDU, and no assertion fails. The queue has room for four tasks, which is enough: two that
a frame or an announcement queues, one for a refusal of the send just polled and one for a deferred
refusal. `Caller` keeps what a caller may still report, and `Safe.room` counts it against the queue.
-/

namespace RustyBacnet.Router

open Storage

/-! ## The caller's part -/

/-- What a caller has reported: whether the send it polled last is not yet, and whether a deferred
refusal was since it last polled to idle. -/
structure Caller where
  unreported : Bool
  deferred : Bool
  deriving DecidableEq

namespace Caller

def start : Caller := ⟨false, false⟩

/-- A send is reported refused once, and a second deferred refusal waits for idle. -/
def allows (caller : Caller) : Call → Bool
  | .refused _ => caller.unreported
  | .refusedLater _ _ => !caller.deferred
  | _ => true

def after (caller : Caller) : Call → Reply → Caller
  | .poll, .action (.send _) => { caller with unreported := true }
  | .poll, _ => { caller with deferred := false }
  | .refused _, _ => { caller with unreported := false }
  | .refusedLater _ _, _ => { caller with deferred := true }
  | _, _ => caller

end Caller

section Safe

variable {R H D B : ℕ} {G : Type} {s t : Storage R H D B G} {caller : Caller}

def hasOrigin (s : Storage R H D B G) : Bool := s.out.current.rejectOrigin.asOption.isSome

/-- Whether a send with a return path is still to be polled. -/
def awaits (s : Storage R H D B G) : Bool :=
  s.out.current.hasMore s.ports.length && hasOrigin s

/-- The invariant of a storage whose caller keeps to its part. -/
structure Safe (s : Storage R H D B G) (caller : Caller) : Prop where
  loaded : Loaded s fun _ _ _ => True
  single : awaits s = true → s.out.current.fanOut = false
  faults : s.faults = []
  room : s.out.tasks.length + (caller.unreported && hasOrigin s).toNat + (awaits s).toNat
    + (!caller.deferred).toNat ≤ queueLen

theorem awaits_of_spent (h : s.out.current.hasMore s.ports.length = false) : awaits s = false := by
  unfold awaits
  rw [h, Bool.false_and]

theorem room_of_spent (htasks : s.out.tasks.length ≤ 2)
    (hspent : s.out.current.hasMore s.ports.length = false) (caller : Caller) :
    s.out.tasks.length + (caller.unreported && hasOrigin s).toNat + (awaits s).toNat
      + (!caller.deferred).toNat ≤ queueLen := by
  have h1 := Bool.toNat_le (caller.unreported && hasOrigin s)
  have h2 := Bool.toNat_le (!caller.deferred)
  rw [awaits_of_spent hspent, Bool.toNat_false]
  unfold queueLen
  omega

theorem room_of_empty (htasks : s.out.tasks = []) (caller : Caller) :
    s.out.tasks.length + (caller.unreported && hasOrigin s).toNat + (awaits s).toNat
      + (!caller.deferred).toNat ≤ queueLen := by
  have h1 := Bool.toNat_le (caller.unreported && hasOrigin s)
  have h2 := Bool.toNat_le (!caller.deferred)
  have h3 := Bool.toNat_le (awaits s)
  rw [htasks, List.length_nil]
  unfold queueLen
  omega

theorem faults_dropUndrained (s : Storage R H D B G) : s.dropUndrained.faults = s.faults := by
  unfold Storage.faults
  rw [dropUndrained_notes]

theorem Safe.queued {tasks : List Task} (h : Safe s caller) (hq : Queued s.dropUndrained t tasks)
    (hmost : tasks.length ≤ 2) : Safe t caller := by
  have hdrained := drained_iff.mp (drained_dropUndrained s)
  have hcurrent : t.out.current = s.dropUndrained.out.current := by rw [hq.out]
  have hspent : t.out.current.hasMore t.ports.length = false := by
    rw [hcurrent, hq.ports]
    exact hdrained.2
  refine ⟨.of_spent hspent, ?_, ?_, room_of_spent ?_ hspent caller⟩
  · rw [awaits_of_spent hspent]
    exact Bool.noConfusion
  · rw [hq.faults, faults_dropUndrained, h.faults]
  · rw [hq.out, hdrained.1]
    exact hmost

theorem Safe.quiet (h : Safe s caller) (hq : Quiet s t) (htasks : t.out.tasks = s.out.tasks)
    (hfaults : t.faults = s.faults) : Safe t caller := by
  have horigin : hasOrigin t = hasOrigin s := by
    unfold hasOrigin
    rw [hq.current]
  have hawaits : awaits t = awaits s := by
    unfold awaits
    rw [hq.current, hq.ports, horigin]
  refine ⟨hq.loaded h.loaded, ?_, hfaults.trans h.faults, ?_⟩
  · rw [hawaits, hq.current]
    exact h.single
  · rw [htasks, horigin, hawaits]
    exact h.room

theorem Safe.still (h : Safe s caller) (hq : Queued s t []) : Safe t caller :=
  h.quiet hq.quiet (by rw [hq.out_eq]) hq.faults

/-! ## Frames and requests -/

theorem outputFor_single {frame : Frame} {npdu : Npdu} {kind : Kind} {target : Target}
    {origin : RejectOrigin} (h : OutputFor frame npdu kind target origin)
    (horigin : origin.asOption.isSome = true) :
    (currentOf npdu kind target origin).fanOut = false := by
  obtain ⟨at_, received, _, _, hout⟩ := h
  cases hout with
  | forward => rfl
  | global => cases horigin
  | relay => cases horigin

theorem mayQueue_le (octets : List UInt8) : mayQueue octets ≤ 2 := by
  unfold mayQueue
  split
  · have := Bool.toNat_le (eligible ‹_›)
    omega
  · decide

theorem Safe.receive [GroupClassifier G] (h : Safe s caller) (frame : Frame) (now : Instant)
    (options : Options) (host : Claim → Bool) :
    Safe (s.receive frame now options host).1 caller := by
  have hleaves := receive_leaves s frame now options host
  have hloaded := hleaves.loaded (loaded_dropUndrained s) (P := fun _ _ _ => True)
    fun _ _ _ _ _ => trivial
  cases hleaves with
  | queued tasks hq hmost => exact h.queued hq (hmost.trans (mayQueue_le _))
  | wrote npdu kind target origin hwrote hw =>
    have hcurrent : (s.receive frame now options host).1.out.current
        = currentOf npdu kind target origin := by rw [hwrote.out]
    refine ⟨hloaded, ?_, ?_, room_of_empty ?_ caller⟩
    · unfold awaits hasOrigin
      rw [Bool.and_eq_true, hcurrent]
      exact fun h => outputFor_single hw h.2
    · rw [hwrote.faults, faults_dropUndrained, h.faults]
    · rw [hwrote.out]
      exact (drained_dropUndrained s).tasks

theorem Safe.originate [GroupClassifier G] (h : Safe s caller) (request : Request) (now : Instant)
    (options : Options) : Safe (s.originate request now options).1 caller := by
  cases originate_requested s request now options with
  | queued tasks hq hmost => exact h.queued hq (hmost.trans (by decide))
  | wrote hports hflows hroom htasks hfaults horigin hloaded =>
    refine ⟨hloaded _ anyLaw, ?_, ?_, room_of_empty ?_ caller⟩
    · unfold awaits hasOrigin
      rw [horigin, show RejectOrigin.none.asOption.isSome = false from rfl, Bool.and_false]
      exact Bool.noConfusion
    · rw [hfaults, faults_dropUndrained, h.faults]
    · rw [htasks]
      exact (drained_dropUndrained s).tasks

theorem Safe.announce (h : Safe s caller) (task : Task) : Safe (s.dropUndrained.push task) caller :=
  h.queued (queued_push _ task (by rw [(drained_dropUndrained s).tasks]; decide)) (by simp)

/-! ## Refusals -/

variable {next : Caller}

theorem Safe.queueReject (h : Safe s caller) (origin : RejectOrigin) (reason : RejectMessageReason)
    (hnext : (next.unreported && hasOrigin s).toNat + (!next.deferred).toNat + 1
      ≤ (caller.unreported && hasOrigin s).toNat + (!caller.deferred).toNat) :
    Safe (s.queueReject origin reason) next := by
  have hroom := h.room
  have hq := queued_queueReject (s := s) origin reason (by omega)
  have horigin : hasOrigin (s.queueReject origin reason) = hasOrigin s := by
    unfold hasOrigin
    rw [hq.out]
  have hawaits : awaits (s.queueReject origin reason) = awaits s := by
    unfold awaits
    rw [horigin, hq.out, hq.ports]
  refine ⟨hq.quiet.loaded h.loaded, ?_, hq.faults.trans h.faults, ?_⟩
  · rw [hawaits, hq.out]
    exact h.single
  · rw [horigin, hawaits, hq.out, List.length_append, List.length_singleton]
    omega

theorem Safe.bump (h : Safe s caller) (counter : Counter) : Safe (s.bump counter) caller :=
  h.quiet (queued_bump s counter).quiet rfl rfl

theorem Safe.mono (h : Safe s caller)
    (hunreported : next.unreported = true → caller.unreported = true)
    (hdeferred : caller.deferred = true → next.deferred = true) : Safe s next := by
  refine ⟨h.loaded, h.single, h.faults, le_trans ?_ h.room⟩
  have h1 : (next.unreported && hasOrigin s).toNat ≤ (caller.unreported && hasOrigin s).toNat := by
    revert hunreported
    cases next.unreported <;> cases caller.unreported <;> cases hasOrigin s <;> decide
  have h2 : (!next.deferred).toNat ≤ (!caller.deferred).toNat := by
    revert hdeferred
    cases next.deferred <;> cases caller.deferred <;> decide
  omega

theorem Safe.refusedLater (h : Safe s caller) (why : SendRefusal) (origin : Option RejectOrigin)
    (hdeferred : caller.deferred = false) :
    Safe (s.refusedLater why origin) { caller with deferred := true } := by
  have hgiven : Safe s { caller with deferred := true } := h.mono id fun _ => rfl
  refine Safe.bump ?_ _
  split_ifs
  · cases origin with
    | none => exact hgiven.bump _
    | some origin =>
      refine (h.bump _).queueReject origin _ ?_
      rw [hdeferred]
      exact le_rfl
  · exact hgiven

theorem Safe.endRefusedAnswer (h : Safe s caller) : Safe s.endRefusedAnswer caller := by
  have hquiet := quiet_endRefusedAnswer s
  have hlen : s.endRefusedAnswer.out.tasks.length ≤ s.out.tasks.length :=
    (queuesNone_endRefusedAnswer s).length_le
  have horigin : hasOrigin s.endRefusedAnswer = hasOrigin s := by
    unfold hasOrigin
    rw [hquiet.current]
  have hawaits : awaits s.endRefusedAnswer = awaits s := by
    unfold awaits
    rw [horigin, hquiet.current, hquiet.ports]
  have hroom := h.room
  refine ⟨hquiet.loaded h.loaded, ?_, ?_, ?_⟩
  · rw [hawaits, hquiet.current]
    exact h.single
  · rw [← h.faults]
    unfold Storage.endRefusedAnswer
    dsimp only
    split_ifs <;> rfl
  · rw [horigin, hawaits]
    omega

variable {router : Engine R H D B G}

theorem Safe.refused (h : Safe router.storage caller) (why : SendRefusal)
    (hunreported : caller.unreported = true) :
    Safe (router.refused why) { caller with unreported := false } := by
  have hplain : Safe (router.storage.refusedLater why none).endRefusedAnswer caller := by
    refine Safe.endRefusedAnswer ?_
    refine Safe.bump ?_ _
    split_ifs
    · exact h.bump _
    · exact h
  have hgiven : Safe (router.storage.refusedLater why none).endRefusedAnswer
      { caller with unreported := false } := hplain.mono Bool.noConfusion id
  unfold Engine.refused
  split_ifs
  · unfold refusedWhileClogged
    dsimp only
    split
    · rename_i origin horigin
      split_ifs
      · refine hplain.queueReject origin _ ?_
        rw [hunreported, show hasOrigin _ = true from by unfold hasOrigin; rw [horigin]; rfl]
        simp only [Bool.false_and, Bool.true_and, Bool.toNat_false, Bool.toNat_true]
        omega
      · exact hgiven
    · exact hgiven
  · exact hgiven

/-! ## Polling -/

theorem Safe.poll (h : Safe s caller) :
    match s.poll.2 with
    | .send _ => Safe s.poll.1 { caller with unreported := true }
    | .idle => Safe s.poll.1 { caller with deferred := false } := by
  obtain ⟨hpolled, hloaded, hok⟩ := poll_ok anyLaw h.loaded
  have hfaults : s.poll.1.faults = [] := by
    rw [← h.faults]
    unfold Storage.faults
    rw [hpolled.notes]
  generalize s.poll = polled at hpolled hloaded hok hfaults ⊢
  obtain ⟨t, action⟩ := polled
  dsimp only at hpolled hloaded hok hfaults ⊢
  cases action with
  | idle =>
    obtain ⟨htasks, hended⟩ := hok
    refine ⟨hloaded, ?_, hfaults, room_of_empty htasks _⟩
    rw [awaits_of_spent (hasMore_inactive hended _)]
    exact Bool.noConfusion
  | send send =>
    obtain ⟨_, hwent | hown⟩ := hok
    · -- The current output went: what it awaited is now a send to report.
      have horigin : hasOrigin t = hasOrigin s := by
        unfold hasOrigin
        rw [hwent.origin]
      have hbefore : awaits s = hasOrigin s := by
        unfold awaits
        rw [hwent.more, Bool.true_and]
      have hafter : awaits t = false := by
        by_contra hmore
        have hawaits := Bool.eq_true_of_not_eq_false hmore
        have hfan : s.out.current.fanOut = false := by
          refine h.single ?_
          rw [hbefore, ← horigin]
          exact (Bool.and_eq_true_iff.mp hawaits).2
        rw [awaits_of_spent (hasMore_inactive (hwent.ends hfan) _)] at hawaits
        cases hawaits
      refine ⟨hloaded, ?_, hfaults, ?_⟩
      · rw [hafter]
        exact Bool.noConfusion
      · have hroom := h.room
        have hle := Bool.toNat_le (caller.unreported && hasOrigin s)
        rw [hbefore] at hroom
        rw [hafter, hwent.tasks, horigin, Bool.toNat_false]
        simp only [Bool.true_and]
        omega
    · have horigin : hasOrigin t = false := by
        unfold hasOrigin
        rw [hown.origin]
        rfl
      have hawaits : awaits t = false := by
        unfold awaits
        rw [horigin, Bool.and_false]
      refine ⟨hloaded, ?_, hfaults, ?_⟩
      · rw [hawaits]
        exact Bool.noConfusion
      · have hroom := h.room
        have hle := hpolled.tasks
        rw [hawaits, horigin, Bool.and_false, Bool.toNat_false]
        dsimp only
        omega

/-! ## Runs -/

theorem egressBacklog_beside (s : Storage R H D B G) (port : PortId) (backlog : Backlog)
    (now : Instant) (policy : Congestion) :
    (s.egressBacklog port backlog now policy).out = s.out ∧
      (s.egressBacklog port backlog now policy).notes = s.notes := by
  unfold Storage.egressBacklog
  split
  · exact ⟨rfl, rfl⟩
  · dsimp only
    split <;> exact ⟨rfl, rfl⟩

theorem setPortMaxNpdu_beside (s : Storage R H D B G) (port : PortId) (limits : NpduLimits) :
    (Engine.setPortMaxNpdu s port limits).1.out = s.out ∧
      (Engine.setPortMaxNpdu s port limits).1.notes = s.notes := by
  unfold Engine.setPortMaxNpdu
  split
  · exact ⟨rfl, rfl⟩
  · split_ifs <;> exact ⟨rfl, rfl⟩

theorem Safe.beside (h : Safe s caller) (hq : Quiet s t) (hbeside : t.out = s.out ∧ t.notes = s.notes) :
    Safe t caller := by
  refine h.quiet hq (by rw [hbeside.1]) ?_
  unfold Storage.faults
  rw [hbeside.2]

/-- One call of a caller that keeps to its part. -/
theorem Safe.step [GroupClassifier G] {router : Engine R H D B G} (h : Safe router.storage caller)
    {call : Call} (hallows : caller.allows call = true) :
    Safe (router.step call).1.storage (caller.after call (router.step call).2) := by
  cases call with
  | start => exact h.announce _
  | announcePort port =>
    unfold Engine.step
    dsimp only
    split_ifs
    · exact h.announce _
    · exact h
  | receive frame now host =>
    exact Safe.receive (h.quiet (router.quiet_clocked now) rfl rfl) frame _ router.options host
  | originate request now =>
    exact Safe.originate (h.quiet (router.quiet_clocked now) rfl rfl) request _ router.options
  | poll =>
    have hpoll := h.poll
    unfold Engine.step
    dsimp only
    generalize router.storage.poll = polled at hpoll ⊢
    obtain ⟨t, action⟩ := polled
    cases action with
    | send send => exact hpoll
    | idle => exact hpoll
  | refused why => exact h.refused why hallows
  | refusedLater why origin =>
    exact h.refusedLater why origin (by simpa [Caller.allows] using hallows)
  | egressBacklog port backlog now =>
    have hclock := h.quiet (router.quiet_clocked now) rfl rfl
    unfold Engine.step
    dsimp only
    split
    · exact hclock.beside (quiet_egressBacklog _ _ _ _ _) (egressBacklog_beside _ _ _ _ _)
    · exact hclock
  | setPortMaxNpdu port limits =>
    exact h.beside (Engine.quiet_setPortMaxNpdu _ port limits) (setPortMaxNpdu_beside _ port limits)
  | onDeadline now =>
    have hclock := h.quiet (router.quiet_clocked now) rfl rfl
    unfold Engine.step
    dsimp only
    split_ifs
    · exact hclock
    · exact hclock.still (queued_sweep _ _ _)
  | cancelDiscovery => exact h.still (queued_setDiscovery _ _)
  | takeCounters => exact h.quiet ⟨rfl, rfl, rfl⟩ rfl rfl
  | table op => exact h.still ((queued_setTable _ _).trans (queued_noteTable _ _ _))

/-- A router and the caller of the calls so far, which kept to its part. -/
inductive Kept [GroupClassifier G] : Engine R H D B G → Caller → Prop
  | new {capacity : ℕ} {scratch : List UInt8} {ports : List (PortConfig G)} {options : Options}
      {now : Instant} {router : Engine R H D B G}
      (h : Engine.new R H D B capacity scratch ports options now = .ok router) :
      Kept router .start
  | step {router : Engine R H D B G} {caller : Caller} {call : Call} (h : Kept router caller)
      (hallows : caller.allows call = true) :
      Kept (router.step call).1 (caller.after call (router.step call).2)

theorem safe_new {capacity : ℕ} {scratch : List UInt8} {ports : List (PortConfig G)}
    {options : Options} {now : Instant}
    (h : Engine.new R H D B capacity scratch ports options now = .ok router) :
    Safe router.storage .start := by
  have hspent : router.storage.out.current.hasMore router.storage.ports.length = false := by
    rw [(Engine.new_outputs h).1]
    rfl
  refine ⟨.of_spent hspent, ?_, ?_, room_of_empty (by rw [(Engine.new_outputs h).1]; rfl) _⟩
  · rw [awaits_of_spent hspent]
    exact Bool.noConfusion
  · unfold Storage.faults
    rw [(Engine.new_outputs h).2]
    rfl

theorem Kept.safe [GroupClassifier G] (h : Kept router caller) : Safe router.storage caller := by
  induction h with
  | new h => exact safe_new h
  | step _ hallows ih => exact ih.step hallows

/-- A send names a port, is within its limit and holds an NPDU. -/
structure SendSafe (s : Storage R H D B G) (send : Send) : Prop where
  port : ∃ config, s.portOf send.port = some config ∧
    send.npdu.length ≤ config.maxNpdu.get (send.dest == .broadcast)
  decodes : ∃ npdu, Npdu.decode send.npdu = .ok npdu

theorem Safe.send (h : Safe s caller) {send : Send} (hsend : s.poll.2 = .send send) :
    SendSafe s send := by
  obtain ⟨hpolled, _, hok⟩ := poll_ok anyLaw h.loaded
  rw [hsend] at hok
  obtain ⟨⟨npdu, hof⟩, _⟩ := hok
  have hfits := hof.fits
  unfold Storage.portOf at hfits
  rw [hpolled.ports] at hfits
  obtain ⟨config, hconfig, hle⟩ := (Option.any_eq_true _ _).mp hfits
  refine ⟨⟨config, hconfig, of_decide_eq_true hle⟩, npdu.normalised, ?_⟩
  rw [hof.octets]
  exact Npdu.decode_wire hof.encodable

/-- Output safety, for a caller that reports each polled send refused at most once and polls to idle
before a second deferred refusal. -/
theorem output_safety [GroupClassifier G] (router : Engine R H D B G) (h : Kept router caller) :
    (∀ send, (router.step .poll).2 = .action (.send send) → SendSafe router.storage send) ∧
      router.storage.faults = [] ∧
      ∀ frame now host delivery,
        (router.step (.receive frame now host)).2 = .received (.delivered delivery) →
          delivery.reply.isSome = true := by
  refine ⟨?_, h.safe.faults, ?_⟩
  · intro send hsend
    refine h.safe.send ?_
    unfold Engine.step at hsend
    dsimp only at hsend
    cases hpoll : router.storage.poll.2 with
    | idle =>
      rw [hpoll] at hsend
      cases hsend
    | send other =>
      rw [hpoll] at hsend
      cases hsend
      rfl
  · intro frame now host delivery hdelivered
    have hanswer := answerable_receive (router.clocked now) frame (router.clocked now).latest
      router.options host
    unfold Engine.step at hdelivered
    dsimp only at hdelivered
    exact hanswer delivery (by simpa using hdelivered)

end Safe

def benchFrame : Frame := ⟨⟨0⟩, [7], false, [1, 0x20, 0, 2, 1, 5, 255, 0x10, 8]⟩

/-- The frame's APDU on network 2, from its sender on network 1. -/
def benchSend : Send where
  port := ⟨1⟩
  dest := .unicast [5]
  npdu := [1, 8, 0, 1, 1, 7, 0x10, 8]
  priority := .normal
  kind := .forward
  cause := .ingress
  rejectOrigin := some ⟨⟨0⟩, ⟨[7], by decide⟩, 2, 0, Mac.empty⟩

theorem output_safety_bench :
    let router := ((Engine.bench .standard (by decide)).step
      (.receive benchFrame 0 fun _ => true)).1
    (router.step .poll).2 = .action (.send benchSend) ∧ SendSafe router.storage benchSend := by
  have hpoll : ((Engine.bench .standard (by decide)).step
      (.receive benchFrame 0 fun _ => true)).1.storage.poll.2 = .send benchSend := by decide +kernel
  have hsend : (((Engine.bench .standard (by decide)).step
      (.receive benchFrame 0 fun _ => true)).1.step .poll).2 = .action (.send benchSend) :=
    congrArg Reply.action hpoll
  exact ⟨hsend, (output_safety _ (.step (.new (Engine.new_bench _ _)) rfl)).1 benchSend hsend⟩

def congested : Options := { Options.standard with congestion := some .default }

/-- Port 1 clogs, a frame for it is forwarded, and its one send is reported refused five times. -/
def refusals : List Call :=
  [.egressBacklog ⟨1⟩ ⟨1, 1⟩ 0, .egressBacklog ⟨1⟩ ⟨1, 1⟩ (fromSecs 2),
    .receive benchFrame (fromSecs 2) fun _ => true, .poll, .refused .full, .refused .full,
    .refused .full, .refused .full, .refused .full]

/-- The queue's assertion fails though no deferred refusal is reported at all. -/
theorem refusals_overflow :
    (∀ call ∈ refusals, ∀ why origin, call ≠ .refusedLater why origin) ∧
      ((Engine.bench congested (by decide)).run refusals).storage.faults = [.queueRoom] := by
  constructor
  · intro call hcall why origin h
    subst h
    simp [refusals] at hcall
  · decide +kernel

end RustyBacnet.Router
