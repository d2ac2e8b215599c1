import Mathlib.Logic.Relation
import RustyBacnet.Mstp.Input

/-!
# A station and its moves

What a master does, without its deadlines, counters, queues and decoder: which frame it has made,
handed over or started, which answer it owes, whether it holds the token, and what has happened.
A `Station` changes by `Move`s, each `Enabled` in some stations only. Two changes are of their own
kind: a call takes its time first (`observe`), and its moves keep it; and a start is confirmed
(`confirm`), so that a station that is not transmitting stays so through all moves.

`Station.Ordered` is the first of the laws that hold along every move: one frame at a time, and a
remembered Token only while answering.
-/

namespace RustyBacnet.Mstp

/-- What the laws of a master are about. -/
structure Station where
  config : MstpCoreConfig
  state : MasterState
  frameCount : ℕ
  soleMaster : Bool
  pendingToken : Bool
  request : Option PendingRequest
  send : Option PendingSend
  active : Option ActiveTransmit
  /-- The transmit whose frame has yet to be polled. -/
  queued : Option TransmitId
  /-- The frame buffer, as far as the last frame goes. -/
  octets : List UInt8
  /-- How many octets the frame buffer holds. -/
  room : ℕ
  lastActivity : Instant
  lastNow : Instant
  expiredRequests : ℕ
  history : List CoreEvent
  /-- A debug assertion failed, or an internal error was counted. -/
  faulty : Bool

/-! ## What a history says -/

def isInfo (frame : Frame) (origin : Origin) : Bool :=
  origin = .holder && carriesNpdu frame.header.frameType

/-- Since IDLE was last entered, a Token was taken up or generated. -/
def holdsToken : List CoreEvent → Bool
  | [] => false
  | .enteredIdle :: _ => false
  | .tokenTaken :: _ => true
  | .tokenGenerated :: _ => true
  | _ :: older => holdsToken older

/-- The event is the start of an information frame by a station that is not sole master. -/
def CoreEvent.spends : CoreEvent → Bool
  | .started frame origin soleMaster _ => isInfo frame origin && !soleMaster
  | _ => false

/-- Information frames started since a Token was last taken up, while not sole master. -/
def spent : List CoreEvent → ℕ
  | [] => 0
  | .tokenTaken :: _ => 0
  | event :: older => spent older + if event.spends then 1 else 0

/-- An answer owed: to whom, and whether it is for a data request. -/
structure Debt where
  asker : UInt8
  data : Bool
  deriving DecidableEq

/-- What is still owed after an event, or `none` when the event settles what was not owed, or owes
a second answer. -/
def settle (event : CoreEvent) (debt : Option Debt) : Option (Option Debt) :=
  match event, debt with
  | .owed asker data, none => some (some ⟨asker, data⟩)
  | .owed _ _, some _ => none
  | .abandoned, some debt => if debt.data then some none else none
  | .abandoned, none => none
  | .expired, some _ => some none
  | .expired, none => none
  | .started frame origin _ _, debt =>
    if origin.isAnswer then
      match debt with
      | some debt => if frame.header.destination = debt.asker then some none else none
      | none => none
    else some debt
  | _, debt => some debt

/-- What is owed after a history in which each answer was settled once. -/
def ledger : List CoreEvent → Option (Option Debt)
  | [] => some none
  | event :: older => (ledger older).bind (settle event)

/-- The event settles an answer owed: one was started, abandoned or given up. -/
def CoreEvent.settles : CoreEvent → Bool
  | .started _ origin _ _ => origin.isAnswer
  | .abandoned | .expired => true
  | _ => false

def CoreEvent.accounts : CoreEvent → Bool
  | .owed _ _ => true
  | event => event.settles

/-- The event settles this debt: an answer to the asker, its request abandoned, or given up. -/
def CoreEvent.pays (debt : Debt) : CoreEvent → Bool
  | .started frame origin _ _ => origin.isAnswer && frame.header.destination = debt.asker
  | .abandoned => debt.data
  | .expired => true
  | _ => false

/-- Answers given up since the counters were last taken. -/
def expiredSince : List CoreEvent → ℕ
  | [] => 0
  | .countersTaken :: _ => 0
  | .expired :: older => expiredSince older + 1
  | _ :: older => expiredSince older

/-! ## Moves -/

variable {state : MasterState}

namespace MasterState

/-- The station has the token, or has passed it on and watches. -/
def holds : MasterState → Bool
  | .useToken | .doneWithToken | .passToken | .waitForReply | .pollForMaster => true
  | .idle | .noToken | .answerDataRequest => false

/-- From here the station may go on to an information frame. -/
def spends : MasterState → Bool
  | .useToken | .doneWithToken | .waitForReply => true
  | .idle | .noToken | .passToken | .pollForMaster | .answerDataRequest => false

theorem holds_of_spends (h : state.spends = true) : state.holds = true := by
  cases state <;> first | rfl | exact absurd h (by decide)

end MasterState

def PostTransmit.spends : PostTransmit → Bool
  | .continueToken | .waitForReply => true
  | .idle | .passToken | .pollForMaster => false

inductive Move where
  | activity
  | enter (state : MasterState)
  | rememberToken
  | clearToken
  | takeToken
  | generateToken
  | countFrames (frames : ℕ)
  | setSole (sole : Bool)
  /-- Make a frame that answers nothing. -/
  | make (send : PendingSend)
  /-- Encode a frame that is then dropped at once. -/
  | scribble (octets : List UInt8)
  | handOver (id : TransmitId) (now : Instant)
  /-- The frame's actions have all been polled. -/
  | poll
  | withdraw
  /-- Give up the waiting frame; after an answer the station goes idle. -/
  | giveUp
  /-- A started transmission ends; after an answer the station goes idle. -/
  | finish
  | beginRequest (request : PendingRequest)
  /-- Answer the request. -/
  | answer (send : PendingSend)
  /-- Take a frame for answering, and make the answer. -/
  | oweAnswer (send : PendingSend)
  /-- Take a frame for answering too late. -/
  | oweExpired (asker : UInt8)
  | abandon
  | expireRequest
  | takeCounters

namespace Station

variable (s : Station)

def record (event : CoreEvent) : Station := { s with history := event :: s.history }

def expire : Station :=
  { s with expiredRequests := increment s.expiredRequests, history := .expired :: s.history }

/-- The frame waits, and its encoding is in the frame buffer. -/
def hold (send : PendingSend) : Station :=
  { s with send := some send, octets := send.frame.encoding }

/-- The waiting frame's start moves to T_turnaround after activity at `now`. -/
def refresh (now : Instant) (send : PendingSend) : PendingSend :=
  { send with earliest := satAdd now s.config.tTurnaround }

def enter (state : MasterState) : Station :=
  if s.state = state then s
  else if state = .idle then { s.record .enteredIdle with state := state }
  else { s with state := state }

/-- Forget the waiting frame, counting an answer as given up. -/
def forget : Station :=
  if s.send.any (·.origin.isAnswer) then { s with send := none }.expire else { s with send := none }

/-- The transmission is over, and its end is activity on the line. -/
def ended : Station :=
  { s with active := none, lastActivity := s.lastNow }

def next : Move → Station
  | .activity =>
    { s with lastActivity := s.lastNow, send := s.send.map (s.refresh s.lastNow) }
  | .enter state => s.enter state
  | .rememberToken => { s with pendingToken := true }
  | .clearToken => { s with pendingToken := false }
  | .takeToken => { s.record .tokenTaken with soleMaster := false, frameCount := 0 }
  | .generateToken => s.record .tokenGenerated
  | .countFrames frames => { s with frameCount := frames }
  | .setSole sole => { s with soleMaster := sole }
  | .make send => s.hold send
  | .scribble octets => { s with octets := octets }
  | .handOver id now =>
    { s with
      active := s.send.map fun send => ⟨id, now, false, send.post⟩
      queued := some id }
  | .poll => { s with queued := none }
  | .withdraw => { s with active := none, queued := none }
  | .giveUp => if s.send.any (·.origin.isAnswer) then s.forget.enter .idle else s.forget
  | .finish => if s.active.any (·.post = .idle) then s.ended.enter .idle else s.ended
  | .beginRequest request =>
    { s.record (.owed request.source true) with
      request := some request, state := .answerDataRequest }
  | .answer send => { s.hold send with request := none }
  | .oweAnswer send => (s.record (.owed send.frame.header.destination false)).hold send
  | .oweExpired asker => (s.record (.owed asker false)).expire
  | .abandon => { s.record .abandoned with request := none }.enter .idle
  | .expireRequest => { s with request := none }.expire.enter .idle
  | .takeCounters => { s.record .countersTaken with expiredRequests := 0 }

/-- No frame waits or is on the wire, and no request is pending. -/
def Free : Prop := s.send = none ∧ s.active = none ∧ s.request = none

/-- The station answers a frame, and goes back to IDLE when it has. -/
def answering : Bool :=
  s.request.isSome || s.send.any (·.origin.isAnswer) ||
    s.active.any fun tx => tx.started && tx.post = .idle

def sendSpends : Bool := s.send.any (·.post.spends)

def spending : Bool := s.state.spends || s.sendSpends || s.active.any (·.post.spends)

/-- Unless the station is sole master, `frames` covers what it has started and made. -/
def Within (frames : ℕ) : Prop :=
  s.soleMaster = true ∨ spent s.history + (if s.sendSpends then 1 else 0) ≤ frames

/-- The station holds the token, or no frame it makes can start any more. -/
def HasToken : Prop := holdsToken s.history = true ∨ maxInstant ≤ s.lastNow

/-- The frame was made now, and did not find its limit passed. -/
structure Fresh (send : PendingSend) : Prop where
  earliest : send.earliest = satAdd s.lastActivity s.config.tTurnaround
  limit : s.lastNow < send.limit

def Enabled : Move → Prop
  | .activity => True
  | .enter state =>
    s.request = none ∧ state ≠ .answerDataRequest ∧
      (state = .idle → s.send = none ∧ s.active = none) ∧
      (state.holds = true → s.HasToken) ∧
      (state.spends = true → s.send = none ∧ s.Within s.frameCount)
  | .rememberToken => s.answering = true
  | .clearToken => True
  | .takeToken => s.send = none ∧ s.active = none
  | .generateToken => True
  | .countFrames frames => s.spending = true → s.Within frames
  | .setSole sole => sole = true ∨ s.spending = false
  | .make send =>
    s.Free ∧ s.Fresh send ∧ send.origin.isAnswer = false ∧ send.post ≠ .idle ∧
      holdsToken s.history = true ∧ (isInfo send.frame send.origin = send.post.spends) ∧
      (send.post.spends = true → s.soleMaster = true ∨
        (spent s.history + 1 ≤ s.frameCount ∧ spent s.history + 1 ≤ s.config.frameLimit)) ∧
      (send.origin = .nextPoll → s.state.spends = false)
  | .scribble _ => s.send = none
  | .handOver _ _ => s.send.isSome ∧ s.active = none
  | .poll => True
  | .withdraw => ∃ tx, s.active = some tx ∧ tx.started = false
  | .giveUp =>
    s.send.isSome ∧ s.active = none ∧ (s.send.any (·.origin.isAnswer) = true → s.pendingToken = false)
  | .finish =>
    ∃ tx, s.active = some tx ∧ tx.started = true ∧ (tx.post = .idle → s.pendingToken = false)
  | .beginRequest _ => s.Free
  | .answer send =>
    ∃ request, s.request = some request ∧ s.Fresh send ∧
      send.frame.header.destination = request.source ∧
      send.origin = .answer request.window ∧ send.post = .idle
  | .oweAnswer send =>
    s.Free ∧ s.Fresh send ∧ send.origin.isAnswer = true ∧ send.post = .idle
  | .oweExpired _ => s.Free
  | .abandon => s.request.isSome ∧ s.pendingToken = false
  | .expireRequest => s.request.isSome ∧ s.pendingToken = false
  | .takeCounters => True

/-- One move of an enabled kind. -/
def Step (s t : Station) : Prop := ∃ move, s.Enabled move ∧ t = s.next move

/-- Moves one after another. -/
def Moves : Station → Station → Prop := Relation.ReflTransGen Step

def observe (now : Instant) : Station := { s with lastNow := max s.lastNow now }

def confirm (tx : ActiveTransmit) (send : PendingSend) : Station :=
  { s.record (.started send.frame send.origin s.soleMaster s.lastNow) with
    send := none
    active := some { tx with started := true, assertedAt := s.lastNow } }

/-- When a start may be confirmed. -/
structure MayConfirm (tx : ActiveTransmit) (send : PendingSend) : Prop where
  waits : s.send = some send
  active : s.active = some tx
  unstarted : tx.started = false
  polled : s.queued = none
  turnaround : send.earliest ≤ s.lastNow
  inTime : ∀ window, send.origin = .answer window → s.lastNow < window.giveUp

/-! ## What going idle and forgetting a frame leave -/

theorem enter_eq (state : MasterState) :
    s.enter state = { s with state := state, history := (s.enter state).history } := by
  unfold enter
  split_ifs with h
  · rw [← h]
  · rfl
  · rfl

@[simp] theorem enter_config (state : MasterState) : (s.enter state).config = s.config := by
  rw [enter_eq]

@[simp] theorem enter_request (state : MasterState) : (s.enter state).request = s.request := by
  rw [enter_eq]

@[simp] theorem enter_send (state : MasterState) : (s.enter state).send = s.send := by
  rw [enter_eq]

@[simp] theorem enter_active (state : MasterState) : (s.enter state).active = s.active := by
  rw [enter_eq]

@[simp] theorem enter_room (state : MasterState) : (s.enter state).room = s.room := by
  rw [enter_eq]

@[simp] theorem enter_lastActivity (state : MasterState) :
    (s.enter state).lastActivity = s.lastActivity := by
  rw [enter_eq]

@[simp] theorem enter_lastNow (state : MasterState) : (s.enter state).lastNow = s.lastNow := by
  rw [enter_eq]

@[simp] theorem enter_soleMaster (state : MasterState) :
    (s.enter state).soleMaster = s.soleMaster := by
  rw [enter_eq]

@[simp] theorem enter_faulty (state : MasterState) : (s.enter state).faulty = s.faulty := by
  rw [enter_eq]

@[simp] theorem enter_state (state : MasterState) : (s.enter state).state = state := by
  rw [enter_eq]

theorem enter_of_ne (hne : s.state ≠ state) (hidle : state ≠ .idle) :
    s.enter state = { s with state := state } := by
  rw [enter, if_neg hne, if_neg hidle]

theorem enter_history (h : state ≠ .idle) : (s.enter state).history = s.history := by
  unfold enter
  rw [if_neg h]
  split_ifs <;> rfl

theorem forget_of_not (h : s.send.any (·.origin.isAnswer) = false) :
    s.forget = { s with send := none } := by
  rw [forget, h, if_neg (by simp)]

theorem forget_eq : s.forget = { s with
    send := none
    expiredRequests := s.forget.expiredRequests
    history := s.forget.history } := by
  unfold forget
  split_ifs <;> rfl

@[simp] theorem forget_config : s.forget.config = s.config := by
  rw [forget_eq]

@[simp] theorem forget_request : s.forget.request = s.request := by
  rw [forget_eq]

@[simp] theorem forget_active : s.forget.active = s.active := by
  rw [forget_eq]

@[simp] theorem forget_room : s.forget.room = s.room := by
  rw [forget_eq]

@[simp] theorem forget_lastNow : s.forget.lastNow = s.lastNow := by
  rw [forget_eq]

@[simp] theorem forget_lastActivity : s.forget.lastActivity = s.lastActivity := by
  rw [forget_eq]

@[simp] theorem forget_faulty : s.forget.faulty = s.faulty := by
  rw [forget_eq]

@[simp] theorem forget_send : s.forget.send = none := by
  rw [forget_eq]

/-! ## One frame at a time -/

/-- At most one frame of this station's exists, and a remembered Token only while it answers. -/
structure Ordered : Prop where
  queued : ∀ id, s.queued = some id → ∃ tx, s.active = some tx ∧ tx.started = false ∧ tx.id = id
  unstarted : ∀ tx, s.active = some tx → tx.started = false →
    ∃ send, s.send = some send ∧ send.post = tx.post
  started : ∀ tx, s.active = some tx → tx.started = true → s.send = none
  request : s.request.isSome = true →
    s.state = .answerDataRequest ∧ s.send = none ∧ s.active = none
  token : s.pendingToken = true → s.answering = true
  answers : s.state = .answerDataRequest → s.answering = true
  post : ∀ send, s.send = some send → (send.post = .idle ↔ send.origin.isAnswer = true)

variable {s} {move : Move} {tx : ActiveTransmit} {send : PendingSend}

theorem Ordered.queued_none (h : s.Ordered) (hactive : s.active = none) : s.queued = none := by
  cases hq : s.queued with
  | none => rfl
  | some id =>
    obtain ⟨tx, htx, -⟩ := h.queued id hq
    rw [hactive] at htx
    exact absurd htx (by simp)

theorem Ordered.active_none (h : s.Ordered) (hquiet : s.active.all (!·.started) = true)
    (hsend : s.send = none) : s.active = none := by
  cases ha : s.active with
  | none => rfl
  | some tx =>
    rw [ha] at hquiet
    obtain ⟨send, hs, -⟩ := h.unstarted tx ha (by simpa using hquiet)
    rw [hsend] at hs
    exact absurd hs (by simp)

theorem Ordered.token_of_free (h : s.Ordered) (hfree : s.Free) : s.pendingToken = false := by
  obtain ⟨hsend, hactive, hrequest⟩ := hfree
  cases hp : s.pendingToken with
  | false => rfl
  | true =>
    have := h.token hp
    simp [answering, hsend, hactive, hrequest] at this

variable {t : Station}

theorem Ordered.of_waiting (hqueued : t.queued = none) (hactive : t.active = none)
    (hrequest : t.request = none) (hsend : t.send = some send)
    (hpost : send.post = .idle ↔ send.origin.isAnswer = true)
    (htoken : t.pendingToken = true → send.origin.isAnswer = true)
    (hstate : t.state = .answerDataRequest → send.origin.isAnswer = true) : t.Ordered where
  queued id hid := absurd (hqueued.symm.trans hid) (by simp)
  unstarted tx htx := absurd (hactive.symm.trans htx) (by simp)
  started tx htx := absurd (hactive.symm.trans htx) (by simp)
  request hr := by
    rw [hrequest] at hr
    exact absurd hr (by simp)
  token hp := by simp [answering, hsend, htoken hp]
  answers hs := by simp [answering, hsend, hstate hs]
  post send' hs := by
    obtain rfl : send = send' := Option.some.inj (hsend.symm.trans hs)
    exact hpost

/-- A station with no frame and no request is in order when it remembers no Token. -/
theorem Ordered.of_free (hqueued : t.queued = none) (hfree : t.Free)
    (htoken : t.pendingToken = false) (hstate : t.state ≠ .answerDataRequest) : t.Ordered where
  queued id hid := absurd (hqueued.symm.trans hid) (by simp)
  unstarted tx htx := absurd (hfree.2.1.symm.trans htx) (by simp)
  started tx htx := absurd (hfree.2.1.symm.trans htx) (by simp)
  request hr := by
    rw [hfree.2.2] at hr
    exact absurd hr (by simp)
  token hp := absurd (htoken.symm.trans hp) (by simp)
  answers hs := absurd hs hstate
  post send hs := absurd (hfree.1.symm.trans hs) (by simp)

theorem Ordered.state_of_free (h : s.Ordered) (hfree : s.Free) : s.state ≠ .answerDataRequest := by
  obtain ⟨hsend, hactive, hrequest⟩ := hfree
  intro hstate
  have := h.answers hstate
  simp [answering, hsend, hactive, hrequest] at this

theorem Ordered.request_none (h : s.Ordered) (hbusy : s.send.isSome = true ∨ s.active.isSome = true) :
    s.request = none := by
  cases hr : s.request with
  | none => rfl
  | some request =>
    obtain ⟨-, hsend, hactive⟩ := h.request (by rw [hr]; rfl)
    rw [hsend, hactive] at hbusy
    simp at hbusy

theorem Ordered.of_idle (hqueued : t.queued = none) (hfree : t.Free)
    (htoken : t.pendingToken = false) : (t.enter .idle).Ordered := by
  have hstate : (t.enter .idle).state ≠ .answerDataRequest := by simp
  unfold Station.enter at hstate ⊢
  rw [if_pos rfl] at hstate ⊢
  split_ifs at hstate ⊢
  · exact of_free hqueued hfree htoken hstate
  · exact of_free hqueued hfree htoken hstate

theorem Ordered.next (h : s.Ordered) (hmove : s.Enabled move) : (s.next move).Ordered := by
  cases move with
  | takeToken | generateToken | countFrames | setSole | scribble | takeCounters =>
    exact ⟨h.queued, h.unstarted, h.started, h.request, h.token, h.answers, h.post⟩
  | clearToken =>
    exact ⟨h.queued, h.unstarted, h.started, h.request, fun hp => absurd hp (by simp [Station.next]),
      h.answers, h.post⟩
  | rememberToken =>
    exact ⟨h.queued, h.unstarted, h.started, h.request, fun _ => hmove, h.answers, h.post⟩
  | activity =>
    have hsend : (s.next .activity).send = s.send.map (s.refresh s.lastNow) := rfl
    have hanswering : (s.next .activity).answering = s.answering := by
      rw [answering, hsend, Option.any_map]
      rfl
    refine ⟨h.queued, fun tx htx hst => ?_, fun tx htx hst => ?_, fun hr => ?_, fun hp => ?_,
      fun hs => ?_, fun send hs => ?_⟩
    · obtain ⟨send, hs, hpost⟩ := h.unstarted tx htx hst
      exact ⟨s.refresh s.lastNow send, by rw [hsend, hs]; rfl, hpost⟩
    · rw [hsend, h.started tx htx hst]
      rfl
    · obtain ⟨hstate, hs, ha⟩ := h.request hr
      exact ⟨hstate, by rw [hsend, hs]; rfl, ha⟩
    · rw [hanswering]
      exact h.token hp
    · rw [hanswering]
      exact h.answers hs
    · obtain ⟨send', hs', rfl⟩ := Option.map_eq_some_iff.mp hs
      exact h.post send' hs'
  | enter state =>
    obtain ⟨hnone, hanswer, -⟩ := hmove
    have hrequest : ∀ t : Station, t.request = s.request → t.request.isSome = true →
        t.state = .answerDataRequest ∧ t.send = none ∧ t.active = none := by
      intro t ht hr
      rw [ht, hnone] at hr
      exact absurd hr (by simp)
    show (s.enter state).Ordered
    unfold Station.enter
    split_ifs
    · exact h
    · exact ⟨h.queued, h.unstarted, h.started, hrequest _ rfl, h.token,
        fun hs => absurd hs hanswer, h.post⟩
    · exact ⟨h.queued, h.unstarted, h.started, hrequest _ rfl, h.token,
        fun hs => absurd hs hanswer, h.post⟩
  | make send =>
    obtain ⟨hfree, -, hanswer, hpost, -⟩ := hmove
    exact of_waiting (h.queued_none hfree.2.1) hfree.2.1 hfree.2.2 rfl (by simp [hpost, hanswer])
      (fun hp => absurd ((h.token_of_free hfree).symm.trans hp) (by simp))
      fun hs => absurd hs (h.state_of_free hfree)
  | handOver id now =>
    obtain ⟨hsend, hactive⟩ := hmove
    obtain ⟨send, hs⟩ := Option.isSome_iff_exists.mp hsend
    have hact : (s.next (.handOver id now)).active = some ⟨id, now, false, send.post⟩ := by
      simp [Station.next, hs]
    have hanswering : (s.next (.handOver id now)).answering = s.answering := by
      rw [answering, answering, hact, hactive]
      rfl
    refine ⟨fun id' hid => ⟨_, hact, rfl, Option.some.inj hid⟩, fun tx htx _ => ?_,
      fun tx htx hst => ?_, fun hr => ?_, fun hp => ?_, fun hs => ?_, h.post⟩
    · obtain rfl := Option.some.inj (hact.symm.trans htx)
      exact ⟨send, hs, rfl⟩
    · obtain rfl := Option.some.inj (hact.symm.trans htx)
      exact absurd hst (by simp)
    · have := (h.request hr).2.1
      rw [hs] at this
      exact absurd this (by simp)
    · rw [hanswering]
      exact h.token hp
    · rw [hanswering]
      exact h.answers hs
  | poll =>
    exact ⟨fun id hid => absurd hid (by simp [Station.next]), h.unstarted, h.started, h.request,
      h.token, h.answers, h.post⟩
  | withdraw =>
    obtain ⟨tx, hactive, hunstarted⟩ := hmove
    have hanswering : (s.next .withdraw).answering = s.answering := by
      rw [answering, answering, hactive]
      simp [Station.next, hunstarted]
    refine ⟨fun id hid => absurd hid (by simp [Station.next]),
      fun tx htx => absurd htx (by simp [Station.next]),
      fun tx htx => absurd htx (by simp [Station.next]), fun hr => ?_, fun hp => ?_, fun hs => ?_,
      h.post⟩
    · have := (h.request hr).2.2
      rw [hactive] at this
      exact absurd this (by simp)
    · rw [hanswering]
      exact h.token hp
    · rw [hanswering]
      exact h.answers hs
  | giveUp =>
    obtain ⟨hsend, hactive, htoken⟩ := hmove
    have hrequest := h.request_none (.inl hsend)
    have hanswering : s.answering = true → s.send.any (·.origin.isAnswer) = true := by
      simp [answering, hrequest, hactive]
    have hqueued := h.queued_none hactive
    show (if s.send.any (·.origin.isAnswer) then s.forget.enter .idle else s.forget).Ordered
    unfold Station.forget
    split_ifs with hanswer
    · exact of_idle hqueued ⟨rfl, hactive, hrequest⟩ (htoken hanswer)
    · exact of_free hqueued ⟨rfl, hactive, hrequest⟩
        (Bool.eq_false_iff.mpr fun hp => hanswer (hanswering (h.token hp)))
        fun hs => hanswer (hanswering (h.answers hs))
  | finish =>
    obtain ⟨tx, hactive, hstarted, htoken⟩ := hmove
    have hsend := h.started tx hactive hstarted
    have hrequest := h.request_none (.inr (by rw [hactive]; rfl))
    have hqueued : s.queued = none := by
      cases hq : s.queued with
      | none => rfl
      | some id =>
        obtain ⟨tx', htx', hun, -⟩ := h.queued id hq
        obtain rfl := Option.some.inj (hactive.symm.trans htx')
        exact absurd (hun.symm.trans hstarted) (by simp)
    have hanswering : s.answering = true ↔ tx.post = .idle := by
      simp [answering, hrequest, hsend, hactive, hstarted]
    show (if s.active.any (·.post = .idle) then s.ended.enter .idle else s.ended).Ordered
    rw [hactive, Option.any_some]
    split_ifs with hidle
    · exact of_idle hqueued ⟨hsend, rfl, hrequest⟩ (htoken (by simpa using hidle))
    · have hpost : tx.post ≠ .idle := by simpa using hidle
      exact of_free hqueued ⟨hsend, rfl, hrequest⟩
        (Bool.eq_false_iff.mpr fun hp => hpost (hanswering.mp (h.token hp)))
        fun hs => hpost (hanswering.mp (h.answers hs))
  | beginRequest request =>
    exact ⟨fun id hid => absurd ((h.queued_none hmove.2.1).symm.trans hid) (by simp),
      fun tx htx => absurd (hmove.2.1.symm.trans htx) (by simp),
      fun tx htx => absurd (hmove.2.1.symm.trans htx) (by simp),
      fun _ => ⟨rfl, hmove.1, hmove.2.1⟩, fun _ => rfl, fun _ => rfl, h.post⟩
  | answer send =>
    obtain ⟨request, hr, -, -, horigin, hpost⟩ := hmove
    obtain ⟨-, -, hactive⟩ := h.request (by rw [hr]; rfl)
    have hanswer : send.origin.isAnswer = true := by
      rw [horigin]
      rfl
    exact of_waiting (h.queued_none hactive) hactive rfl rfl (by simp [hpost, hanswer])
      (fun _ => hanswer) fun _ => hanswer
  | oweAnswer send =>
    obtain ⟨hfree, -, hanswer, hpost⟩ := hmove
    exact of_waiting (h.queued_none hfree.2.1) hfree.2.1 hfree.2.2 rfl (by simp [hpost, hanswer])
      (fun _ => hanswer) fun _ => hanswer
  | oweExpired asker =>
    exact of_free (h.queued_none hmove.2.1) hmove (h.token_of_free hmove) (h.state_of_free hmove)
  | abandon | expireRequest =>
    obtain ⟨hr, htoken⟩ := hmove
    obtain ⟨-, hsend, hactive⟩ := h.request hr
    exact of_idle (h.queued_none hactive) ⟨hsend, hactive, rfl⟩ htoken

theorem Ordered.observe (h : s.Ordered) (now : Instant) : (s.observe now).Ordered :=
  ⟨h.queued, h.unstarted, h.started, h.request, h.token, h.answers, h.post⟩

theorem Ordered.confirm (h : s.Ordered) (hmay : s.MayConfirm tx send) :
    (s.confirm tx send).Ordered := by
  have hanswer := h.post send hmay.waits
  obtain ⟨send', hs', hpost⟩ := h.unstarted tx hmay.active hmay.unstarted
  obtain rfl := Option.some.inj (hmay.waits.symm.trans hs')
  have hanswering : s.answering = true → (s.confirm tx send).answering = true := by
    intro ha
    simp only [answering, hmay.waits, hmay.active, hmay.unstarted, Option.any_some, Bool.false_and,
      Bool.or_false, Bool.or_eq_true] at ha
    rw [answering]
    rcases ha with hr | ha
    · rw [show (s.confirm tx send).request.isSome = true from hr]
      rfl
    · simp [Station.confirm, ← hpost, hanswer.mpr ha]
  refine ⟨fun id hid => absurd (hmay.polled.symm.trans hid) (by simp), fun tx' htx' hun => ?_,
    fun _ _ _ => rfl, fun hr => ?_, fun hp => hanswering (h.token hp),
    fun hs => hanswering (h.answers hs), fun _ hs => absurd hs (by simp [Station.confirm])⟩
  · obtain rfl := Option.some.inj htx'
    exact absurd hun (by simp)
  · have := (h.request hr).2.1
    rw [hmay.waits] at this
    exact absurd this (by simp)

end Station

end RustyBacnet.Mstp
