import RustyBacnet.Mstp.TokenRefine

/-!
# A core is a station: received frames

1. `noteBusActivity_leads`: activity refreshes the waiting frame's turnaround, then may drop it.
2. `frameWhilePending_leads`: a frame that finds one waiting is dealt with, or leaves none waiting.
3. `receiveFrame_leads`: a frame taken for answering is owed an answer until that is made, and one
   made too late is given up at once (`Station.owed_moves`).
4. `processFrame_leads`, `decodeOctet_leads`: so a valid frame leads on in every state.
-/

namespace RustyBacnet.Mstp

namespace Station

variable {s : Station} {send : PendingSend}

/-- An answer may be made for a frame just received; when it is too late already, it is given up. -/
theorem owed_moves (hfree : s.Free)
    (hearliest : send.earliest = satAdd s.lastActivity s.config.tTurnaround)
    (hanswer : send.origin.isAnswer = true) (hpost : send.post = .idle) (id : TransmitId) :
    s.Moves ((s.record (.owed send.frame.header.destination false)).made send id s.lastNow) := by
  unfold made
  split_ifs with hdropped hearly
  · set asker := send.frame.header.destination
    have hgone : ((s.record (.owed asker false)).hold send).forget
        = (s.next (.scribble send.frame.encoding)).next (.oweExpired asker) := by
      unfold forget hold
      rw [Option.any_some, hanswer, if_pos rfl, ← hfree.1]
      rfl
    rw [hgone]
    have hscribble := moves_next (.scribble send.frame.encoding) hfree.1
    have howe := @moves_next (s.next (.scribble send.frame.encoding)) (.oweExpired asker) hfree
    refine (hscribble.trans howe).trans (moves_enter_idle ?_)
    exact hfree
  all_goals
    have howe : s.Enabled (.oweAnswer send) :=
      ⟨hfree, ⟨hearliest, Nat.not_le.mp hdropped⟩, hanswer, hpost⟩
  · exact moves_next (.oweAnswer send) howe
  · exact (moves_next (.oweAnswer send) howe).trans
      (moves_next (.handOver id s.lastNow) ⟨rfl, hfree.2.1⟩)

theorem answered_moves {request : PendingRequest} (hrequest : s.request = some request)
    (hactive : s.active = none)
    (hearliest : send.earliest = satAdd s.lastActivity s.config.tTurnaround)
    (htime : s.lastNow < send.limit) (hasker : send.frame.header.destination = request.source)
    (horigin : send.origin = .answer request.window) (hpost : send.post = .idle)
    (id : TransmitId) : s.Moves { s.made send id s.lastNow with request := none } := by
  have hanswer : s.Enabled (.answer send) :=
    ⟨request, hrequest, ⟨hearliest, htime⟩, hasker, horigin, hpost⟩
  unfold made
  rw [if_neg (Nat.not_le.mpr htime)]
  split_ifs
  · exact moves_next (.answer send) hanswer
  · exact (moves_next (.answer send) hanswer).trans
      (moves_next (.handOver id s.lastNow) ⟨rfl, hactive⟩)

end Station

namespace MasterCore

variable {Q : Type} {npdu : ℕ} {core core' : MasterCore Q npdu} {now : Instant}

/-! ## What the laws do not see -/

theorem station_deliver (core : MasterCore Q npdu) (frame : Frame) (requestId : Option RequestId) :
    (core.deliver frame requestId).2.station = core.station := by
  unfold deliver ActionQueue.enqueueDelivery
  split_ifs <;> rfl

theorem station_abortPartialIfLate (core : MasterCore Q npdu) (now : Instant) :
    (core.abortPartialIfLate now).2.station = core.station := by
  unfold abortPartialIfLate
  dsimp only
  split_ifs <;> rfl

theorem station_idleFrom (core : MasterCore Q npdu) (now : Instant) :
    (core.idleFrom now).station = core.station.enter .idle := by
  rw [idleFrom, station_wakeAt, station_setState]

theorem AtWork.idleFrom (h : core.AtWork now) (time : Instant) :
    core.Leads (core.idleFrom time) ∧ (core.idleFrom time).AtWork now := by
  have hleads : core.Leads (core.idleFrom time) := by
    unfold Leads
    rw [station_idleFrom]
    exact Station.moves_enter_idle h.free
  refine ⟨hleads, h.sound.leads hleads, ?_, ?_⟩
  · rw [station_idleFrom]
    simpa [Station.Free] using h.free
  · rw [station_idleFrom, Station.enter_lastNow]
    exact h.now

/-- The core listens at `now`. -/
structure Listens (core : MasterCore Q npdu) (now : Instant) : Prop where
  sound : core.Sound
  now : core.lastNow = now
  listening : core.station.listening = true

theorem Listens.leads (h : core.Listens now) (hleads : core.Leads core') : core'.Listens now :=
  ⟨h.sound.leads hleads, hleads.lastNow.trans h.now, Station.Moves.listening hleads h.listening⟩

theorem Listens.atWork (h : core.Listens now) (hsend : core.pendingSend = none)
    (hrequest : core.pendingRequest = none) : core.AtWork now :=
  ⟨h.sound, ⟨hsend, h.sound.station.ordered.active_none h.listening hsend, hrequest⟩, h.now⟩

theorem Sound.request_none (h : core.Sound) (hstate : core.state ≠ .answerDataRequest) :
    core.pendingRequest = none := by
  cases hr : core.pendingRequest with
  | none => rfl
  | some request =>
    have hsome : core.station.request.isSome = true := by
      show core.pendingRequest.isSome = true
      rw [hr]
      rfl
    exact absurd (h.station.ordered.request hsome).1 hstate

/-! ## Line activity -/

/-- The core with its waiting frame's turnaround started again. -/
def refresh (core : MasterCore Q npdu) (now : Instant) : MasterCore Q npdu :=
  { core with pendingSend := core.pendingSend.map (core.station.refresh now) }

theorem forgetPending_refresh (core : MasterCore Q npdu) (now : Instant) :
    (core.refresh now).forgetPending = core.forgetPending := by
  unfold forgetPending refresh
  cases hsend : core.pendingSend with
  | none => cases core; simp_all
  | some pending => rfl

theorem discardPending_refresh (hlisten : core.station.listening = true) (now : Instant) :
    (core.refresh now).discardPending = core.discardPending := by
  cases hactive : core.activeTransmit with
  | none =>
    rw [discardPending_none hactive, discardPending_none (show (core.refresh now).activeTransmit = none
      from hactive), forgetPending_refresh]
  | some tx =>
    have hunstarted : tx.started = false := by
      have hquiet : core.activeTransmit.all (!·.started) = true := hlisten
      simpa [hactive] using hquiet
    rw [discardPending_some hactive hunstarted, discardPending_some
      (show (core.refresh now).activeTransmit = some tx from hactive) hunstarted]
    exact forgetPending_refresh (core.withdrawTransmit tx.id) now

/-- Activity while a frame waits: its turnaround starts again, and then it may be dropped. -/
theorem pendingActivity_leads [QueueStorage Q] (h : core.Sound) {noted : MasterCore Q npdu}
    {pending : PendingSend} (hsend : noted.pendingSend = some pending) (hnow : noted.lastNow = now)
    (hlast : noted.lastActivity = now) (hlisten : noted.station.listening = true)
    (hnoted : (noted.refresh now).station = core.station.next .activity) :
    core.Leads (noted.pendingActivity now) := by
  have hleads : core.Leads (noted.refresh now) := .of_move .activity trivial hnoted
  have hwaits : noted.refresh now = { noted with pendingSend := some { pending with
      earliest := satAdd noted.lastActivity noted.config.tTurnaround } } := by
    unfold refresh
    rw [hsend, hlast]
    rfl
  unfold pendingActivity
  rw [hsend]
  dsimp only
  split_ifs
  · have hsame : (noted.refresh now).dropPending now = noted.dropPending now := by
      unfold dropPending dropPendingWith
      rw [discardPending_refresh hlisten]
    rw [← hsame]
    refine hleads.trans (dropPending_leads (h.leads hleads) ?_ hnow)
    rw [hwaits]
    rfl
  · rw [← hwaits]
    exact hleads
  · rw [← hwaits]
    exact hleads

theorem station_noted (hnow : core.lastNow = now) (events : ℕ) :
    ((core.noted now events).refresh now).station = core.station.next .activity := by
  subst hnow
  rfl

theorem freeActivity_leads (h : core.AtWork now) : core.Leads (core.freeActivity now) := by
  have hidle := (h.idleFrom now).1
  unfold freeActivity
  split
  · exact hidle
  · exact .of_eq rfl
  · split_ifs
    · exact hidle
    · exact .of_eq rfl
  all_goals exact .of_eq rfl

theorem noteBusActivity_leads [QueueStorage Q] (h : core.Listens now) (events : ℕ) :
    core.Leads (core.noteBusActivity now events) := by
  unfold noteBusActivity
  dsimp only
  have hrefresh := station_noted h.now events
  have hlast : (core.noted now events).lastActivity = now := rfl
  have hnow : (core.noted now events).lastNow = now := h.now
  have hlisten : (core.noted now events).station.listening = true := h.listening
  generalize core.noted now events = noted at hrefresh hlast hnow hlisten ⊢
  cases hsend : noted.pendingSend with
  | some pending =>
    rw [Option.isSome_some, if_pos rfl]
    exact pendingActivity_leads h.sound hsend hnow hlast hlisten hrefresh
  | none =>
    rw [Option.isSome_none, if_neg (by simp)]
    have hsame : noted.refresh now = noted := by
      unfold refresh
      rw [hsend, Option.map_none, ← hsend]
    rw [hsame] at hrefresh
    have hleads : core.Leads noted := .of_move .activity trivial hrefresh
    have hlistens := h.leads hleads
    -- A pending request waits in ANSWER_DATA_REQUEST, where activity does nothing.
    by_cases hstate : noted.state = .answerDataRequest
    · have hkept : noted.freeActivity now = noted := by
        unfold freeActivity
        rw [hstate]
      rw [hkept]
      exact hleads
    · have hwork := hlistens.atWork hsend (hlistens.sound.request_none hstate)
      exact hleads.trans (freeActivity_leads hwork)

/-! ## Requests -/

theorem observeTime_eq (hnow : core.lastNow = now) : core.observeTime now = core := by
  rw [observeTime, hnow, max_self, ← hnow]

theorem Sound.observeTime (h : core.Sound) (now : Instant) : (core.observeTime now).Sound :=
  ⟨h.station.observe now, h.valid, h.room⟩

variable {frameType : FrameType} {payload : List UInt8}

section Requests

variable [QueueStorage Q]

theorem releaseUnansweredRequest_leads (h : core.Sound) (hrequest : core.pendingRequest.isSome = true)
    (hnow : core.lastNow = now) : core.Leads (core.releaseUnansweredRequest now) := by
  obtain ⟨-, hsend, hactive⟩ := h.station.ordered.request hrequest
  refine enterIdle_leads h ?_ ⟨hsend, hactive, rfl⟩ hnow
  rw [Station.enter_clearToken]
  exact (Station.moves_next .clearToken trivial).trans
    (Station.moves_next .expireRequest ⟨hrequest, rfl⟩)

theorem abandonRequest_leads (h : core.Sound) (hrequest : core.pendingRequest.isSome = true)
    (hnow : core.lastNow = now) :
    core.Leads (({ core with pendingRequest := none }.record .abandoned).enterIdle now) := by
  obtain ⟨-, hsend, hactive⟩ := h.station.ordered.request hrequest
  refine enterIdle_leads h ?_ ⟨hsend, hactive, rfl⟩ hnow
  rw [Station.enter_clearToken]
  exact (Station.moves_next .clearToken trivial).trans (Station.moves_next .abandon ⟨hrequest, rfl⟩)

theorem answerRequest_leads (h : core.Sound) {request : PendingRequest}
    (hrequest : core.pendingRequest = some request) (hnow : core.lastNow = now)
    (htime : now < request.window.giveUp)
    (hsends : core.config.Sends (Frame.new frameType request.source core.config.station payload)) :
    core.Leads (core.answerRequest request frameType payload now).2 := by
  have hsome : core.station.request = some request := hrequest
  obtain ⟨-, hsend, hactive⟩ := h.station.ordered.request (by rw [hsome]; rfl)
  have hmade := @queueFrameWith_station Q npdu core enterIdle plain_enterIdle h.room
    (h.transmit_none hactive) hsend hactive frameType request.source payload hsends .idle
    (.answer request.window) now (.inr htime)
  have hmoves := @Station.answered_moves core.station (core.waitingFrame
    (Frame.new frameType request.source core.config.station payload) .idle (.answer request.window) now)
    request hsome hactive rfl (by rw [show core.station.lastNow = now from hnow]; exact htime) rfl rfl
    rfl ⟨core.nextTransmitGeneration⟩
  rw [show core.station.lastNow = now from hnow, ← hmade] at hmoves
  exact hmoves

theorem completeRequest_leads (h : core.Sound) (hnow : core.lastNow = now) (id : RequestId)
    (decision : ReplyDecision) : core.Leads (core.completeRequest id decision now).2 := by
  unfold completeRequest
  rw [observeTime_eq hnow]
  dsimp only
  cases hrequest : core.pendingRequest with
  | none => exact .refl _
  | some request =>
    have hsome : core.pendingRequest.isSome = true := by
      rw [hrequest]
      rfl
    dsimp only
    by_cases hid : request.id ≠ id
    · rw [if_pos hid]
      exact .refl _
    rw [if_neg hid]
    by_cases hlate : request.window.giveUp ≤ core.lastNow
    · rw [if_pos hlate]
      exact releaseUnansweredRequest_leads h hsome rfl
    rw [if_neg hlate]
    have hanswer : ∀ {frameType : FrameType} {payload : List UInt8},
        core.config.Sends (Frame.new frameType request.source core.config.station payload) →
        core.Leads (core.answerRequest request frameType payload core.lastNow).2 :=
      fun hsends => answerRequest_leads h hrequest rfl (Nat.not_le.mp hlate) hsends
    cases decision with
    | data data =>
      have hsends := fun hfits : ¬ core.config.maxNpdu < data.length =>
        sends_dataFrame h.valid false request.source (Nat.not_lt.mp hfits)
      dsimp only
      split_ifs with hdecide hlong hextended
      · exact .refl _
      · exact .refl _
      · have hsends := hsends hlong
        rw [decide_eq_true hextended] at hsends
        exact hanswer hsends
      · have hsends := hsends hlong
        rw [decide_eq_false hextended] at hsends
        exact hanswer hsends
    | postponed =>
      exact hanswer (h.valid.sends_standard (by decide) (by decide) _ (Nat.zero_le _) (.inr rfl))
    | abandoned => exact abandonRequest_leads h hsome rfl

theorem beginRequest_leads (h : core.AtWork now) (frame : Frame) :
    core.Leads (core.beginRequest frame now) := by
  unfold beginRequest
  dsimp only
  generalize core.requestOf frame now = request
  have hopen : core.Leads (core.openRequest request) := by
    refine .of_move (.beginRequest request) h.free ?_
    have hstate := h.sound.station.ordered.state_of_free h.free
    unfold openRequest
    rw [station_wakeAt, station_setState]
    exact Station.enter_of_ne _ hstate (by decide)
  generalize core.openRequest request = opened at hopen ⊢
  have hdelivered := hopen.trans (.of_eq (opened.station_deliver frame (some request.id)))
  generalize opened.deliver frame (some request.id) = result at hdelivered ⊢
  rcases result with ⟨_ | _, delivered⟩
  · exact hdelivered.trans
      (completeRequest_leads (h.sound.leads hdelivered) (hdelivered.lastNow.trans h.now) request.id
        .postponed)
  · exact hdelivered

theorem replyDeadline_leads (h : core.Sound) (hnow : core.lastNow = now)
    (hsend : core.pendingSend = none) (hactive : core.activeTransmit = none) :
    core.Leads (core.replyDeadline now) := by
  unfold replyDeadline
  cases hrequest : core.pendingRequest with
  | none =>
    have hfree : core.station.Free := ⟨hsend, hactive, hrequest⟩
    refine enterIdle_leads h ?_ hfree hnow
    rw [Station.enter_clearToken]
    exact (Station.moves_next .clearToken trivial).trans (Station.moves_enter_idle hfree)
  | some request => exact completeRequest_leads h hnow request.id .postponed

end Requests

/-! ## Frames -/

theorem frameWhileBusy_leads (core : MasterCore Q npdu) (frame : Frame) {keepToken : Bool}
    (hkeep : keepToken = true → core.station.answering = true) :
    core.Leads (core.frameWhileBusy frame keepToken) := by
  have hdeliver : core.Leads (core.deliver frame none).2 := .of_eq (core.station_deliver frame none)
  unfold frameWhileBusy
  dsimp only
  split_ifs with _ _ _ htoken
  · exact hdeliver
  · exact hdeliver
  · exact hdeliver
  · exact .of_move .rememberToken (hkeep htoken.2.2) rfl
  · exact .of_move .clearToken trivial rfl
  · exact .of_move .clearToken trivial rfl

section Frames

variable [QueueStorage Q]

theorem invalidFrameEvent_leads (h : core.Sound) (hnow : core.lastNow = now) :
    core.Leads (core.invalidFrameEvent now) := by
  unfold invalidFrameEvent
  split_ifs with hbusy hwait hpoll
  · exact .refl _
  all_goals
    simp only [not_or, Bool.not_eq_true, Option.isSome_eq_false_iff, Option.isNone_iff_eq_none]
      at hbusy
  · have hwork : core.AtWork now :=
      ⟨h, ⟨hbusy.1, hbusy.2, h.request_none (by rw [hwait]; decide)⟩, hnow⟩
    exact hwork.resume (by rw [hwait]; rfl) rfl
  · have hwork : core.AtWork now :=
      ⟨h, ⟨hbusy.1, hbusy.2, h.request_none (by rw [hpoll]; decide)⟩, hnow⟩
    exact pollTimeout_leads hwork hpoll
  · exact .refl _

/-- A frame for a station whose own waits: it was dealt with, or none waits any more. -/
theorem frameWhilePending_leads (h : core.Sound) (hnow : core.lastNow = now) (frame : Frame) :
    core.Leads (core.frameWhilePending frame now).2 ∧
      ((core.frameWhilePending frame now).1 = false →
        (core.frameWhilePending frame now).2.pendingSend = none) := by
  unfold frameWhilePending
  cases hsend : core.pendingSend with
  | none => exact ⟨.refl _, fun _ => hsend⟩
  | some pending =>
    have hwaits : core.station.send = some pending := hsend
    dsimp only
    cases horigin : pending.origin with
    | answer window =>
      have hanswering : core.station.answering = true := by
        simp [Station.answering, hwaits, horigin, Origin.isAnswer]
      exact ⟨frameWhileBusy_leads core frame fun _ => hanswering, fun hf => absurd hf (by simp)⟩
    | holder =>
      exact ⟨frameWhileBusy_leads core frame fun hk => absurd hk (by simp),
        fun hf => absurd hf (by simp)⟩
    | nextPoll =>
      have hanswer : pending.origin.isAnswer = false := by
        rw [horigin]
        rfl
      dsimp only
      split_ifs
      · obtain ⟨hleads, hstation⟩ := discardPending_leads h hsend hanswer
        have hlicensed := h.station.licensed
        have hnone := h.station.ordered.request_none (.inl (by rw [hwaits]; rfl))
        have husing : core.discardPending.Using now := by
          refine ⟨⟨h.leads hleads, ?_, ?_⟩, ?_⟩
          · rw [hstation]
            exact ⟨rfl, rfl, hnone⟩
          · rw [hstation]
            exact hnow
          · rw [hstation]
            exact .inl (hlicensed.send pending hwaits hanswer)
        have hstate : core.discardPending.state.spends = false := by
          show core.discardPending.station.state.spends = false
          rw [hstation]
          exact hlicensed.polls pending hwaits horigin
        exact ⟨hleads.trans (takeSuccessor_leads husing hstate _), fun hf => absurd hf (by simp)⟩
      · exact ⟨frameWhileBusy_leads core frame fun hk => absurd hk (by simp),
          fun hf => absurd hf (by simp)⟩
    | passToken | noToken =>
      have hanswer : pending.origin.isAnswer = false := by
        rw [horigin]
        rfl
      have hstation : (core.dropPending now).station
          = Station.enter { core.station with send := none, active := none, queued := none } .idle := by
        rw [dropPending_plain h hsend hanswer, station_goIdle, (discardPending_leads h hsend hanswer).2]
      refine ⟨dropPending_leads h (by rw [hsend]; rfl) hnow, fun _ => ?_⟩
      show (core.dropPending now).station.send = none
      rw [hstation, Station.enter_send]

theorem oweAnswer_leads (h : core.AtWork now) (asker : UInt8)
    (hsends : core.config.Sends (Frame.new frameType asker core.config.station payload))
    (window : ReplyWindow) :
    core.Leads ((core.record (.owed asker false)).queueFrame frameType asker payload .idle
      (.answer window) now) := by
  set owing := core.record (.owed asker false)
  have hmade := @queueFrameWith_station Q npdu owing enterIdle plain_enterIdle h.sound.room
    h.transmit h.free.1 h.free.2.1 frameType asker payload hsends .idle (.answer window) now
    (.inl h.pendingToken)
  have hmoves := @Station.owed_moves core.station (owing.waitingFrame
    (Frame.new frameType asker core.config.station payload) .idle (.answer window) now) h.free rfl
    rfl rfl ⟨core.nextTransmitGeneration⟩
  rw [h.now] at hmoves
  unfold Leads queueFrame
  rw [hmade]
  exact hmoves

variable {frame : Frame}

theorem receiveFrame_leads (h : core.AtWork now) (hframe : frame.Bounded) :
    core.Leads (core.receiveFrame frame now) := by
  have hvalid := h.sound.valid
  have hdeliver : core.Leads (core.deliver frame none).2 := .of_eq (core.station_deliver frame none)
  unfold receiveFrame
  dsimp only
  split_ifs with _ _ _ _ _ htest
  · exact useReceivedTokenWith_leads plain_enterIdle h
  · exact oweAnswer_leads h _ (hvalid.sends_standard (by decide) (by decide) _ (Nat.zero_le _)
      (.inr rfl)) _
  · exact hdeliver
  · exact hdeliver
  · exact beginRequest_leads h frame
  · have hdata : frame.data.length ≤ maxStandardMpduData := hframe (by rw [htest.1]; decide)
    exact oweAnswer_leads h _ (hvalid.sends_standard (by decide) (by decide) _ hdata
      (.inl (by decide))) _
  · exact hdeliver
  · exact .refl _

theorem processWaitForReply_leads (h : core.AtWork now) (hstate : core.state = .waitForReply)
    (frame : Frame) : core.Leads (core.processWaitForReply frame now) := by
  unfold processWaitForReply
  dsimp only
  generalize heq : (if frame.header.frameType ≠ .replyPostponed then (core.deliver frame none).2
    else core) = delivered
  have hdelivered : delivered.station = core.station := by
    rw [← heq]
    split_ifs
    · exact core.station_deliver frame none
    · rfl
  split_ifs
  · exact (h.idleFrom now).1
  · have hspends : delivered.state.spends = true := by
      rw [show delivered.state = core.state from congrArg Station.state hdelivered, hstate]
      rfl
    exact .trans (.of_eq hdelivered) ((h.congr hdelivered).resume hspends rfl)

theorem processFreeFrame_leads (h : core.Listens now) (hsend : core.pendingSend = none)
    (hframe : frame.Bounded) : core.Leads (core.processFreeFrame frame now) := by
  unfold processFreeFrame
  dsimp only
  by_cases hbusy : core.pendingRequest.isSome = true ∨ core.state = .answerDataRequest
  · rw [if_pos hbusy]
    refine frameWhileBusy_leads core frame fun _ => ?_
    rcases hbusy with hrequest | hstate
    · rw [Station.answering, show core.station.request.isSome = true from hrequest]
      rfl
    · exact h.sound.station.ordered.answers hstate
  · rw [if_neg hbusy]
    rw [not_or, Bool.not_eq_true, Option.isSome_eq_false_iff, Option.isNone_iff_eq_none] at hbusy
    have hwork := h.atWork hsend hbusy.1
    generalize heq : (if core.state = .passToken then core.idleFrom now else core) = passed
    obtain ⟨hleads, hat⟩ : core.Leads passed ∧ passed.AtWork now := by
      rw [← heq]
      split_ifs
      · exact hwork.idleFrom now
      · exact ⟨.refl _, hwork⟩
    refine hleads.trans ?_
    split_ifs with hwait hpoll _
    · exact processWaitForReply_leads hat hwait frame
    · exact takeSuccessor_leads (hat.using (by rw [hpoll]; rfl)) (by rw [hpoll]; rfl) _
    · exact (hat.idleFrom now).1
    · exact receiveFrame_leads hat hframe

theorem processFrame_leads (h : core.Listens now) (hframe : frame.Bounded) :
    core.Leads (core.processFrame frame now) := by
  unfold processFrame
  dsimp only
  have hreceived : station (core.mapCounters .recordFrameReceived) = core.station :=
    core.station_mapCounters rfl rfl
  generalize core.mapCounters .recordFrameReceived = received at hreceived ⊢
  generalize hcount : (if frame.header.source = received.config.station then
    received.mapCounters .recordOwnAddressFrame else received) = counted
  have hcounted : counted.station = core.station := by
    rw [← hcount]
    split_ifs
    · exact (received.station_mapCounters rfl rfl).trans hreceived
    · exact hreceived
  have hleads : core.Leads counted := .of_eq hcounted
  have hcounted := h.leads hleads
  obtain ⟨hpending, hfree⟩ := frameWhilePending_leads hcounted.sound hcounted.now frame
  generalize counted.frameWhilePending frame now = result at hpending hfree ⊢
  rcases result with ⟨_ | _, after⟩
  · have hall := hleads.trans hpending
    exact hall.trans (processFreeFrame_leads (h.leads hall) (hfree rfl) hframe)
  · exact hleads.trans hpending

/-! ## The decoder's events -/

theorem dropCandidate_leads (h : core.Sound) (hnow : core.lastNow = now) (error : FrameError)
    (destination : Option UInt8) : core.Leads (core.dropCandidate error destination now) := by
  unfold dropCandidate
  split_ifs
  · have hcounted : core.Leads (core.mapCounters .recordParserError) :=
      .of_eq (core.station_mapCounters rfl rfl)
    exact hcounted.trans (invalidFrameEvent_leads (h.leads hcounted) hnow)
  · exact .refl _

theorem decodeEvent_leads (h : core.Listens now) {event : DecodeEvent}
    (hevent : StreamDecoder.Bounded event) : core.Leads (core.decodeEvent now event) := by
  cases event with
  | needMore | invalid => exact .refl _
  | frame frame consumed =>
    unfold decodeEvent
    dsimp only
    split_ifs
    · exact dropCandidate_leads h.sound h.now _ _
    · exact processFrame_leads h hevent
  | malformed discard error destination => exact dropCandidate_leads h.sound h.now error destination
  | error error => exact dropCandidate_leads h.sound h.now error none

theorem decodeOctet_leads (h : core.Listens now) (byte : UInt8) :
    core.Leads (core.decodeOctet byte now) := by
  have hevents : ∀ (events : List DecodeEvent), (∀ e ∈ events, StreamDecoder.Bounded e) →
      ∀ core : MasterCore Q npdu, core.Listens now →
        core.Leads (events.foldl (fun core event => core.decodeEvent now event) core) := by
    intro events
    induction events with
    | nil => exact fun _ core _ => .refl core
    | cons event events ih =>
      intro hbounded core h
      have hleads := decodeEvent_leads h (hbounded event List.mem_cons_self)
      exact hleads.trans (ih (fun e he => hbounded e (List.mem_cons_of_mem _ he)) _ (h.leads hleads))
  have hleads := hevents _ (core.decoder.feedSlice_bounded [byte]) core h
  unfold decodeOctet
  dsimp only
  generalize (core.decoder.feedSlice [byte]).2.foldl (fun core event => core.decodeEvent now event)
    core = after at hleads ⊢
  exact hleads.trans (.of_eq rfl)

end Frames

end MasterCore

end RustyBacnet.Mstp
