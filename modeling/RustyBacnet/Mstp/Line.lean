import RustyBacnet.Mstp.Input

/-!
# What making frames leaves alone

What a core has of the line, its decoder and the times of the last activity and of the last call,
changes only where octets or activity come in. Going idle, using the token and making frames read
it and leave it as it is (`enterIdle_line`, `driveToken_line`).
-/

namespace RustyBacnet.Mstp

/-- What a core has of the line. -/
structure Line where
  config : MstpCoreConfig
  decoder : StreamDecoder
  lastOctet : Option Instant
  parserPartial : Bool
  lastActivity : Instant
  lastNow : Instant

namespace MasterCore

variable {Q : Type} {npdu : ℕ} {now : Instant}

def line (core : MasterCore Q npdu) : Line where
  config := core.config
  decoder := core.decoder
  lastOctet := core.lastOctet
  parserPartial := core.parserPartial
  lastActivity := core.lastActivity
  lastNow := core.lastNow

section Basics

variable (core : MasterCore Q npdu)

@[simp] theorem line_wakeAt (deadline : Instant) : (core.wakeAt deadline).line = core.line := rfl

@[simp] theorem line_record (event : CoreEvent) : (core.record event).line = core.line := rfl

@[simp] theorem line_mapCounters (f : MstpCounters → MstpCounters) :
    (core.mapCounters f).line = core.line := rfl

@[simp] theorem line_setState (state : MasterState) : (core.setState state).line = core.line := by
  unfold setState
  split_ifs <;> rfl

@[simp] theorem line_dispatchFrame (post : PostTransmit) (now : Instant) :
    (core.dispatchFrame post now).line = core.line := rfl

@[simp] theorem line_withdrawTransmit (id : TransmitId) :
    (core.withdrawTransmit id).line = core.line := rfl

@[simp] theorem line_forgetPending : core.forgetPending.line = core.line := by
  unfold forgetPending
  split
  · rfl
  · split_ifs <;> rfl

@[simp] theorem line_discardPending : core.discardPending.line = core.line := by
  unfold discardPending
  split
  · split_ifs <;> simp
  · simp

@[simp] theorem line_encode (frame : Frame) : (core.encode frame).2.line = core.line := by
  unfold encode
  split <;> rfl

@[simp] theorem line_goIdle : core.goIdle.line = core.line := by
  unfold goIdle
  simp

@[simp] theorem line_idleFrom (now : Instant) : (core.idleFrom now).line = core.line := by
  unfold idleFrom
  simp

end Basics

section Open

variable {idle : MasterCore Q npdu → Instant → MasterCore Q npdu}

/-- What going idle does leaves the line alone. -/
def Deaf (idle : MasterCore Q npdu → Instant → MasterCore Q npdu) : Prop :=
  ∀ core now, (idle core now).line = core.line

variable (hidle : Deaf idle) (core : MasterCore Q npdu)
include hidle

theorem dispatchPendingSendWith_line (now : Instant) :
    (dispatchPendingSendWith idle core now).line = core.line := by
  unfold dispatchPendingSendWith
  split
  · rfl
  · split_ifs
    · rw [dropPendingWith, hidle, line_discardPending]
    · rfl
    · rfl

theorem sendEncodedWith_line (frame : Frame) (post : PostTransmit) (origin : Origin)
    (now : Instant) : (sendEncodedWith idle core frame post origin now).line = core.line := by
  exact dispatchPendingSendWith_line hidle _ now

theorem queueFrameWith_line (frameType : FrameType) (destination : UInt8) (data : List UInt8)
    (post : PostTransmit) (origin : Origin) (now : Instant) :
    (queueFrameWith idle core frameType destination data post origin now).line = core.line := by
  unfold queueFrameWith
  dsimp only
  have hencode := core.line_encode (Frame.new frameType destination core.config.station data)
  generalize core.encode (Frame.new frameType destination core.config.station data) = result
    at hencode ⊢
  rcases result with ⟨_ | _, encoded⟩
  · exact hencode
  · exact (sendEncodedWith_line hidle encoded _ post origin now).trans hencode

theorem queuePollWith_line (origin : Origin) (now : Instant) :
    (queuePollWith idle core origin now).line = core.line := by
  unfold queuePollWith
  rw [line_setState, queueFrameWith_line hidle]

theorem queueTokenWith_line (destination : UInt8) (origin : Origin) (now : Instant) :
    (queueTokenWith idle core destination origin now).line = core.line := by
  unfold queueTokenWith
  split_ifs
  · exact queuePollWith_line hidle _ origin now
  · have hpass := queueFrameWith_line hidle core .token destination [] .passToken origin now
    rw [← line_setState _ .passToken] at hpass
    generalize (queueFrameWith idle core .token destination [] .passToken origin now).setState
      .passToken = passed at hpass ⊢
    rw [← hpass]
    rfl

variable [QueueStorage Q]

theorem dequeueLoopWith_line (attempts : ℕ) :
    (dequeueLoopWith idle now attempts core).2.line = core.line := by
  induction attempts generalizing core with
  | zero => rfl
  | succ attempts ih =>
    unfold dequeueLoopWith
    split
    · rfl
    · next kind _ =>
      rcases QueueStorage.dequeueKind core.queues kind now npdu with ⟨_ | _ | item, queues⟩
      · exact ih _
      · rfl
      · dsimp only
        set taken : MasterCore Q npdu := { core with queues := queues }
        split_ifs
        · exact ih _
        · have hcounted : (taken.counted kind).line = core.line := rfl
          generalize taken.counted kind = counted at hcounted ⊢
          generalize dataFrameType _ _ = kindOfFrame
          have hencode := counted.line_encode
            (Frame.new kindOfFrame.1 item.destination counted.config.station item.npdu)
          generalize counted.encode
            (Frame.new kindOfFrame.1 item.destination counted.config.station item.npdu) = result
            at hencode ⊢
          rw [← hcounted, ← hencode]
          rcases result with ⟨_ | _, encoded⟩
          · exact ih encoded
          · rw [sendEncodedWith_line hidle]

theorem dequeueAndSendWith_line (now : Instant) :
    (dequeueAndSendWith idle core now).2.line = core.line := by
  exact dequeueLoopWith_line hidle _ _

theorem doneWithTokenLoopWith_line (rounds : ℕ) :
    (doneWithTokenLoopWith idle now rounds core).line = core.line := by
  induction rounds generalizing core with
  | zero => rfl
  | succ rounds ih =>
    unfold doneWithTokenLoopWith
    dsimp only
    split_ifs
    · rw [queuePollWith_line hidle]
      rfl
    · set turned := ({ core with
        tokenCount := increment8 core.tokenCount, frameCount := 0 } : MasterCore Q npdu)
      have hsent := dequeueAndSendWith_line hidle (turned.setState .useToken) now
      rw [line_setState] at hsent
      generalize dequeueAndSendWith idle (turned.setState .useToken) now = result at hsent ⊢
      rcases result with ⟨_ | _, sent⟩
      · exact (ih sent).trans hsent
      · exact hsent
    all_goals first | rw [queueTokenWith_line hidle] | rw [queuePollWith_line hidle]
    all_goals rfl

theorem driveTokenWith_line (now : Instant) : (driveTokenWith idle core now).line = core.line := by
  unfold driveTokenWith doneWithTokenWith
  split_ifs
  · rfl
  · have hsent := dequeueAndSendWith_line hidle core now
    generalize dequeueAndSendWith idle core now = result at hsent ⊢
    rcases result with ⟨_ | _, sent⟩
    · exact (doneWithTokenLoopWith_line hidle _ _).trans (by rw [line_setState]; exact hsent)
    · exact hsent
  · rw [doneWithTokenLoopWith_line hidle, line_setState]

theorem useReceivedTokenWith_line (now : Instant) :
    (useReceivedTokenWith idle core now).line = core.line := by
  unfold useReceivedTokenWith
  rw [driveTokenWith_line hidle, line_setState]
  rfl

theorem takePendingTokenWith_line (now : Instant) :
    (takePendingTokenWith idle core now).line = core.line := by
  unfold takePendingTokenWith
  split_ifs
  · exact useReceivedTokenWith_line hidle _ now
  · rfl

end Open

section Closed

variable [QueueStorage Q] (core : MasterCore Q npdu)

theorem deaf_enterIdleRounds (rounds : ℕ) :
    Deaf (enterIdleRounds rounds : MasterCore Q npdu → Instant → MasterCore Q npdu) := by
  induction rounds with
  | zero => exact fun core _ => core.line_goIdle
  | succ rounds ih =>
    intro core now
    exact (takePendingTokenWith_line ih core.goIdle now).trans core.line_goIdle

theorem deaf_enterIdle :
    Deaf (enterIdle : MasterCore Q npdu → Instant → MasterCore Q npdu) := deaf_enterIdleRounds 2

@[simp] theorem enterIdle_line (now : Instant) : (core.enterIdle now).line = core.line :=
  deaf_enterIdle core now

@[simp] theorem dropPending_line (now : Instant) : (core.dropPending now).line = core.line := by
  rw [dropPending, dropPendingWith, enterIdle_line, line_discardPending]

@[simp] theorem queuePoll_line (origin : Origin) (now : Instant) :
    (core.queuePoll origin now).line = core.line :=
  queuePollWith_line deaf_enterIdle core origin now

@[simp] theorem queueToken_line (destination : UInt8) (origin : Origin) (now : Instant) :
    (core.queueToken destination origin now).line = core.line :=
  queueTokenWith_line deaf_enterIdle core destination origin now

@[simp] theorem driveToken_line (now : Instant) : (core.driveToken now).line = core.line :=
  driveTokenWith_line deaf_enterIdle core now

@[simp] theorem takePendingToken_line (now : Instant) :
    (core.takePendingToken now).line = core.line :=
  takePendingTokenWith_line deaf_enterIdle core now

theorem pollTimeout_line (now : Instant) : (core.pollTimeout now).line = core.line := by
  unfold pollTimeout
  dsimp only
  split_ifs
  · rw [driveToken_line, line_setState]
    rfl
  · rw [queueToken_line]
    rfl
  · rw [driveToken_line, line_setState]
    rfl
  · rw [queuePoll_line]
    rfl

theorem noteBusActivity_line (now : Instant) (events : ℕ) :
    (core.noteBusActivity now events).line = { core.line with lastActivity := now } := by
  have hnoted : (core.noted now events).line = { core.line with lastActivity := now } := rfl
  unfold noteBusActivity
  dsimp only
  generalize core.noted now events = noted at hnoted ⊢
  rw [← hnoted]
  split_ifs
  · unfold pendingActivity
    split
    · rfl
    · dsimp only
      split_ifs
      · exact noted.dropPending_line now
      · rfl
      · rfl
  · unfold freeActivity
    split
    · exact noted.line_idleFrom now
    · rfl
    · split_ifs
      · exact noted.line_idleFrom now
      · rfl
    all_goals rfl

theorem invalidFrameEvent_line (now : Instant) : (core.invalidFrameEvent now).line = core.line := by
  unfold invalidFrameEvent
  split_ifs
  · rfl
  · rw [driveToken_line, line_setState]
  · exact core.pollTimeout_line now
  · rfl

theorem afterTransmit_line (post : PostTransmit) (now : Instant) :
    (core.afterTransmit post now).line = core.line := by
  unfold afterTransmit
  cases post with
  | idle => exact core.enterIdle_line now
  | continueToken => rw [driveToken_line, line_setState]
  | passToken => exact line_setState core .passToken
  | waitForReply => exact line_setState core .waitForReply
  | pollForMaster => exact line_setState core .pollForMaster

end Closed

end MasterCore

end RustyBacnet.Mstp
