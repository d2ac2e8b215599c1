import RustyBacnet.Mstp.Token

/-!
# Received frames and the answers to them

`state/receive.rs`, `state/reply.rs` and the rest of `state/pending.rs`: what a valid frame, an
invalid one and bare line activity do in each state, with and without a frame of this station's
waiting to go out.
-/

namespace RustyBacnet.Mstp

/-- A guard kept back from the requester's shortest reply timeout. -/
def replyGuard : Duration := fromMillis 1

def isDataExpectingReply (t : FrameType) : Bool :=
  t = .bacnetDataExpectingReply ∨ t = .bacnetExtendedDataExpectingReply

def isDataNotExpectingReply (t : FrameType) : Bool :=
  t = .bacnetDataNotExpectingReply ∨ t = .bacnetExtendedDataNotExpectingReply

/-- Why an answer to a request was refused. -/
inductive RequestError where
  | noPending
  | stale
  | expired
  | oversize (length maximum : ℕ)
  deriving DecidableEq

namespace MasterCore

variable {Q : Type} [QueueStorage Q] {npdu : ℕ} (core : MasterCore Q npdu)

/-- Go to IDLE with the token-loss timer running from `now`. -/
def idleFrom (now : Instant) : MasterCore Q npdu :=
  (core.setState .idle).wakeAt (satAdd now tNoToken)

/-- Queue a frame's data for the layers above, and return whether it was queued. -/
def deliver (frame : Frame) (requestId : Option RequestId) : Bool × MasterCore Q npdu :=
  match core.actions.enqueueDelivery frame.header frame.data requestId with
  | (true, actions) =>
    (true, { core with actions := actions }.mapCounters
      (if carriesNpdu frame.header.frameType then .recordNpduDelivered else .recordFrameDelivered))
  | (false, actions) => (false, { core with actions := actions }.mapCounters .recordDeliveryDrop)

def forUs (frame : Frame) : Bool := frame.header.destination = core.config.station

def isBroadcast (frame : Frame) : Bool := frame.header.destination = broadcastMac

def goesUpWhole (frame : Frame) : Bool :=
  (core.forUs frame || isBroadcast frame) &&
    (frame.header.frameType = .testResponse ||
      (frame.header.frameType.isProprietary && decide (2 ≤ frame.data.length)))

/-- A valid frame that completes while this station is busy: answering a request, or waiting to
send a frame of its own. -/
def frameWhileBusy (frame : Frame) (keepToken : Bool) : MasterCore Q npdu :=
  let frameType := frame.header.frameType
  let forUs := core.forUs frame
  let broadcast := isBroadcast frame
  if isDataNotExpectingReply frameType && (forUs || broadcast) then (core.deliver frame none).2
  else if isDataExpectingReply frameType && broadcast then (core.deliver frame none).2
  else if core.goesUpWhole frame then (core.deliver frame none).2
  else if frameType = .token ∧ forUs ∧ keepToken then { core with pendingToken := true }
  else if (frameType = .token ∨ frameType = .pollForMaster ∨
      frameType = .bacnetDataExpectingReply ∨ frameType = .bacnetExtendedDataExpectingReply ∨
      frameType = .testRequest ∨ frameType = .replyToPollForMaster) ∧ forUs then
    { core with pendingToken := false }.mapCounters .recordDiscardedWhileBusy
  else { core with pendingToken := false }

/-! ## While a frame of this station's waits -/

/-- Line activity while a frame waits: drop it at its limit or on its state's evidence, otherwise
wait T_turnaround from this activity. -/
def pendingActivity (now : Instant) : MasterCore Q npdu :=
  match core.pendingSend with
  | none => core
  | some pending =>
    let evidence :=
      (pending.origin = .passToken ∨ pending.origin = .noToken) ∧ nMinOctets < core.eventCount
    if pending.limit ≤ now ∨ evidence then core.dropPending now
    else
      let pending :=
        { pending with earliest := satAdd core.lastActivity core.config.tTurnaround }
      let core := { core with pendingSend := some pending }
      if core.activeTransmit.isNone then core.wakeAt pending.deadline else core

/-- A valid frame completed while a frame of this station's waits. Return whether it was handled;
when not, the core has gone to IDLE, which takes it up. -/
def frameWhilePending (frame : Frame) (now : Instant) : Bool × MasterCore Q npdu :=
  match core.pendingSend with
  | none => (false, core)
  | some pending =>
    let latePollReply := frame.header.frameType = .replyToPollForMaster ∧ core.forUs frame
    match pending.origin with
    | .answer _ => (true, core.frameWhileBusy frame true)
    | .nextPoll =>
      if latePollReply then (true, core.discardPending.takeSuccessor frame.header.source now)
      else (true, core.frameWhileBusy frame false)
    | .holder => (true, core.frameWhileBusy frame false)
    | .passToken | .noToken => (false, core.dropPending now)

/-- Activity at `now`, worth `events` toward EventCount. -/
def noted (now : Instant) (events : ℕ) : MasterCore Q npdu :=
  { core with
    lastActivity := now
    eventCount := min (core.eventCount + events) u32Max }

/-- What activity does in each state while no frame waits. -/
def freeActivity (now : Instant) : MasterCore Q npdu :=
  match core.state with
  | .noToken => core.idleFrom now
  | .idle => core.wakeAt (satAdd now tNoToken)
  | .passToken =>
    if nMinOctets < core.eventCount then core.idleFrom now
    else core.wakeAt (satAdd now core.config.tUsageTimeout)
  | .pollForMaster => core.wakeAt (satAdd now core.config.tUsageTimeout)
  | .waitForReply => core.wakeAt (satAdd now core.config.tReplyTimeout)
  | .useToken | .doneWithToken | .answerDataRequest => core

/-- Line activity that is not this station's own echo. -/
def noteBusActivity (now : Instant) (events : ℕ) : MasterCore Q npdu :=
  let core := core.noted now events
  if core.pendingSend.isSome then core.pendingActivity now else core.freeActivity now

/-! ## Requests -/

/-- The window for answering a frame that asked for a reply and ended at `now`. -/
def replyWindow (now : Instant) : ReplyWindow :=
  let sendBy := satAdd now core.config.tReplyDelay
  ⟨sendBy, max (satAdd now minReplyTimeout - core.config.octetTime - replyGuard) sendBy⟩

/-- The window for answering a Poll For Master that ended at `now`. -/
def pollReplyWindow (now : Instant) : ReplyWindow :=
  let sendBy := satAdd now core.config.tUsageDelay
  ⟨sendBy, max (satAdd now minUsageTimeout - core.config.octetTime - replyGuard) sendBy⟩

def releaseUnansweredRequest (now : Instant) : MasterCore Q npdu :=
  ({ core with pendingRequest := none }.recordExpiredRequest).enterIdle now

def answerRequest (request : PendingRequest) (frameType : FrameType) (payload : List UInt8)
    (now : Instant) : Except RequestError Unit × MasterCore Q npdu :=
  (.ok (), { core.queueFrame frameType request.source payload .idle (.answer request.window) now with
    pendingRequest := none })

/-- Complete a request under its generation identifier. -/
def completeRequest (id : RequestId) (decision : ReplyDecision) (now : Instant) :
    Except RequestError Unit × MasterCore Q npdu :=
  let core := core.observeTime now
  let now := core.lastNow
  match core.pendingRequest with
  | none => (.error .noPending, core)
  | some request =>
    if request.id ≠ id then (.error .stale, core)
    else if request.window.giveUp ≤ now then (.error .expired, core.releaseUnansweredRequest now)
    else
      match decision with
      | .data data =>
        if request.decideBy ≤ now then (.error .expired, core)
        else if core.config.maxNpdu < data.length then
          (.error (.oversize data.length core.config.maxNpdu), core)
        else if maxStandardMpduData < data.length then
          core.answerRequest request .bacnetExtendedDataNotExpectingReply data now
        else core.answerRequest request .bacnetDataNotExpectingReply data now
      | .postponed => core.answerRequest request .replyPostponed [] now
      | .abandoned =>
        (.ok (), ({ core with pendingRequest := none }.record .abandoned).enterIdle now)

/-- The request that a frame which ended at `now` makes. -/
def requestOf (frame : Frame) (now : Instant) : PendingRequest :=
  let window := core.replyWindow now
  ⟨⟨core.nextRequestGeneration⟩, frame.header.source,
    window.sendBy - core.config.replyTransmitMargin, window⟩

def openRequest (request : PendingRequest) : MasterCore Q npdu :=
  let core := { core.record (.owed request.source true) with
    nextRequestGeneration := nextGeneration core.nextRequestGeneration
    pendingRequest := some request }
  (core.setState .answerDataRequest).wakeAt request.decideBy

/-- Hand a request to the application and open its reply window. -/
def beginRequest (frame : Frame) (now : Instant) : MasterCore Q npdu :=
  let request := core.requestOf frame now
  match (core.openRequest request).deliver frame (some request.id) with
  | (true, core) => core
  | (false, core) => (core.completeRequest request.id .postponed now).2

/-- The decision deadline has passed without an answer: send Reply Postponed. -/
def replyDeadline (now : Instant) : MasterCore Q npdu :=
  match core.pendingRequest with
  | none => core.enterIdle now
  | some request => (core.completeRequest request.id .postponed now).2

/-! ## Frames -/

def processWaitForReply (frame : Frame) (now : Instant) : MasterCore Q npdu :=
  let frameType := frame.header.frameType
  let isReply := core.forUs frame && (isDataNotExpectingReply frameType ||
    (frameType = .testResponse || frameType = .replyPostponed))
  if !isReply then core.idleFrom now
  else
    let core := if frameType ≠ .replyPostponed then (core.deliver frame none).2 else core
    (core.setState .doneWithToken).driveToken now

def invalidFrameEvent (now : Instant) : MasterCore Q npdu :=
  if core.pendingSend.isSome ∨ core.activeTransmit.isSome then core
  else if core.state = .waitForReply then (core.setState .doneWithToken).driveToken now
  else if core.state = .pollForMaster then core.pollTimeout now
  else core

def receiveFrame (frame : Frame) (now : Instant) : MasterCore Q npdu :=
  let header := frame.header
  let frameType := header.frameType
  let forUs := core.forUs frame
  let broadcast := isBroadcast frame
  if frameType = .token ∧ forUs then core.useReceivedToken now
  else if frameType = .pollForMaster ∧ forUs then
    let window := core.pollReplyWindow now
    (core.record (.owed header.source false)).queueFrame .replyToPollForMaster header.source [] .idle
      (.answer window) now
  else if isDataNotExpectingReply frameType && (forUs || broadcast) then (core.deliver frame none).2
  else if isDataExpectingReply frameType && broadcast then (core.deliver frame none).2
  else if isDataExpectingReply frameType && forUs then core.beginRequest frame now
  else if frameType = .testRequest ∧ forUs then
    let window := core.replyWindow now
    (core.record (.owed header.source false)).queueFrame .testResponse header.source frame.data .idle
      (.answer window) now
  else if core.goesUpWhole frame then (core.deliver frame none).2
  else core

/-- Act on a valid frame when none of this station's waits. -/
def processFreeFrame (frame : Frame) (now : Instant) : MasterCore Q npdu :=
  if core.pendingRequest.isSome ∨ core.state = .answerDataRequest then
    core.frameWhileBusy frame true
  else
    -- A valid frame proves that another station began using the token.
    let core := if core.state = .passToken then core.idleFrom now else core
    if core.state = .waitForReply then core.processWaitForReply frame now
    else if core.state = .pollForMaster then
      if frame.header.frameType = .replyToPollForMaster ∧ core.forUs frame then
        core.takeSuccessor frame.header.source now
      else core.idleFrom now
    else core.receiveFrame frame now

/-- Act on a valid frame, from the core's own decoder or a host assembler. -/
def processFrame (frame : Frame) (now : Instant) : MasterCore Q npdu :=
  let core := core.mapCounters .recordFrameReceived
  let core :=
    if frame.header.source = core.config.station then core.mapCounters .recordOwnAddressFrame
    else core
  match core.frameWhilePending frame now with
  | (true, core) => core
  | (false, core) => core.processFreeFrame frame now

/-! ## The decoder -/

/-- The decoder is past preamble search, in a header or data. -/
def inCandidate : Bool := core.decoder.phase = .header ∨ core.decoder.phase = .data

/-- Abort an expired partial receive, and report whether it was in a candidate frame. -/
def abortPartialIfLate (now : Instant) : Bool × MasterCore Q npdu :=
  if core.parserPartial ∧
      core.lastOctet.any fun last => decide (core.config.tFrameAbort < now - last) then
    let invalidCandidate := core.inCandidate
    let core := { core with decoder := core.decoder.reset, parserPartial := false }.mapCounters
      .recordFrameAbort
    (invalidCandidate, if invalidCandidate then core.mapCounters .recordParserError else core)
  else (false, core)

/-- Whether a candidate the decoder dropped is an invalid frame for this station. -/
def droppedCandidateIsInvalid (error : FrameError) (destination : Option UInt8) : Bool :=
  match error with
  | .headerCrcMismatch | .broadcastSource | .invalidCobsLength _ | .oversize _ _ => true
  | .frameTooLong _ _ | .unsupportedCobsFrame _ | .dataCrcMismatch _ =>
    destination.all fun address => address = core.config.station ∨ address = broadcastMac
  | .tooShort _ _ | .invalidPreamble _ _ | .extendedFrame _ | .unexpectedData _ _
  | .missingVendorId _ _ | .truncated _ _ | .bufferExhausted _ _ => true

def dropCandidate (error : FrameError) (destination : Option UInt8) (now : Instant) :
    MasterCore Q npdu :=
  if core.droppedCandidateIsInvalid error destination then
    (core.mapCounters .recordParserError).invalidFrameEvent now
  else core

def decodeEvent (now : Instant) : DecodeEvent → MasterCore Q npdu
  | .needMore => core
  | .invalid _ => core
  | .frame frame _ =>
    -- A node without COBS support drops an extended frame that its storage could decode.
    if frame.header.frameType.isCobs && !core.config.extendedFrames then
      core.dropCandidate (.unsupportedCobsFrame frame.header.frameType.raw)
        (some frame.header.destination) now
    else core.processFrame frame now
  | .malformed _ error destination => core.dropCandidate error destination now
  | .error error => core.dropCandidate error none now

/-- Push one octet and drain the decoder, acting on each event. The decoder is lent out meanwhile:
nothing an event leads to touches it. -/
def decodeOctet (byte : UInt8) (now : Instant) : MasterCore Q npdu :=
  let (decoder, events) := core.decoder.feedSlice [byte]
  { events.foldl (fun core event => core.decodeEvent now event) core with decoder := decoder }

end MasterCore

end RustyBacnet.Mstp
