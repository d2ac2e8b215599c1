import RustyBacnet.Mstp.State

/-!
# Making frames and using the token

`state/pending.rs` up to the hand-over, `state/token.rs`, and `enter_idle` of `state.rs`.

A frame that finds its limit already passed is dropped as it is made, the station goes idle, and
there it takes up a Token it remembered, which may make another frame. The source's functions call
each other in that circle; here those below it take what going idle does as their argument `idle`,
and `enterIdle` closes the circle. It goes round at most twice, since a Token is remembered once
(`enterIdle_eq`).
-/

namespace RustyBacnet.Mstp

/-- How many information frames one token use may send. -/
def MstpCoreConfig.frameLimit (c : MstpCoreConfig) : ℕ :=
  let frames := (min (c.maxInfoFrames.toNat * c.multipleFrameRatio.toNat) 65535 + 99) / 100
  if frames < 1 then 1
  else if c.maxInfoFrames.toNat < frames then c.maxInfoFrames.toNat
  else frames

namespace MasterCore

variable {Q : Type} [QueueStorage Q] {npdu : ℕ}

/-- Encode a frame of this station's, and return whether it fits. Every frame the core builds does;
a failure is asserted in debug builds and otherwise counted. -/
def encode (core : MasterCore Q npdu) (frame : Frame) : Bool × MasterCore Q npdu :=
  match core.actions.encodeFrame frame with
  | (.ok (), actions) => (true, { core with actions := actions })
  | (.error _, actions) =>
    (false,
      ({ core with actions := actions }.debugAssert false).mapCounters .recordInternalError)

section Open

variable (idle : MasterCore Q npdu → Instant → MasterCore Q npdu)

/-- Give up the waiting frame and count it, then go idle. -/
def dropPendingWith (core : MasterCore Q npdu) (now : Instant) : MasterCore Q npdu :=
  idle core.discardPending now

/-- Hand the waiting frame to the adapter if its turnaround has passed. -/
def dispatchPendingSendWith (core : MasterCore Q npdu) (now : Instant) : MasterCore Q npdu :=
  match core.pendingSend with
  | none => core
  | some pending =>
    -- The limit first: under steady activity the turnaround keeps moving.
    if pending.limit ≤ now then dropPendingWith idle core now
    else if now < pending.earliest then core.wakeAt pending.deadline
    else core.dispatchFrame pending.post now

/-- When a frame of this origin, made now, is dropped rather than sent. -/
def sendLimit (core : MasterCore Q npdu) (origin : Origin) (now : Instant) : Instant :=
  match origin with
  | .answer window => window.giveUp
  | .holder | .nextPoll | .noToken => satAdd now tNoToken
  | .passToken => satAdd now core.config.tUsageTimeout

/-- Send the frame just encoded once the line has been quiet for T_turnaround. -/
def sendEncodedWith (core : MasterCore Q npdu) (frame : Frame) (post : PostTransmit)
    (origin : Origin) (now : Instant) : MasterCore Q npdu :=
  let core := core.debugAssert (core.pendingSend.isNone && core.activeTransmit.isNone)
  let pending : PendingSend :=
    { post := post
      origin := origin
      earliest := satAdd core.lastActivity core.config.tTurnaround
      limit := core.sendLimit origin now
      frame := frame }
  dispatchPendingSendWith idle { core with pendingSend := some pending } now

def queueFrameWith (core : MasterCore Q npdu) (frameType : FrameType) (destination : UInt8)
    (data : List UInt8) (post : PostTransmit) (origin : Origin) (now : Instant) :
    MasterCore Q npdu :=
  let frame := Frame.new frameType destination core.config.station data
  match core.encode frame with
  | (true, core) => sendEncodedWith idle core frame post origin now
  | (false, core) => core

/-- Poll `poll_station` for a master and enter POLL_FOR_MASTER. -/
def queuePollWith (core : MasterCore Q npdu) (origin : Origin) (now : Instant) :
    MasterCore Q npdu :=
  (queueFrameWith idle core .pollForMaster core.pollStation [] .pollForMaster origin now).setState
    .pollForMaster

/-- Pass the token and enter PASS_TOKEN; a station that would pass to itself polls instead. -/
def queueTokenWith (core : MasterCore Q npdu) (destination : UInt8) (origin : Origin)
    (now : Instant) : MasterCore Q npdu :=
  if destination = core.config.station then
    queuePollWith idle
      { core with pollStation := nextAddr core.config.station core.config.maxMaster } origin now
  else
    { (queueFrameWith idle core .token destination [] .passToken origin now).setState .passToken with
      eventCount := 0 }

/-- The queue to serve next under the broadcast/unicast ratio. -/
def nextQueueKind (core : MasterCore Q npdu) (now : Instant) : Option QueueKind :=
  match (QueueStorage.peekKind core.queues .unicast now).isSome,
      (QueueStorage.peekKind core.queues .broadcast now).isSome with
  | false, false => none
  | true, false => some .unicast
  | false, true => some .broadcast
  | true, true =>
    if core.consecutiveBroadcast < core.config.broadcastUnicastRatio.toNat then some .broadcast
    else some .unicast

def dataFrameType : Bool → Bool → FrameType × PostTransmit
  | true, false => (.bacnetDataExpectingReply, .waitForReply)
  | true, true => (.bacnetExtendedDataExpectingReply, .waitForReply)
  | false, false => (.bacnetDataNotExpectingReply, .continueToken)
  | false, true => (.bacnetExtendedDataNotExpectingReply, .continueToken)

def counted (core : MasterCore Q npdu) (kind : QueueKind) : MasterCore Q npdu :=
  { core with
    consecutiveBroadcast :=
      if kind = QueueKind.broadcast then increment8 core.consecutiveBroadcast else 0
    frameCount := increment8 core.frameCount }

/-- `dequeue_and_send`'s loop: an NPDU that cannot go out is dropped, and the next one tried. -/
def dequeueLoopWith (now : Instant) : ℕ → MasterCore Q npdu → Bool × MasterCore Q npdu
  | 0, core => (false, core)
  | attempts + 1, core =>
    match core.nextQueueKind now with
    | none => (false, core)
    | some kind =>
      match QueueStorage.dequeueKind core.queues kind now npdu with
      | (.error _, queues) => dequeueLoopWith now attempts { core with queues := queues }
      | (.ok none, queues) => (false, { core with queues := queues })
      | (.ok (some item), queues) =>
        let core := { core with queues := queues }
        let data := item.npdu
        if npdu < data.length ∨ core.config.maxNpdu < data.length then
          dequeueLoopWith now attempts (core.recordOversizeNpdu kind)
        else
          let core := core.counted kind
          let expecting :=
            decide (kind = QueueKind.unicast ∧ 2 ≤ data.length ∧ data.getD 1 0 &&& 0x04 ≠ 0)
          let extended := decide (maxStandardMpduData < data.length)
          let (frameType, post) := dataFrameType expecting extended
          let frame := Frame.new frameType item.destination core.config.station data
          match core.encode frame with
          | (false, core) => dequeueLoopWith now attempts core
          | (true, core) => (true, sendEncodedWith idle core frame post .holder now)

def dequeueAndSendWith (core : MasterCore Q npdu) (now : Instant) : Bool × MasterCore Q npdu :=
  let core := { core with queues := (QueueStorage.expire core.queues now).2 }
  dequeueLoopWith idle now (QueueStorage.totalDepth core.queues + 1) core

/-- `done_with_token`'s loop: a sole master uses the token again until a maintenance poll is due. -/
def doneWithTokenLoopWith (now : Instant) : ℕ → MasterCore Q npdu → MasterCore Q npdu
  | 0, core => core
  | rounds + 1, core =>
    let nextTs := nextAddr core.config.station core.config.maxMaster
    let nextPs := nextAddr core.pollStation core.config.maxMaster
    if !core.soleMaster ∧ core.nextStation = core.config.station then
      queuePollWith idle { core with pollStation := nextTs } .holder now
    else if core.tokenCount < nPoll then
      let core := { core with tokenCount := increment8 core.tokenCount }
      if core.soleMaster then
        match dequeueAndSendWith idle ({ core with frameCount := 0 }.setState .useToken) now with
        | (true, core) => core
        | (false, core) => doneWithTokenLoopWith now rounds core
      else
        queueTokenWith idle { core with retryTokenCount := 0 } core.nextStation .holder now
    else if nextPs = core.nextStation ∨ nextPs = core.config.station then
      let core := { core with pollStation := core.config.station, tokenCount := 1 }
      if core.soleMaster then
        queuePollWith idle
          { core with nextStation := core.config.station, pollStation := nextTs } .holder now
      else
        queueTokenWith idle { core with retryTokenCount := 0 } core.nextStation .holder now
    else queuePollWith idle { core with pollStation := nextPs } .holder now

/-- `N_POLL` rounds bring the next maintenance poll. -/
def doneWithTokenWith (core : MasterCore Q npdu) (now : Instant) : MasterCore Q npdu :=
  doneWithTokenLoopWith idle now (nPoll + 1) core

def driveTokenWith (core : MasterCore Q npdu) (now : Instant) : MasterCore Q npdu :=
  if core.activeTransmit.isSome ∨ core.pendingSend.isSome then core
  else if core.frameCount < core.config.frameLimit then
    match dequeueAndSendWith idle core now with
    | (true, core) => core
    | (false, core) => doneWithTokenWith idle (core.setState .doneWithToken) now
  else doneWithTokenWith idle (core.setState .doneWithToken) now

def useReceivedTokenWith (core : MasterCore Q npdu) (now : Instant) : MasterCore Q npdu :=
  let core := { core.record .tokenTaken with
    soleMaster := false, frameCount := 0, retryTokenCount := 0 }
  driveTokenWith idle (core.setState .useToken) now

/-- Act on a Token remembered while answering a request. -/
def takePendingTokenWith (core : MasterCore Q npdu) (now : Instant) : MasterCore Q npdu :=
  if core.pendingToken then useReceivedTokenWith idle { core with pendingToken := false } now
  else core

end Open

/-- Go idle, with the token-loss timer running from the last activity on the line. -/
def goIdle (core : MasterCore Q npdu) : MasterCore Q npdu :=
  (core.setState .idle).wakeAt (satAdd core.lastActivity tNoToken)

/-- `enter_idle`, gone round `rounds` times at most. -/
def enterIdleRounds : ℕ → MasterCore Q npdu → Instant → MasterCore Q npdu
  | 0, core, _ => core.goIdle
  | rounds + 1, core, now => takePendingTokenWith (enterIdleRounds rounds) core.goIdle now

/-- Go idle, then take up any Token that arrived while this station was answering. -/
def enterIdle (core : MasterCore Q npdu) (now : Instant) : MasterCore Q npdu :=
  enterIdleRounds 2 core now

section Closed

variable (core : MasterCore Q npdu)

def dropPending (now : Instant) : MasterCore Q npdu := dropPendingWith enterIdle core now

def dispatchPendingSend (now : Instant) : MasterCore Q npdu :=
  dispatchPendingSendWith enterIdle core now

def queueFrame (frameType : FrameType) (destination : UInt8) (data : List UInt8)
    (post : PostTransmit) (origin : Origin) (now : Instant) : MasterCore Q npdu :=
  queueFrameWith enterIdle core frameType destination data post origin now

def queuePoll (origin : Origin) (now : Instant) : MasterCore Q npdu :=
  queuePollWith enterIdle core origin now

def queueToken (destination : UInt8) (origin : Origin) (now : Instant) : MasterCore Q npdu :=
  queueTokenWith enterIdle core destination origin now

def driveToken (now : Instant) : MasterCore Q npdu := driveTokenWith enterIdle core now

def useReceivedToken (now : Instant) : MasterCore Q npdu := useReceivedTokenWith enterIdle core now

def takePendingToken (now : Instant) : MasterCore Q npdu := takePendingTokenWith enterIdle core now

def firstSlot : Instant :=
  satAdd (satAdd core.lastActivity tNoToken) (satMul tSlot core.config.station.toNat)

/-- The slot, or when it has closed the window that `now` falls in or the next one: whole cycles
after the first. -/
def generationSlot (now : Instant) : Instant :=
  let cycle := satMul tSlot (core.config.maxMaster.toNat + 1)
  if satAdd core.firstSlot tSlot ≤ now then
    let offset := (now - core.firstSlot) % cycle
    if tSlot ≤ offset then satAdd (now - offset) cycle else now - offset
  else core.firstSlot

/-- The token generated in the window from `start`: a station that knows no other begins with it. -/
def generated (start : Instant) : MasterCore Q npdu :=
  let core :=
    if start ≠ core.firstSlot then core.mapCounters .recordMissedGenerationSlot else core
  { (core.mapCounters .recordTokenRegeneration).record .tokenGenerated with
    nextStation := core.config.station
    tokenCount := 0
    pollStation := nextAddr core.config.station core.config.maxMaster }

/-- Generate a token in this station's slot of the silence, or in a later window if the deadline
came after the slot closed. -/
def generateTokenIfInSlot (now : Instant) : MasterCore Q npdu :=
  let start := core.generationSlot now
  if now < start then core.wakeAt start else (core.generated start).queuePoll .noToken now

def enterNoToken (now : Instant) : MasterCore Q npdu :=
  { core.setState .noToken with retryTokenCount := 0, eventCount := 0 }.generateTokenIfInSlot now

def passTokenTimeout (now : Instant) : MasterCore Q npdu :=
  if nMinOctets < core.eventCount then (core.setState .idle).wakeAt (satAdd now tNoToken)
  else if core.retryTokenCount < nRetryToken then
    queueToken
      ({ core with retryTokenCount := increment8 core.retryTokenCount }.mapCounters
        .recordTokenRetry) core.nextStation .passToken now
  else
    let failed := core.nextStation
    let station := core.config.station
    let next := nextAddr failed core.config.maxMaster
    queuePoll
      { core with
        nextStation := station
        pollStation := if next = station then nextAddr station core.config.maxMaster else next
        retryTokenCount := 0
        tokenCount := 0 } .passToken now

def pollTimeout (now : Instant) : MasterCore Q npdu :=
  if core.soleMaster then ({ core with frameCount := 0 }.setState .useToken).driveToken now
  else if core.nextStation ≠ core.config.station then
    queueToken { core with retryTokenCount := 0 } core.nextStation .holder now
  else
    let next := nextAddr core.pollStation core.config.maxMaster
    if next = core.config.station then
      ({ core with soleMaster := true, frameCount := 0 }.setState .useToken).driveToken now
    else queuePoll { core with pollStation := next } .nextPoll now

/-- A station answered this station's poll: it becomes the successor and gets the token. -/
def takeSuccessor (source : UInt8) (now : Instant) : MasterCore Q npdu :=
  queueToken
    { core with
      nextStation := source
      pollStation := core.config.station
      tokenCount := 0
      retryTokenCount := 0
      soleMaster := false } source .holder now

end Closed

end MasterCore

end RustyBacnet.Mstp
