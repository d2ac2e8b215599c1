import RustyBacnet.Mstp.Receive

/-!
# The calls of a core

`state/input.rs`, `state/transmission.rs` and the rest of `state.rs`: what the line does, the
adapter's transmit events, the deadline, the application's calls, and runs of any of them.
-/

namespace RustyBacnet.Mstp

/-- Why a transmit start was refused. -/
inductive TransmitError where
  | stale
  | deferred
  | expired
  | alreadyStarted
  | notPolled
  deriving DecidableEq

namespace MasterCore

variable {Q : Type} [QueueStorage Q] {npdu : ℕ} (core : MasterCore Q npdu)

/-! ## What the line does -/

def onOctet (byte : UInt8) (now : Instant) : MasterCore Q npdu :=
  let core := core.observeTime now
  let now := core.lastNow
  if core.transmitting then core
  else
    let (timedOut, core) := core.abortPartialIfLate now
    let core := core.noteBusActivity now 1
    let core := if timedOut then core.invalidFrameEvent now else core
    let core := { core with lastOctet := some now }.decodeOctet byte now
    { core with parserPartial := core.decoder.phase ≠ .sync }

def undecodable (frame : Frame) : Bool :=
  let frameType := frame.header.frameType
  let extended := core.config.extendedFrames && frameType.isCobs
  -- A reserved type's data is never used, so it has no maximum.
  let tooLong :=
    if !extended then decide (maxStandardMpduData < frame.data.length)
    else if frameType.isExtendedData then decide (maxExtendedMpduData < frame.data.length)
    else false
  tooLong || frame.header.source = broadcastMac || (frameType.isCobs && !extended)

/-- Feed a frame already validated by a host-side assembler. -/
def onValidatedFrame (frame : Frame) (now : Instant) : MasterCore Q npdu :=
  if core.undecodable frame then core.mapCounters .recordAdapterError
  else
    let core := core.observeTime now
    let now := core.lastNow
    if core.transmitting then core else (core.noteBusActivity now 1).processFrame frame now

/-- Report a frame that a host-side assembler found invalid. -/
def onInvalidFrame (now : Instant) : MasterCore Q npdu :=
  let core := core.observeTime now
  let now := core.lastNow
  if core.transmitting then core
  else ((core.noteBusActivity now 1).mapCounters .recordParserError).invalidFrameEvent now

def onHostActivity (octets : ℕ) (now : Instant) : MasterCore Q npdu :=
  let core := core.observeTime now
  let now := core.lastNow
  if core.transmitting ∨ octets = 0 then core else core.noteBusActivity now (min octets u32Max)

def onReceiveError (error : ReceiveError) (now : Instant) : MasterCore Q npdu :=
  let core := core.observeTime now
  let now := core.lastNow
  if core.transmitting then core
  else
    let core := (core.mapCounters (·.recordReceiveError error)).noteBusActivity now 1
    let invalidCandidate := core.inCandidate
    let core := { core with decoder := core.decoder.reset, parserPartial := false }
    if invalidCandidate then (core.mapCounters .recordParserError).invalidFrameEvent now else core

/-- Abort an expired partial receive, and act on the invalid frame it was. -/
def abortLate (now : Instant) : MasterCore Q npdu :=
  match core.abortPartialIfLate now with
  | (true, core) => core.invalidFrameEvent now
  | (false, core) => core

def onSilence (now : Instant) : MasterCore Q npdu :=
  let core := core.observeTime now
  core.abortLate core.lastNow

/-! ## The adapter's transmit events -/

/-- Confirm the start of a frame whose turnaround has passed. -/
def confirmStart (tx : ActiveTransmit) (pending : PendingSend) (now : Instant) :
    MasterCore Q npdu :=
  let core := (core.abortPartialIfLate now).2
  -- The receiver goes off as the driver goes on, so a frame part received can never complete.
  let core :=
    if core.parserPartial then
      { core with decoder := core.decoder.reset, parserPartial := false }.mapCounters
        .recordFrameAbort
    else core
  { core.record (.started pending.frame pending.origin core.soleMaster now) with
    pendingSend := none
    activeTransmit := some { tx with started := true, assertedAt := now } }

/-- Confirm that the platform is about to start the transfer, and take the octets to send. -/
def onTransmitStarted (id : TransmitId) (now : Instant) :
    Except TransmitError (List UInt8) × MasterCore Q npdu :=
  let core := core.observeTime now
  let now := core.lastNow
  match core.activeTransmit with
  | none => (.error .stale, core)
  | some tx =>
    if tx.id ≠ id then (.error .stale, core)
    else if tx.started then (.error .alreadyStarted, core.mapCounters .recordAdapterError)
    else if core.actions.transmitQueued id then
      (.error .notPolled, core.mapCounters .recordAdapterError)
    else
      match core.pendingSend with
      | none => (.error .stale, core)
      | some pending =>
        let window := pending.origin.window
        if window.any fun window => decide (window.giveUp ≤ now) then
          (.error .expired, core.dropPending now)
        else if now < pending.earliest then
          let core := (core.withdrawTransmit id).mapCounters .recordDeferredStart
          -- Past its limit: drop it now, rather than leave a deadline that is already due.
          (.error .deferred,
            if pending.limit ≤ now then core.dropPending now else core.wakeAt pending.deadline)
        else
          let core :=
            if window.any fun window => decide (window.sendBy < now) then
              core.mapCounters .recordLateReply
            else core
          let core := core.confirmStart tx pending now
          (.ok core.actions.encoded, core)

/-- What follows a transmission that ended at `now`. -/
def afterTransmit (post : PostTransmit) (now : Instant) : MasterCore Q npdu :=
  match post with
  | .idle => core.enterIdle now
  | .continueToken => (core.setState .useToken).driveToken now
  | .waitForReply => (core.setState .waitForReply).wakeAt (satAdd now core.config.tReplyTimeout)
  | .passToken =>
    ({ core.setState .passToken with eventCount := 0 }.wakeAt
      (satAdd now core.config.tUsageTimeout)).mapCounters .recordTokenRotation
  | .pollForMaster =>
    (core.setState .pollForMaster).wakeAt (satAdd now core.config.tUsageTimeout)

def onTransmitComplete (id : TransmitId) (now : Instant) : MasterCore Q npdu :=
  let core := core.observeTime now
  let now := core.lastNow
  match core.activeTransmit with
  | none => core
  | some tx =>
    if tx.id ≠ id then core
    else if !tx.started then core.mapCounters .recordAdapterError
    else
      let core := { core with
        actions := core.actions.queueReceive
        activeTransmit := none
        lastActivity := now }
      let core := (core.mapCounters (·.recordDeAssertion (now - tx.assertedAt))).mapCounters
        .recordFrameTransmitted
      core.afterTransmit tx.post now

/-- Abort the matching transmit and restore the receive direction. -/
def onTransmitAborted (id : TransmitId) (reason : TransmitFailure) (now : Instant) :
    MasterCore Q npdu :=
  let core := core.observeTime now
  let now := core.lastNow
  match core.activeTransmit with
  | none => core
  | some tx =>
    if tx.id ≠ id then core
    else
      let core := core.mapCounters (·.recordTransmitFailure reason)
      let core := (core.withdrawTransmit id).forgetPending
      let core :=
        if tx.started then
          { core with lastActivity := now }.mapCounters
            (·.recordDeAssertion (now - tx.assertedAt))
        else core
      (core.idleFrom now).takePendingToken now

/-- A reply timeout ends this token use; queued frames wait for the next token. -/
def replyTimeout (now : Instant) : MasterCore Q npdu :=
  ({ core with frameCount := core.config.maxInfoFrames.toNat }.setState .doneWithToken).driveToken now

def serviceDeadline (now : Instant) : MasterCore Q npdu :=
  match core.activeTransmit with
  | some tx =>
    if satAdd tx.assertedAt core.config.transmitWatchdog ≤ now then
      core.onTransmitAborted tx.id .timeout now
    else core
  | none =>
    if core.pendingSend.isSome then core.dispatchPendingSend now
    else
      match core.state with
      | .idle => core.enterNoToken now
      | .noToken => core.generateTokenIfInSlot now
      | .waitForReply => core.replyTimeout now
      | .answerDataRequest => core.replyDeadline now
      | .passToken => core.passTokenTimeout now
      | .pollForMaster => core.pollTimeout now
      | .useToken | .doneWithToken => core.driveToken now

/-- Do the work of the next deadline once it is due, and count how late it is. -/
def serviceIfDue (now : Instant) : MasterCore Q npdu :=
  match core.nextDeadline with
  | none => core
  | some deadline =>
    if now < deadline then core
    else
      (core.mapCounters (·.recordDeadline (now - deadline) core.config.lateDeadline)).serviceDeadline
        now

/-- Service the current deadline; an early callback does nothing. -/
def onDeadline (now : Instant) : MasterCore Q npdu :=
  let core := core.observeTime now
  let now := core.lastNow
  (core.abortLate now).serviceIfDue now

/-- Queue an NPDU, with an expiry derived from the configuration. -/
def enqueueNpdu (destination : UInt8) (octets : List UInt8) (priority : NetworkPriority)
    (now : Instant) : Except QueueRefusal Unit × MasterCore Q npdu :=
  -- Taken as every call takes its time, but without moving the clock.
  let now := max now core.lastNow
  if core.config.maxNpdu < octets.length then
    (.error .oversize, core.recordOversizeNpdu (.fromDestination destination))
  else
    let expires := satAdd now core.config.queueMaxAge
    let (result, queues) :=
      QueueStorage.enqueueNpdu core.queues destination octets priority now (some expires)
    (result, { core with queues := queues })

/-- The next action, or `idle` when none is pending. -/
def pollAction : Action × MasterCore Q npdu :=
  let (action, actions) := core.actions.poll
  (action, { core with actions := actions })

/-- The core's counters with the queues' in place of its own queue counters. -/
def mergeQueues (core : MstpCounters) (unicast broadcast : QueueCounters) : MstpCounters :=
  let merge := fun (queue own : QueueCounters) =>
    { queue with dropsOversize := min (queue.dropsOversize + own.dropsOversize) u32Max }
  { core with
    unicast := merge unicast core.unicast
    broadcast := merge broadcast core.broadcast }

/-- The counts since the counters were last taken, which then start again from zero. -/
def takeCounters : MstpCounters × MasterCore Q npdu :=
  let (unicast, queues) := QueueStorage.takeCounters core.queues .unicast
  let (broadcast, queues) := QueueStorage.takeCounters queues .broadcast
  (mergeQueues core.counters unicast broadcast,
    { core.record .countersTaken with counters := {}, queues := queues })

end MasterCore

/-! ## Runs -/

/-- A call of the core's interface that may change it. -/
inductive Call where
  | onOctet (byte : UInt8) (now : Instant)
  | onValidatedFrame (frame : Frame) (now : Instant)
  | onInvalidFrame (now : Instant)
  | onHostActivity (octets : ℕ) (now : Instant)
  | onReceiveError (error : ReceiveError) (now : Instant)
  | onSilence (now : Instant)
  | onDeadline (now : Instant)
  | onTransmitStarted (id : TransmitId) (now : Instant)
  | onTransmitComplete (id : TransmitId) (now : Instant)
  | onTransmitAborted (id : TransmitId) (reason : TransmitFailure) (now : Instant)
  | completeRequest (id : RequestId) (decision : ReplyDecision) (now : Instant)
  | enqueueNpdu (destination : UInt8) (npdu : List UInt8) (priority : NetworkPriority)
      (now : Instant)
  | pollAction
  | takeCounters

namespace MasterCore

variable {Q : Type} [QueueStorage Q] {npdu : ℕ}

def step (core : MasterCore Q npdu) : Call → MasterCore Q npdu
  | .onOctet byte now => core.onOctet byte now
  | .onValidatedFrame frame now => core.onValidatedFrame frame now
  | .onInvalidFrame now => core.onInvalidFrame now
  | .onHostActivity octets now => core.onHostActivity octets now
  | .onReceiveError error now => core.onReceiveError error now
  | .onSilence now => core.onSilence now
  | .onDeadline now => core.onDeadline now
  | .onTransmitStarted id now => (core.onTransmitStarted id now).2
  | .onTransmitComplete id now => core.onTransmitComplete id now
  | .onTransmitAborted id reason now => core.onTransmitAborted id reason now
  | .completeRequest id decision now => (core.completeRequest id decision now).2
  | .enqueueNpdu destination octets priority now =>
    (core.enqueueNpdu destination octets priority now).2
  | .pollAction => core.pollAction.2
  | .takeCounters => core.takeCounters.2

def run (core : MasterCore Q npdu) (calls : List Call) : MasterCore Q npdu :=
  calls.foldl step core

/-- A core built from a validated configuration, after some run of calls. -/
def Reachable (core : MasterCore Q npdu) : Prop :=
  ∃ config queues rxStorage buffers now start calls,
    fromParts config queues rxStorage buffers now = .ok start ∧ run start calls = core

end MasterCore

end RustyBacnet.Mstp
