import RustyBacnet.Mstp.Actions
import RustyBacnet.Mstp.Config
import RustyBacnet.Mstp.Stream

/-!
# The state of a master

`state.rs`: the state names of Clause 9.5.6, what a station waits for, and the core with all its
variables. The core also keeps a `history` of what happened, newest first, and each waiting frame
keeps the frame it was made from; no transition reads either, they are there for what is said of
runs. `tripped` records that a debug assertion failed; as in a release build, the core goes on.
-/

namespace RustyBacnet.Mstp

inductive MasterState where
  | idle
  | noToken
  | useToken
  | doneWithToken
  | passToken
  | waitForReply
  | pollForMaster
  | answerDataRequest
  deriving DecidableEq

/-- The application's decision on a request. -/
inductive ReplyDecision where
  | data (data : List UInt8)
  | postponed
  | abandoned
  deriving DecidableEq

/-- When an answer to a received frame may still go out. -/
structure ReplyWindow where
  /-- An answer that starts later is counted late. -/
  sendBy : Instant
  /-- From here on the asker may be transmitting again, so nothing is sent. -/
  giveUp : Instant
  deriving DecidableEq

structure PendingRequest where
  id : RequestId
  source : UInt8
  /-- When the core stops waiting for the application and sends Reply Postponed. -/
  decideBy : Instant
  window : ReplyWindow
  deriving DecidableEq

/-- What follows a transmission. -/
inductive PostTransmit where
  | idle
  | continueToken
  | waitForReply
  | passToken
  | pollForMaster
  deriving DecidableEq

/-- A frame handed to the adapter, from the hand-over until it is over. -/
structure ActiveTransmit where
  id : TransmitId
  assertedAt : Instant
  /-- The adapter confirmed the start; until then the frame is also still the waiting one. -/
  started : Bool
  post : PostTransmit
  deriving DecidableEq

/-- What made a frame that waits to go out. -/
inductive Origin where
  | answer (window : ReplyWindow)
  | holder
  | nextPoll
  | passToken
  | noToken
  deriving DecidableEq

def Origin.isAnswer : Origin → Bool
  | .answer _ => true
  | _ => false

def Origin.window : Origin → Option ReplyWindow
  | .answer window => some window
  | .holder | .nextPoll | .passToken | .noToken => none

/-- A frame made but not yet started on the wire. -/
structure PendingSend where
  post : PostTransmit
  origin : Origin
  /-- T_turnaround after the last line activity. -/
  earliest : Instant
  /-- From here on the frame is dropped rather than sent. -/
  limit : Instant
  /-- The frame the transition named. -/
  frame : Frame
  deriving DecidableEq

def PendingSend.deadline (p : PendingSend) : Instant := min p.earliest p.limit

/-- What happened, as statements about runs name it. -/
inductive CoreEvent where
  | enteredIdle
  /-- A Token addressed to this station was taken up. -/
  | tokenTaken
  /-- A token was generated from NO_TOKEN. -/
  | tokenGenerated
  /-- A Test_Request, a Poll For Master or, with `data`, a data request was taken for answering. -/
  | owed (asker : UInt8) (data : Bool)
  /-- The application abandoned the request. -/
  | abandoned
  /-- An answer was given up, and counted. -/
  | expired
  | countersTaken
  /-- The adapter confirmed the start of a frame. -/
  | started (frame : Frame) (origin : Origin) (soleMaster : Bool) (now : Instant)
  deriving DecidableEq

/-- The master core over queues `Q` and delivery slots of `npdu` octets. -/
structure MasterCore (Q : Type) (npdu : ℕ) where
  config : MstpCoreConfig
  queues : Q
  decoder : StreamDecoder
  actions : ActionQueue npdu
  state : MasterState
  nextStation : UInt8
  pollStation : UInt8
  tokenCount : ℕ
  frameCount : ℕ
  retryTokenCount : ℕ
  eventCount : ℕ
  soleMaster : Bool
  /-- A Token for this station arrived while it was answering a request. -/
  pendingToken : Bool
  pendingRequest : Option PendingRequest
  nextRequestGeneration : ℕ
  activeTransmit : Option ActiveTransmit
  pendingSend : Option PendingSend
  nextTransmitGeneration : ℕ
  protocolDeadline : Option Instant
  lastActivity : Instant
  lastOctet : Option Instant
  parserPartial : Bool
  lastNow : Instant
  consecutiveBroadcast : ℕ
  counters : MstpCounters
  history : List CoreEvent
  tripped : Bool

/-- The address after `current`, modulo Max_Master + 1. -/
def nextAddr (current maxMaster : UInt8) : UInt8 :=
  match compare current maxMaster with
  | .lt => current + 1
  | .eq => 0
  | .gt => UInt8.ofNat ((current.toNat + 1) % (maxMaster.toNat + 1))

/-- `saturating_add(1)` on a `u8`. -/
def increment8 (value : ℕ) : ℕ := min (value + 1) 255

def minRxStorage : ℕ := preamble.length + headerLength

namespace MasterCore

variable {Q : Type} [QueueStorage Q] {npdu : ℕ}

/-- With extended frames on, every buffer must hold what an extended frame needs. -/
def checkExtendedStorage (queues : Q) (rxStorage : List UInt8) (buffers : ActionBuffers npdu) :
    Except ConfigError Unit :=
  [(CoreBuffer.receiveStorage, rxStorage.length, maxExtendedFrameLength),
    (.transmitFrame, buffers.frame.length, maxExtendedFrameLength),
    (.deliverySlot, npdu, maxExtendedMpduData),
    (.queueSlot, QueueStorage.maxNpdu queues, maxExtendedMpduData)].forM
    fun (buffer, length, minimum) =>
      MstpCoreConfig.check (minimum ≤ length) (.extendedStorageTooSmall buffer length minimum)

/-- The core in IDLE at `now`, over its parts. -/
def start (config : MstpCoreConfig) (queues : Q) (rxStorage : List UInt8)
    (buffers : ActionBuffers npdu) (now : Instant) : MasterCore Q npdu where
  config := config
  queues := QueueStorage.setStarvationLimit queues config.starvationLimit
  decoder :=
    if config.extendedFrames then (StreamDecoder.new rxStorage).withReservedCobs
    else StreamDecoder.new rxStorage
  actions := ActionQueue.new buffers
  state := .idle
  nextStation := config.station
  pollStation := config.station
  tokenCount := nPoll
  frameCount := 0
  retryTokenCount := 0
  eventCount := 0
  soleMaster := false
  pendingToken := false
  pendingRequest := none
  nextRequestGeneration := 0
  activeTransmit := none
  pendingSend := none
  nextTransmitGeneration := 0
  protocolDeadline := some (satAdd now tNoToken)
  lastActivity := now
  lastOctet := none
  parserPartial := false
  lastNow := now
  consecutiveBroadcast := 0
  counters := {}
  history := []
  tripped := false

def fromParts (config : MstpCoreConfig) (queues : Q) (rxStorage : List UInt8)
    (buffers : ActionBuffers npdu) (now : Instant) : Except ConfigError (MasterCore Q npdu) := do
  config.validate
  MstpCoreConfig.check (minRxStorage ≤ rxStorage.length)
    (.receiveStorageTooSmall rxStorage.length minRxStorage)
  if config.extendedFrames then checkExtendedStorage queues rxStorage buffers
  return start config queues rxStorage buffers now

section Basics

variable (core : MasterCore Q npdu)

def record (event : CoreEvent) : MasterCore Q npdu :=
  { core with history := event :: core.history }

/-- `debug_assert!`. -/
def debugAssert (holds : Bool) : MasterCore Q npdu :=
  { core with tripped := core.tripped || !holds }

/-- Take the time of a call: `now`, or the latest time passed in when `now` is earlier. -/
def observeTime (now : Instant) : MasterCore Q npdu :=
  { core with lastNow := max core.lastNow now }

def mapCounters (f : MstpCounters → MstpCounters) : MasterCore Q npdu :=
  { core with counters := f core.counters }

def setState (state : MasterState) : MasterCore Q npdu :=
  if core.state = state then core
  else
    let core := { core with state := state, counters := core.counters.recordTransition }
    if state = .idle then core.record .enteredIdle else core

def wakeAt (deadline : Instant) : MasterCore Q npdu :=
  { core with protocolDeadline := some deadline }

def recordExpiredRequest : MasterCore Q npdu :=
  (core.mapCounters .recordExpiredRequest).record .expired

/-- Count an NPDU refused or dropped as too long to send. -/
def recordOversizeNpdu (kind : QueueKind) : MasterCore Q npdu :=
  core.mapCounters fun c =>
    match kind with
    | .unicast => { c with unicast := c.unicast.recordDropOversize }
    | .broadcast => { c with broadcast := c.broadcast.recordDropOversize }

/-- The adapter is sending a frame whose start it confirmed. -/
def transmitting : Bool := core.activeTransmit.any (·.started)

/-- The earliest parser, protocol or watchdog deadline. -/
def nextDeadline : Option Instant :=
  let parser :=
    if core.parserPartial then
      core.lastOctet.map fun lastOctet =>
        satAdd (satAdd lastOctet core.config.tFrameAbort) (fromMicros 1)
    else none
  let watchdog :=
    core.activeTransmit.map fun tx => satAdd tx.assertedAt core.config.transmitWatchdog
  earliest [core.protocolDeadline, parser, watchdog]

def dispatchFrame (post : PostTransmit) (now : Instant) : MasterCore Q npdu :=
  let core := core.debugAssert core.activeTransmit.isNone
  let id : TransmitId := ⟨core.nextTransmitGeneration⟩
  { core with
    nextTransmitGeneration := nextGeneration core.nextTransmitGeneration
    actions := core.actions.queueTransmit id
    activeTransmit := some ⟨id, now, false, post⟩
    protocolDeadline := none }

/-- Take a transmit back, and queue the switch back to receive. -/
def withdrawTransmit (id : TransmitId) : MasterCore Q npdu :=
  { core with
    actions := (core.actions.purgeTransmit id).queueReceive
    activeTransmit := none }

/-- Forget the waiting frame, counting it as given up. -/
def forgetPending : MasterCore Q npdu :=
  match core.pendingSend with
  | none => core
  | some pending =>
    let core := { core with pendingSend := none }
    if pending.origin.isAnswer then core.recordExpiredRequest
    else core.mapCounters .recordCancelledSend

/-- Give up the waiting frame, taking it back from the adapter if it was handed over. -/
def discardPending : MasterCore Q npdu :=
  let core :=
    match core.activeTransmit with
    | some tx => if tx.started then core else core.withdrawTransmit tx.id
    | none => core
  core.forgetPending

end Basics

end MasterCore

end RustyBacnet.Mstp
