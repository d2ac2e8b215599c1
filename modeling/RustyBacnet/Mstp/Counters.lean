import RustyBacnet.Time

/-!
# Counters

What a station counts since the counters were last taken. Each count stops at `u32::MAX`. The
depth of a queue is a level: a take leaves it, and sets the high-water mark back to it.
-/

namespace RustyBacnet.Mstp

/-- `u32::MAX`. -/
def u32Max : ℕ := 4294967295

/-- `saturating_add(1)` on a `u32`. -/
def increment (value : ℕ) : ℕ := min (value + 1) u32Max

structure QueueCounters where
  depth : ℕ := 0
  highWater : ℕ := 0
  enqueued : ℕ := 0
  dequeued : ℕ := 0
  dropsFull : ℕ := 0
  dropsOversize : ℕ := 0
  dropsExpired : ℕ := 0
  deriving DecidableEq

namespace QueueCounters

/-- Set the depth and raise the high-water mark to it. -/
def setDepth (c : QueueCounters) (depth : ℕ) : QueueCounters :=
  let depth := min depth u32Max
  { c with depth := depth, highWater := max c.highWater depth }

def recordEnqueue (c : QueueCounters) (depth : ℕ) : QueueCounters :=
  { c with enqueued := increment c.enqueued }.setDepth depth

def recordDequeue (c : QueueCounters) (depth : ℕ) : QueueCounters :=
  { c with dequeued := increment c.dequeued }.setDepth depth

def recordDropFull (c : QueueCounters) : QueueCounters :=
  { c with dropsFull := increment c.dropsFull }

def recordDropOversize (c : QueueCounters) : QueueCounters :=
  { c with dropsOversize := increment c.dropsOversize }

def recordDropExpired (c : QueueCounters) : QueueCounters :=
  { c with dropsExpired := increment c.dropsExpired }

def take (c : QueueCounters) : QueueCounters × QueueCounters :=
  (c, { depth := c.depth, highWater := c.depth })

end QueueCounters

/-- How late serviced deadlines were, in buckets, and the latest. -/
structure LatenessHistogram where
  buckets : List ℕ := List.replicate 6 0
  max : Duration := 0
  deriving DecidableEq

namespace LatenessHistogram

def edges : List Duration :=
  [fromMillis 1, fromMillis 2, fromMillis 5, fromMillis 10, fromMillis 25]

def bucket (lateness : Duration) : ℕ := (edges.filter (· ≤ lateness)).length

def record (h : LatenessHistogram) (lateness : Duration) : LatenessHistogram where
  buckets := h.buckets.modify (bucket lateness) increment
  max := Nat.max h.max lateness

end LatenessHistogram

/-- UART receive failures that count as bus activity. -/
inductive ReceiveError where
  | framing
  | overrun
  | parity
  | break
  deriving DecidableEq

/-- Why a transmit was aborted. -/
inductive TransmitFailure where
  | aborted
  | timeout
  | io
  | rejected
  deriving DecidableEq

structure MstpCounters where
  stateTransitions : ℕ := 0
  lateDeadlines : ℕ := 0
  deadlineLateness : LatenessHistogram := {}
  tokenRotations : ℕ := 0
  tokenRegenerations : ℕ := 0
  missedGenerationSlots : ℕ := 0
  tokenRetries : ℕ := 0
  parserErrors : ℕ := 0
  lateReplies : ℕ := 0
  expiredRequests : ℕ := 0
  cancelledSends : ℕ := 0
  deferredStarts : ℕ := 0
  adapterErrors : ℕ := 0
  internalErrors : ℕ := 0
  discardedWhileBusy : ℕ := 0
  frameAborts : ℕ := 0
  framesReceived : ℕ := 0
  ownAddressFrames : ℕ := 0
  npdusDelivered : ℕ := 0
  framesDelivered : ℕ := 0
  framesTransmitted : ℕ := 0
  deliveryDrops : ℕ := 0
  framingErrors : ℕ := 0
  overrunErrors : ℕ := 0
  parityErrors : ℕ := 0
  breakErrors : ℕ := 0
  transmitAborts : ℕ := 0
  transmitTimeouts : ℕ := 0
  transmitIoErrors : ℕ := 0
  transmitRejections : ℕ := 0
  deAssertion : Duration := 0
  unicast : QueueCounters := {}
  broadcast : QueueCounters := {}
  deriving DecidableEq

namespace MstpCounters

def recordTransition (c : MstpCounters) : MstpCounters :=
  { c with stateTransitions := increment c.stateTransitions }

def recordDeadline (c : MstpCounters) (lateness lateDeadline : Duration) : MstpCounters :=
  let c := { c with deadlineLateness := c.deadlineLateness.record lateness }
  if lateDeadline ≤ lateness then { c with lateDeadlines := increment c.lateDeadlines } else c

def recordLateReply (c : MstpCounters) : MstpCounters :=
  { c with lateReplies := increment c.lateReplies }

def recordExpiredRequest (c : MstpCounters) : MstpCounters :=
  { c with expiredRequests := increment c.expiredRequests }

def recordCancelledSend (c : MstpCounters) : MstpCounters :=
  { c with cancelledSends := increment c.cancelledSends }

def recordDeferredStart (c : MstpCounters) : MstpCounters :=
  { c with deferredStarts := increment c.deferredStarts }

def recordDiscardedWhileBusy (c : MstpCounters) : MstpCounters :=
  { c with discardedWhileBusy := increment c.discardedWhileBusy }

def recordAdapterError (c : MstpCounters) : MstpCounters :=
  { c with adapterErrors := increment c.adapterErrors }

def recordInternalError (c : MstpCounters) : MstpCounters :=
  { c with internalErrors := increment c.internalErrors }

def recordTokenRotation (c : MstpCounters) : MstpCounters :=
  { c with tokenRotations := increment c.tokenRotations }

def recordTokenRegeneration (c : MstpCounters) : MstpCounters :=
  { c with tokenRegenerations := increment c.tokenRegenerations }

def recordMissedGenerationSlot (c : MstpCounters) : MstpCounters :=
  { c with missedGenerationSlots := increment c.missedGenerationSlots }

def recordTokenRetry (c : MstpCounters) : MstpCounters :=
  { c with tokenRetries := increment c.tokenRetries }

def recordParserError (c : MstpCounters) : MstpCounters :=
  { c with parserErrors := increment c.parserErrors }

def recordFrameAbort (c : MstpCounters) : MstpCounters :=
  { c with frameAborts := increment c.frameAborts }

def recordFrameReceived (c : MstpCounters) : MstpCounters :=
  { c with framesReceived := increment c.framesReceived }

def recordOwnAddressFrame (c : MstpCounters) : MstpCounters :=
  { c with ownAddressFrames := increment c.ownAddressFrames }

def recordNpduDelivered (c : MstpCounters) : MstpCounters :=
  { c with npdusDelivered := increment c.npdusDelivered }

def recordFrameDelivered (c : MstpCounters) : MstpCounters :=
  { c with framesDelivered := increment c.framesDelivered }

def recordFrameTransmitted (c : MstpCounters) : MstpCounters :=
  { c with framesTransmitted := increment c.framesTransmitted }

def recordDeliveryDrop (c : MstpCounters) : MstpCounters :=
  { c with deliveryDrops := increment c.deliveryDrops }

def recordDeAssertion (c : MstpCounters) (duration : Duration) : MstpCounters :=
  { c with deAssertion := satAdd c.deAssertion duration }

def recordReceiveError (c : MstpCounters) : ReceiveError → MstpCounters
  | .framing => { c with framingErrors := increment c.framingErrors }
  | .overrun => { c with overrunErrors := increment c.overrunErrors }
  | .parity => { c with parityErrors := increment c.parityErrors }
  | .break => { c with breakErrors := increment c.breakErrors }

def recordTransmitFailure (c : MstpCounters) : TransmitFailure → MstpCounters
  | .aborted => { c with transmitAborts := increment c.transmitAborts }
  | .timeout => { c with transmitTimeouts := increment c.transmitTimeouts }
  | .io => { c with transmitIoErrors := increment c.transmitIoErrors }
  | .rejected => { c with transmitRejections := increment c.transmitRejections }

end MstpCounters

end RustyBacnet.Mstp
