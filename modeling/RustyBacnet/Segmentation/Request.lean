import RustyBacnet.Segmentation.Response

/-!
# Sending a segmented request

`segmented_confirmed_request` of `bacnet-client`: a window of segments goes out and the client waits
for the SegmentACK of one of them. An expired segment timer sends the window again, as often as the
configuration allows; a SegmentACK outside the window starts the timer over and changes nothing; one
inside the window, negative or not, moves the send behind the segment it names. The windows and how
often each was sent again are kept as a history.

`ack_retries` is one octet and counts past the limit before it is compared, so a limit of 255 is
never passed: its addition overflows (`Overflows`), and where overflow is not trapped the count
starts over at 0.
-/

namespace RustyBacnet.Segmentation

open Encoding

/-! ## The loop's variables -/

inductive RequestError where
  | segmentation (error : SegmentationError)
  | peerSegmentLimit (segments : ℕ) (max : UInt8)
  | encoding (reason : String)
  | remote (error : RemoteError)
  | transport
  deriving DecidableEq

inductive OutgoingSegmentSend where
  | sent
  | terminal (response : TsmResponse)
  | segmentedResponse
  deriving DecidableEq

/-- What a segmented send does not change. -/
structure OutgoingRequest where
  apduRetries : UInt8
  proposedWindowSize : UInt8
  segmentedResponseAccepted : Bool
  maxSegments : Option UInt8
  advertisedMaxApdu : UInt16
  invokeId : UInt8
  serviceChoice : ConfirmedServiceChoice
  segments : List (List UInt8)

/-- Where the send loop is. -/
inductive RequestStage where
  | issuing (seq : ℕ) (again : Bool)
  | awaitingAck
  | awaitingResponse (segmentedResponseStarted : Bool)
  | ended (result : Except RequestError TsmResponse)

/-- A window that was sent, and how often it was sent again. -/
structure SentWindow where
  start : ℕ
  retransmissions : ℕ
  deriving DecidableEq

structure RequestSend where
  windowSize : ℕ
  nextSeq : ℕ
  negAckRetries : UInt32
  windowStart : ℕ
  windowEnd : ℕ
  ackRetries : UInt8
  stage : RequestStage
  /-- The windows so far, the last one first. -/
  windows : List SentWindow
  /-- What was handed to the transport, the last one first. -/
  sent : List ConfirmedRequest

/-- What the loop waits for: the end of a segment's send, and the arms of its `select`. -/
inductive RequestEvent where
  | issued (result : Except RequestError OutgoingSegmentSend)
  | response (response : Option TsmResponse)
  | progress (segmentedResponse : Bool)
  | segmentAck (ack : Option SegmentAck)
  | segmentTimer

def MAX_NEG_ACK_RETRIES : UInt32 := 10

def responseChannelClosed : RequestError := .encoding "TSM response channel closed"

def segmentAckChannelClosed : RequestError := .encoding "SegmentAck channel closed"

def tsmTimeout : RequestError := .remote (.abort AbortReason.TSM_TIMEOUT)

def negativeAckRetriesExhausted : RequestError := .segmentation .negativeAckRetriesExhausted

namespace OutgoingRequest

def totalSegments (request : OutgoingRequest) : ℕ := request.segments.length

/-- Segment `seq` as it is sent. -/
def segmentPdu (request : OutgoingRequest) (seq : ℕ) (segment : List UInt8) : ConfirmedRequest :=
  ⟨true, seq ≠ request.totalSegments - 1, request.segmentedResponseAccepted, request.maxSegments,
    request.advertisedMaxApdu, request.invokeId, some (UInt8.ofNat seq),
    some (max request.proposedWindowSize 1), request.serviceChoice, segment⟩

/-! ## The steps -/

/-- The head of the loop: the next window is opened, or every segment was acknowledged. -/
def openWindow (request : OutgoingRequest) (s : RequestSend) : RequestSend :=
  if s.nextSeq < request.totalSegments then
    { s with
      windowStart := s.nextSeq
      windowEnd := min (s.nextSeq + s.windowSize) request.totalSegments
      stage := .issuing s.nextSeq false
      windows := ⟨s.nextSeq, 0⟩ :: s.windows }
  else { s with stage := .awaitingResponse false }

/-- One segment of the window went out, or its send ended in another way. -/
def issueSegment (request : OutgoingRequest) (s : RequestSend) (seq : ℕ) (again : Bool) :
    Except RequestError OutgoingSegmentSend → RequestSend
  | .error error => { s with stage := .ended (.error error) }
  | .ok (.terminal response) => { s with stage := .ended (.ok response) }
  | .ok .segmentedResponse => { s with stage := .awaitingResponse true }
  | .ok .sent =>
    let s := { s with sent := request.segmentPdu seq (request.segments.getD seq []) :: s.sent }
    if seq + 1 < s.windowEnd then { s with stage := .issuing (seq + 1) again }
    else if again then { s with stage := .awaitingAck }
    else { s with stage := .awaitingAck, ackRetries := 0 }

def inWindow (s : RequestSend) (ack : SegmentAck) : Bool :=
  s.windowStart ≤ ack.sequenceNumber.toNat && ack.sequenceNumber.toNat < s.windowEnd

/-- The loop's tail, behind the SegmentACK that ended the wait. -/
def acknowledge (request : OutgoingRequest) (s : RequestSend) (ack : SegmentAck) : RequestSend :=
  let s := { s with windowSize := max ack.actualWindowSize.toNat 1 }
  if ack.negativeAck then
    let s := { s with negAckRetries := s.negAckRetries + 1 }
    if s.negAckRetries > MAX_NEG_ACK_RETRIES then
      { s with stage := .ended (.error negativeAckRetriesExhausted) }
    else request.openWindow { s with nextSeq := ack.sequenceNumber.toNat + 1 }
  else
    request.openWindow { s with negAckRetries := 0, nextSeq := ack.sequenceNumber.toNat + 1 }

def resent : List SentWindow → List SentWindow
  | [] => []
  | window :: windows => { window with retransmissions := window.retransmissions + 1 } :: windows

/-- The segment timer expired. The octet wraps around where its overflow is not trapped. -/
def retransmit (request : OutgoingRequest) (s : RequestSend) : RequestSend :=
  let s := { s with ackRetries := s.ackRetries + 1 }
  if s.ackRetries > request.apduRetries then { s with stage := .ended (.error tsmTimeout) }
  else { s with stage := .issuing s.windowStart true, windows := resent s.windows }

def step (request : OutgoingRequest) (s : RequestSend) (event : RequestEvent) : RequestSend :=
  match s.stage, event with
  | .issuing seq again, .issued result => request.issueSegment s seq again result
  | .awaitingAck, .response (some response) => { s with stage := .ended (.ok response) }
  | .awaitingAck, .response none => { s with stage := .ended (.error responseChannelClosed) }
  | .awaitingAck, .progress true => { s with stage := .awaitingResponse true }
  | .awaitingAck, .segmentAck none => { s with stage := .ended (.error segmentAckChannelClosed) }
  | .awaitingAck, .segmentAck (some ack) => if inWindow s ack then request.acknowledge s ack else s
  | .awaitingAck, .segmentTimer => request.retransmit s
  | _, _ => s

/-- The state at the head of the loop, with no segment sent. -/
def begin_ (request : OutgoingRequest) : RequestSend :=
  request.openWindow
    ⟨(max request.proposedWindowSize 1).toNat, 0, 0, 0, 0, 0, .awaitingAck, [], []⟩

def run (request : OutgoingRequest) (events : List RequestEvent) : RequestSend :=
  events.foldl request.step request.begin_

end OutgoingRequest

/-- A retry counter is counted past its type's last value. -/
def Overflows (s : RequestSend) (event : RequestEvent) : Prop :=
  match s.stage, event with
  | .awaitingAck, .segmentTimer => s.ackRetries.toNat + 1 ≥ 256
  | .awaitingAck, .segmentAck (some ack) =>
    OutgoingRequest.inWindow s ack ∧ ack.negativeAck ∧ s.negAckRetries.toNat + 1 ≥ 2 ^ 32
  | _, _ => False

/-- What the client is configured with. -/
structure RequestConfig where
  apduRetries : UInt8
  proposedWindowSize : UInt8
  segmentedResponseAccepted : Bool
  maxSegments : Option UInt8
  deriving DecidableEq

def prepareSegmented (config : RequestConfig) (advertisedMaxApdu : UInt16) (invokeId : UInt8)
    (serviceChoice : ConfirmedServiceChoice) (serviceData : List UInt8) (remoteMaxApdu : UInt16)
    (remoteMaxSegments : Option UInt8) : Except RequestError OutgoingRequest :=
  match splitPayload serviceData (maxSegmentPayload remoteMaxApdu .confirmedRequest) with
  | .error error => .error (.segmentation error)
  | .ok segments =>
    let request : OutgoingRequest :=
      ⟨config.apduRetries, config.proposedWindowSize, config.segmentedResponseAccepted,
        config.maxSegments, advertisedMaxApdu, invokeId, serviceChoice, segments⟩
    match remoteMaxSegments with
    | some max =>
      if segments.length > max.toNat then .error (.peerSegmentLimit segments.length max)
      else .ok request
    | none => .ok request

end RustyBacnet.Segmentation
