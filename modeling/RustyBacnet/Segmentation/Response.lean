import RustyBacnet.Segmentation.Payload

/-!
# A segmented response

The server's send loop of a segmented ComplexACK (`segmentation.rs`, `segmented_send.rs` of
`bacnet-server`), the client's reassembly of it (`client/segmentation.rs` of `bacnet-client`), and the
network between them.

The network keeps every PDU either side sent and may deliver any of them at any time, any number of
times or never: that is loss, duplication, delay and reordering. What the transaction's other parts
may do to the transfer is a step of its own: timers and cancellation (`ends`), the reclaiming of a
session without a transaction, the phases of a segmented request before the response, a full
coordinator or session table. The sender's timer may fire at any time.
-/

namespace RustyBacnet

open Encoding

namespace AbortReason

def BUFFER_OVERFLOW : AbortReason := ⟨1⟩
def INVALID_APDU_IN_THIS_STATE : AbortReason := ⟨2⟩
def SEGMENTATION_NOT_SUPPORTED : AbortReason := ⟨4⟩
def TSM_TIMEOUT : AbortReason := ⟨10⟩

end AbortReason

inductive RemoteError where
  | error (errorClass : ErrorClass) (errorCode : ErrorCode)
  | reject (reason : RejectReason)
  | abort (reason : AbortReason)
  deriving DecidableEq

/-- What completes a transaction of the client. -/
inductive TsmResponse where
  | simpleAck
  | complexAck (serviceData : List UInt8)
  | remote (error : RemoteError)
  | networkPathTooLong (dnet : UInt16)
  deriving DecidableEq

/-- The answers a request that is still being sent cannot have. -/
def TsmResponse.requiresSentAllSegments : TsmResponse → Bool
  | .simpleAck => true
  | .complexAck _ => true
  | .remote (.error _ _) => true
  | .remote (.reject _) => false
  | .remote (.abort _) => false
  | .networkPathTooLong _ => false

inductive TransactionPhase where
  | awaitingResponse
  | segmentedRequest (sentAllSegments : Bool)
  | segmentedResponse
  deriving DecidableEq

namespace Segmentation

/-! ## The server's sender -/

/-- What both sides of a transfer share. -/
structure Transfer where
  invokeId : UInt8
  serviceChoice : ConfirmedServiceChoice
  segments : List (List UInt8)

def Transfer.totalSegments (transfer : Transfer) : ℕ := transfer.segments.length

inductive SegmentAckDisposition where
  | advance
  | retransmit
  deriving DecidableEq

def segmentAckDisposition (ack : SegmentAck) (current totalSegments : ℕ) :
    Option SegmentAckDisposition :=
  if current ≥ totalSegments then none
  else
    let ackSeq := ack.sequenceNumber.toNat
    if ackSeq ≥ totalSegments then none
    else if ackSeq = current then some .advance
    else if ack.negativeAck ∧ current ≠ 0 ∧ current - 1 = ackSeq then some .retransmit
    else none

/-- Where the send loop is. -/
inductive SendStage where
  | sending
  | waiting
  | finished
  | broken
  deriving DecidableEq

structure Sender where
  segIdx : ℕ
  retransmissionRetries : ℕ
  maxRetries : ℕ
  stage : SendStage
  /-- `current_sequence` of the handle, 65535 before the first segment. -/
  currentSequence : ℕ
  closed : Bool
  queue : List SegmentAck

/-- What ends a wait for a SegmentAck. -/
inductive SegmentedSendWaitResult where
  | segmentAck
  | control
  | channelClosed
  | timeout
  deriving DecidableEq

namespace Sender

def new (maxRetries : ℕ) : Sender := ⟨0, 0, maxRetries, .sending, 65535, false, []⟩

/-- Segment `i` as the server sends it. -/
def segmentPdu (transfer : Transfer) (i : ℕ) (segment : List UInt8) : ComplexAck :=
  ⟨true, i ≠ transfer.totalSegments - 1, transfer.invokeId, some (UInt8.ofNat i), some 1,
    transfer.serviceChoice, segment⟩

/-- The head of the loop. A segment whose send failed may have gone out. -/
def transmit (transfer : Transfer) (sent : Bool) (sender : Sender) : Sender × List Apdu :=
  if sender.stage ≠ .sending then (sender, [])
  else
    match transfer.segments[sender.segIdx]? with
    | none => ({ sender with stage := .finished }, [])
    | some segment =>
      ({ sender with
          currentSequence := sender.segIdx % 65536
          stage := if sent then .waiting else .broken },
        [.complexAck (segmentPdu transfer sender.segIdx segment)])

def takeAck (transfer : Transfer) (ack : SegmentAck) (sender : Sender) : Sender × List Apdu :=
  if ack.sentByServer then (sender, [])
  else
    match segmentAckDisposition ack sender.segIdx transfer.totalSegments with
    | none => (sender, [])
    | some .retransmit =>
      if sender.retransmissionRetries ≥ sender.maxRetries then
        ({ sender with stage := .broken },
          [.abort ⟨true, transfer.invokeId, AbortReason.TSM_TIMEOUT⟩])
      else
        ({ sender with
            retransmissionRetries := sender.retransmissionRetries + 1
            stage := .sending }, [])
    | some .advance =>
      ({ sender with
          retransmissionRetries := 0
          segIdx := sender.segIdx + 1
          stage := .sending }, [])

def wake (transfer : Transfer) (result : SegmentedSendWaitResult) (sender : Sender) :
    Sender × List Apdu :=
  if sender.stage ≠ .waiting then (sender, [])
  else if sender.closed then ({ sender with stage := .broken }, [])
  else
    match result with
    | .control => ({ sender with stage := .broken }, [])
    | .channelClosed => ({ sender with stage := .broken }, [])
    | .timeout =>
      if sender.retransmissionRetries < sender.maxRetries then
        ({ sender with
            retransmissionRetries := sender.retransmissionRetries + 1
            stage := .sending }, [])
      else ({ sender with stage := .broken }, [])
    | .segmentAck =>
      match sender.queue with
      | [] => (sender, [])
      | ack :: queue => takeAck transfer ack { sender with queue := queue }

def acceptsSegmentAck (transfer : Transfer) (sender : Sender) (ack : SegmentAck) : Bool :=
  if ack.sentByServer || sender.closed then false
  else if sender.currentSequence ≥ transfer.totalSegments then false
  else (segmentAckDisposition ack sender.currentSequence transfer.totalSegments).isSome

/-- `route_segmented_send_event`: what the server's dispatch does with a PDU of the client. -/
def route (transfer : Transfer) (apdu : Apdu) (sender : Sender) : Sender :=
  match apdu with
  | .abort abort => if abort.sentByServer then sender else { sender with closed := true }
  | .segmentAck ack =>
    if sender.acceptsSegmentAck transfer ack ∧ sender.queue.length < 16 then
      { sender with queue := sender.queue ++ [ack] }
    else sender
  | _ => sender

end Sender

/-! ## The client's receiver -/

/-- `SegmentedReceiveState` of the client. -/
structure SegmentedReceiveState where
  receiver : SegmentReceiver
  expectedNextSeq : UInt8
  initialSequenceNumber : UInt8
  lastSequenceNumber : UInt8
  duplicateCount : UInt8
  windowPosition : UInt8
  actualWindowSize : UInt8
  acceptedSegments : ℕ

def SegmentedReceiveState.new (proposedWindowSize : UInt8) : SegmentedReceiveState :=
  ⟨.new, 0, 0, 0, 0, 0, proposedWindowSize, 0⟩

/-- The pending entry of the transaction. -/
structure Transaction where
  phase : TransactionPhase
  /-- The final segment of the request is being issued. -/
  polling : Bool
  expectedServiceChoice : ConfirmedServiceChoice

/-- A transaction as it is registered, for a request sent whole or in segments. -/
def Transaction.registered (segmented : Bool) (serviceChoice : ConfirmedServiceChoice) :
    Transaction :=
  ⟨if segmented then .segmentedRequest false else .awaitingResponse, false, serviceChoice⟩

structure ResponseLimits where
  segmentedResponseAccepted : Bool
  maxReassemblySegments : ℕ

/-- The client's side: the transaction while it is pending, the receive session, what the caller was
given and the segments accepted so far. -/
structure Receiver where
  limits : ResponseLimits
  transaction : Option Transaction
  session : Option SegmentedReceiveState
  outcome : Option TsmResponse
  accepted : List (UInt8 × List UInt8)

inductive SegmentedResponseAdmission where
  | active
  | finalSegmentSendPolling
  | initialResponseAborted (wireReason : AbortReason)
  | noTransaction
  deriving DecidableEq

inductive CompletionOutcome where
  | delivered
  | noTransaction
  | serviceChoiceMismatch (expected observed : ConfirmedServiceChoice)
  deriving DecidableEq

namespace Receiver

def new (limits : ResponseLimits) (transaction : Transaction) : Receiver :=
  ⟨limits, some transaction, none, none, []⟩

/-- `complete_transaction_inner` at the transaction. -/
def completeTransaction (observed : Option ConfirmedServiceChoice) (response : TsmResponse)
    (client : Receiver) : CompletionOutcome × Receiver :=
  match client.transaction with
  | none => (.noTransaction, client)
  | some transaction =>
    if response.requiresSentAllSegments ∧ transaction.phase = .segmentedRequest false then
      (.delivered, { client with
        transaction := none
        outcome := some (.remote (.abort AbortReason.INVALID_APDU_IN_THIS_STATE)) })
    else
      match observed with
      | some service =>
        if service ≠ transaction.expectedServiceChoice then
          (.serviceChoiceMismatch transaction.expectedServiceChoice service, client)
        else (.delivered, { client with transaction := none, outcome := some response })
      | none => (.delivered, { client with transaction := none, outcome := some response })

def abortTransaction (reason : AbortReason) (client : Receiver) : Receiver :=
  (client.completeTransaction none (.remote (.abort reason))).2

/-- `admit_segmented_complex_ack`. -/
def admit_ (seq : UInt8) (client : Receiver) : SegmentedResponseAdmission × Receiver :=
  match client.transaction with
  | none => (.noTransaction, client)
  | some transaction =>
    if transaction.phase ≠ .segmentedResponse ∧ seq ≠ 0 then
      (.initialResponseAborted AbortReason.INVALID_APDU_IN_THIS_STATE,
        client.abortTransaction AbortReason.INVALID_APDU_IN_THIS_STATE)
    else if transaction.phase ≠ .segmentedResponse ∧ !client.limits.segmentedResponseAccepted then
      (.initialResponseAborted AbortReason.SEGMENTATION_NOT_SUPPORTED,
        client.abortTransaction AbortReason.INVALID_APDU_IN_THIS_STATE)
    else if transaction.phase = .segmentedRequest false then
      if transaction.polling then (.finalSegmentSendPolling, client)
      else (.initialResponseAborted AbortReason.INVALID_APDU_IN_THIS_STATE,
        client.abortTransaction AbortReason.INVALID_APDU_IN_THIS_STATE)
    else (.active, client)

/-- `begin_segmented_response`: the first segment was saved. -/
def beginSegmentedResponse (client : Receiver) : Receiver :=
  { client with
    transaction := client.transaction.map fun transaction =>
      if transaction.phase = .segmentedRequest false then transaction
      else { transaction with phase := .segmentedResponse } }

/-- `reset_segmented_response`: the reassembly was not the response. -/
def resetSegmentedResponse (client : Receiver) : Receiver :=
  { client with
    transaction := client.transaction.map fun transaction =>
      if transaction.phase = .segmentedResponse then { transaction with phase := .awaitingResponse }
      else transaction }

def clientAbort (transfer : Transfer) (reason : AbortReason) : Apdu :=
  .abort ⟨false, transfer.invokeId, reason⟩

/-- The session ends and the transaction completes with the Abort that goes out. -/
def abortReassembly (transfer : Transfer) (reason : AbortReason) (client : Receiver) :
    Receiver × List Apdu :=
  (abortTransaction reason { client with session := none }, [clientAbort transfer reason])

/-- A segment that is not the next one: a duplicate or a gap. -/
def outOfOrder (transfer : Transfer) (seq : UInt8) (state : SegmentedReceiveState)
    (client : Receiver) : Receiver × List Apdu :=
  let duplicate := duplicateInWindow seq state.initialSequenceNumber state.lastSequenceNumber
  if duplicate ∧ state.duplicateCount < state.actualWindowSize then
    ({ client with
      session := some { state with duplicateCount := state.duplicateCount + 1 } }, [])
  else
    let state' : SegmentedReceiveState :=
      if duplicate then { state with duplicateCount := 0 }
      else { state with initialSequenceNumber := state.lastSequenceNumber, duplicateCount := 0 }
    let negAck : SegmentAck :=
      ⟨true, false, transfer.invokeId, state'.lastSequenceNumber, state'.actualWindowSize⟩
    ({ client with session := some state' },
      if (encodeSegmentAck [] negAck).1 = .ok () then [.segmentAck negAck] else [])

/-- The state after the next segment, and whether it is acknowledged. -/
def advance (seq : UInt8) (moreFollows : Bool) (receiver : SegmentReceiver)
    (state : SegmentedReceiveState) : Bool × SegmentedReceiveState :=
  let state : SegmentedReceiveState :=
    { state with
      receiver := receiver
      acceptedSegments := state.acceptedSegments + 1
      expectedNextSeq := seq + 1
      lastSequenceNumber := seq
      windowPosition := state.windowPosition + 1 }
  if !moreFollows || state.windowPosition ≥ state.actualWindowSize then
    (true, { state with
      windowPosition := 0
      initialSequenceNumber := state.lastSequenceNumber
      duplicateCount := 0 })
  else (false, state)

/-- All segments are here: the session ends and the transaction completes with them. -/
def finish (serviceChoice : ConfirmedServiceChoice) (receiver : SegmentReceiver)
    (client : Receiver) : Receiver :=
  let client := { client with session := none }
  match receiver.reassemble receiver.receivedCount with
  | .ok serviceData =>
    match client.completeTransaction (some serviceChoice) (.complexAck serviceData) with
    | (.serviceChoiceMismatch _ _, client) => client.resetSegmentedResponse
    | (_, client) => client
  | .error _ => client.resetSegmentedResponse

/-- The next segment was saved in `receiver`. -/
def accept (transfer : Transfer) (ack : ComplexAck) (seq : UInt8) (receiver : SegmentReceiver)
    (state : SegmentedReceiveState) (client : Receiver) : Receiver × List Apdu :=
  let client := if state.acceptedSegments = 0 then client.beginSegmentedResponse else client
  let client := { client with accepted := client.accepted ++ [(seq, ack.serviceAck)] }
  let advanced := advance seq ack.moreFollows receiver state
  let client := { client with session := some advanced.2 }
  let segAck : SegmentAck :=
    ⟨false, false, transfer.invokeId, seq, advanced.2.actualWindowSize⟩
  if advanced.1 ∧ (encodeSegmentAck [] segAck).1 ≠ .ok () then (client, [])
  else
    (if ack.moreFollows then client else client.finish ack.serviceChoice advanced.2.receiver,
      if advanced.1 then [.segmentAck segAck] else [])

def receiveSegment (transfer : Transfer) (ack : ComplexAck) (seq : UInt8)
    (state : SegmentedReceiveState) (client : Receiver) : Receiver × List Apdu :=
  if state.acceptedSegments > 0 ∧
      client.transaction.all fun transaction => transaction.phase ≠ .segmentedResponse then
    ({ client with session := none },
      [clientAbort transfer AbortReason.INVALID_APDU_IN_THIS_STATE])
  else if seq ≠ state.expectedNextSeq then client.outOfOrder transfer seq state
  else if state.acceptedSegments ≥ client.limits.maxReassemblySegments then
    client.abortReassembly transfer AbortReason.BUFFER_OVERFLOW
  else
    match state.receiver.receive seq ack.serviceAck with
    | .error _ => client.abortReassembly transfer AbortReason.BUFFER_OVERFLOW
    | .ok receiver => client.accept transfer ack seq receiver state

/-- `handle_segmented_complex_ack`. A segment that arrives while the request's final segment is
being issued waits, and is admitted again. -/
def handleSegmentedComplexAck (transfer : Transfer) (coordinatorAdmits : Bool) (otherSessions : ℕ)
    (ack : ComplexAck) (client : Receiver) : Receiver × List Apdu :=
  let seq := ack.sequenceNumber.getD 0
  match client.admit_ seq with
  | (.noTransaction, client) =>
    ({ client with session := none },
      [clientAbort transfer AbortReason.INVALID_APDU_IN_THIS_STATE])
  | (.initialResponseAborted wireReason, client) =>
    ({ client with session := none }, [clientAbort transfer wireReason])
  | (.finalSegmentSendPolling, client) => (client, [])
  | (.active, client) =>
    if !coordinatorAdmits then (client, [])
    else
      match client.session with
      | none =>
        if otherSessions ≥ 64 then client.abortReassembly transfer AbortReason.BUFFER_OVERFLOW
        else client.receiveSegment transfer ack seq (.new (ack.proposedWindowSize.getD 1))
      | some state => client.receiveSegment transfer ack seq state

/-- The transaction ends without a ComplexACK: a timer, a cancellation or a remote error. -/
def ends (error : Option RemoteError) (client : Receiver) : Receiver :=
  match client.transaction with
  | none => client
  | some _ => { client with transaction := none, outcome := error.map .remote }

/-- The reclaiming of a session whose transaction is gone. -/
def cleanup (client : Receiver) : Receiver :=
  if client.transaction.isNone then { client with session := none } else client

/-- A phase of the request before its response. -/
inductive RequestProgress where
  | polling
  | issued
  | failed
  | finished
  deriving DecidableEq

def progressed (progress : RequestProgress) (transaction : Transaction) : Transaction :=
  match transaction.phase, progress with
  | .segmentedRequest false, .polling => { transaction with polling := true }
  | .segmentedRequest false, .issued =>
    { transaction with phase := .segmentedRequest true, polling := false }
  | _, .failed => { transaction with polling := false }
  | .segmentedRequest true, .finished => { transaction with phase := .awaitingResponse }
  | _, _ => transaction

end Receiver

/-! ## The network -/

structure ResponseWorld where
  server : Sender
  client : Receiver
  /-- Every PDU the server sent. -/
  toClient : List Apdu
  /-- Every PDU the client sent. -/
  toServer : List Apdu

inductive ResponseEvent where
  | transmit (sent : Bool)
  | wake (result : SegmentedSendWaitResult)
  | reachesServer (index : ℕ)
  | reachesClient (index : ℕ) (coordinatorAdmits : Bool) (otherSessions : ℕ)
  | requestProgress (progress : Receiver.RequestProgress)
  | ends (error : Option RemoteError)
  | cleanup

namespace ResponseWorld

/-- The server has the response to a request of the client, sent whole or in segments. -/
def start (transfer : Transfer) (maxRetries : ℕ) (limits : ResponseLimits) (segmented : Bool) :
    ResponseWorld :=
  ⟨.new maxRetries, .new limits (.registered segmented transfer.serviceChoice), [], []⟩

def clientReceives (transfer : Transfer) (coordinatorAdmits : Bool) (otherSessions : ℕ)
    (apdu : Apdu) (client : Receiver) : Receiver × List Apdu :=
  match apdu with
  | .complexAck ack => client.handleSegmentedComplexAck transfer coordinatorAdmits otherSessions ack
  | .abort abort =>
    if abort.sentByServer ∧ coordinatorAdmits then
      ({ client.ends (some (.abort abort.abortReason)) with session := none }, [])
    else (client, [])
  | _ => (client, [])

def step (transfer : Transfer) (world : ResponseWorld) : ResponseEvent → ResponseWorld
  | .transmit sent =>
    let (server, sent) := world.server.transmit transfer sent
    { world with server := server, toClient := world.toClient ++ sent }
  | .wake result =>
    let (server, sent) := world.server.wake transfer result
    { world with server := server, toClient := world.toClient ++ sent }
  | .reachesServer index =>
    match world.toServer[index]? with
    | none => world
    | some apdu => { world with server := world.server.route transfer apdu }
  | .reachesClient index coordinatorAdmits otherSessions =>
    match world.toClient[index]? with
    | none => world
    | some apdu =>
      let (client, sent) := clientReceives transfer coordinatorAdmits otherSessions apdu world.client
      { world with client := client, toServer := world.toServer ++ sent }
  | .requestProgress progress =>
    { world with
      client := { world.client with
        transaction := world.client.transaction.map (Receiver.progressed progress) } }
  | .ends error => { world with client := world.client.ends error }
  | .cleanup => { world with client := world.client.cleanup }

def run (transfer : Transfer) (events : List ResponseEvent) (world : ResponseWorld) :
    ResponseWorld :=
  events.foldl (step transfer) world

end ResponseWorld

end Segmentation

end RustyBacnet
