import Mathlib.Data.List.Basic

/-!
# Event detectors

`event.rs`: the delayed transitions of intrinsic reporting. The three detectors differ in the state
a value asks for; fault precedence, the countdown and the transitions are theirs in common, so they
are stated once, over an `Algorithm`.
-/

namespace RustyBacnet.Events

/-- `EventState`, any number of which may come from a peer. -/
structure EventState where
  raw : UInt32
  deriving DecidableEq

namespace EventState

def normal : EventState := ⟨0⟩
def fault : EventState := ⟨1⟩
def offnormal : EventState := ⟨2⟩
def highLimit : EventState := ⟨3⟩
def lowLimit : EventState := ⟨4⟩

end EventState

structure Reliability where
  raw : UInt32
  deriving DecidableEq

def Reliability.noFaultDetected : Reliability := ⟨0⟩

structure EventType where
  raw : UInt32
  deriving DecidableEq

namespace EventType

def changeOfState : EventType := ⟨1⟩
def commandFailure : EventType := ⟨3⟩
def outOfRange : EventType := ⟨5⟩
def changeOfReliability : EventType := ⟨19⟩

end EventType

/-! ## Transitions -/

/-- The category of a transition. -/
inductive EventTransition where
  | toOffnormal
  | toFault
  | toNormal
  deriving DecidableEq

def EventTransition.forTargetState (state : EventState) : EventTransition :=
  if state = .normal then .toNormal
  else if state = .fault then .toFault
  else .toOffnormal

/-- A flag for each category. -/
structure EventTransitionBits where
  toOffnormal : Bool
  toFault : Bool
  toNormal : Bool
  deriving DecidableEq

def EventTransitionBits.contains (bits : EventTransitionBits) : EventTransition → Bool
  | .toOffnormal => bits.toOffnormal
  | .toFault => bits.toFault
  | .toNormal => bits.toNormal

structure EventStateChange where
  before : EventState
  target : EventState
  deriving DecidableEq

def EventStateChange.eventType (change : EventStateChange) (algorithm : EventType) : EventType :=
  if change.before = .fault ∨ change.target = .fault then .changeOfReliability else algorithm

/-- A transition, and whether it is distributed. -/
structure TransitionOutcome where
  change : EventStateChange
  eventType : EventType
  distribute : Bool
  deriving DecidableEq

/-- A transition waiting for its delay. -/
structure PendingTransition where
  state : EventState
  remaining : ℕ
  deriving DecidableEq

def delayToward (timeDelay : ℕ) (timeDelayNormal : Option ℕ) (target : EventState) : ℕ :=
  if target = .normal then timeDelayNormal.getD timeDelay else timeDelay

inductive FaultPrecedence where
  | enterFault
  | holdFault
  | reenterFault
  | recoverToNormal
  | runAlgorithm
  deriving DecidableEq

def faultPrecedence (reliability : Reliability) (faultReliability : Option Reliability)
    (current : EventState) : FaultPrecedence :=
  if reliability ≠ .noFaultDetected then
    if current ≠ .fault then .enterFault
    else if faultReliability = some reliability then .holdFault
    else .reenterFault
  else if current = .fault then .recoverToNormal
  else .runAlgorithm

/-! ## A detector -/

/-- An event algorithm: the state a value asks for, which is FAULT only where FAULT holds. -/
structure Algorithm (Value : Type) where
  eventType : EventType
  computeNewState : EventState → Value → EventState
  fault_only : ∀ state value, state ≠ .fault → computeNewState state value ≠ .fault

/-- What an operator sets: `Event_Enable` and the two delays. -/
structure Settings where
  eventEnable : EventTransitionBits
  timeDelay : ℕ
  timeDelayNormal : Option ℕ
  deriving DecidableEq

structure Detector where
  settings : Settings
  eventState : EventState
  pending : Option PendingTransition
  faultReliability : Option Reliability
  deriving DecidableEq

namespace Detector

variable {Value : Type} (algorithm : Algorithm Value)

def initial (settings : Settings) : Detector where
  settings := settings
  eventState := .normal
  pending := none
  faultReliability := none

def delay (detector : Detector) (target : EventState) : ℕ :=
  delayToward detector.settings.timeDelay detector.settings.timeDelayNormal target

def proposal (detector : Detector) (newState : EventState) : Option TransitionOutcome :=
  let change : EventStateChange := ⟨detector.eventState, newState⟩
  some {
    change := change
    eventType := change.eventType algorithm.eventType
    distribute := detector.settings.eventEnable.contains (.forTargetState newState) }

/-- The transition of fault precedence, or none when the algorithm is to run. -/
def faultProposal (detector : Detector) (reliability : Reliability) :
    Option (Option TransitionOutcome) :=
  match faultPrecedence reliability detector.faultReliability detector.eventState with
  | .enterFault => some (detector.proposal algorithm .fault)
  | .reenterFault => some (detector.proposal algorithm .fault)
  | .holdFault => some none
  | .recoverToNormal => some (detector.proposal algorithm .normal)
  | .runAlgorithm => none

/-- The countdown is dropped, and an offnormal state goes back to NORMAL. -/
def inhibitedTarget (detector : Detector) : Detector × Option EventState :=
  ({ detector with pending := none },
    if detector.eventState ≠ .normal then some .normal else none)

def propose (detector : Detector) (value : Value) (reliability : Reliability) (inhibited : Bool) :
    Detector × Option TransitionOutcome :=
  match detector.faultProposal algorithm reliability with
  | some result => (detector, result)
  | none =>
    if inhibited then
      (detector.inhibitedTarget.1, detector.inhibitedTarget.2.bind (detector.proposal algorithm))
    else
      let desired := algorithm.computeNewState detector.eventState value
      if desired = detector.eventState then ({ detector with pending := none }, none)
      else if detector.delay desired = 0 then (detector, detector.proposal algorithm desired)
      else if detector.pending.map (·.state) ≠ some desired then
        ({ detector with pending := some ⟨desired, detector.delay desired⟩ }, none)
      else (detector, none)

def tickProposal (detector : Detector) (value : Value) (reliability : Reliability)
    (inhibited : Bool) : Detector × Option TransitionOutcome :=
  match detector.faultProposal algorithm reliability with
  | some result => (detector, result)
  | none =>
    if inhibited then
      (detector.inhibitedTarget.1, detector.inhibitedTarget.2.bind (detector.proposal algorithm))
    else
      let desired := algorithm.computeNewState detector.eventState value
      if desired = detector.eventState then ({ detector with pending := none }, none)
      else
        match detector.pending with
        | some waiting =>
          if waiting.state = desired then
            if waiting.remaining > 1 then
              ({ detector with pending := some ⟨waiting.state, waiting.remaining - 1⟩ }, none)
            else (detector, detector.proposal algorithm desired)
          else ({ detector with pending := some ⟨desired, detector.delay desired⟩ }, none)
        | none => ({ detector with pending := some ⟨desired, detector.delay desired⟩ }, none)

def confirmTransition (detector : Detector) (change : EventStateChange)
    (reliability : Reliability) : Detector :=
  { detector with
    eventState := change.target
    pending := none
    faultReliability := if change.target = .fault then some reliability else none }

/-- A proposal, and the detector once it is confirmed. -/
def confirmed (reliability : Reliability) (proposed : Detector × Option TransitionOutcome) :
    Detector × Option TransitionOutcome :=
  match proposed.2 with
  | some outcome => (proposed.1.confirmTransition outcome.change reliability, some outcome)
  | none => (proposed.1, none)

def probe (detector : Detector) (value : Value) (reliability : Reliability) :
    Detector × Option TransitionOutcome :=
  confirmed reliability (detector.propose algorithm value reliability false)

def tick (detector : Detector) (value : Value) (reliability : Reliability) :
    Detector × Option TransitionOutcome :=
  confirmed reliability (detector.tickProposal algorithm value reliability false)

end Detector

/-! ## The three detectors -/

namespace OutOfRangeDetector

/-- The enabled limits, and the float comparisons of a value with them: `>` the high limit, `<` the
low one, `<` the high less the deadband, `>` the low more the deadband. Nothing is assumed of the
comparisons. -/
structure Limits (Value : Type) where
  highEnabled : Bool
  lowEnabled : Bool
  aboveHigh : EventState → Value → Bool
  belowLow : EventState → Value → Bool
  clearOfHigh : EventState → Value → Bool
  clearOfLow : EventState → Value → Bool

variable {Value : Type}

def computeNewState (limits : Limits Value) (state : EventState) (pv : Value) : EventState :=
  if state = .normal then
    if limits.highEnabled && limits.aboveHigh state pv then .highLimit
    else if limits.lowEnabled && limits.belowLow state pv then .lowLimit
    else .normal
  else if state = .highLimit then
    if limits.lowEnabled && limits.belowLow state pv then .lowLimit
    else if limits.clearOfHigh state pv then .normal
    else .highLimit
  else if state = .lowLimit then
    if limits.highEnabled && limits.aboveHigh state pv then .highLimit
    else if limits.clearOfLow state pv then .normal
    else .lowLimit
  else state

theorem computeNewState_fault_only (limits : Limits Value) (state : EventState) (pv : Value)
    (h : state ≠ .fault) : computeNewState limits state pv ≠ .fault := by
  unfold computeNewState
  split_ifs <;> first | exact h | decide

def algorithm (limits : Limits Value) : Algorithm Value where
  eventType := .outOfRange
  computeNewState := computeNewState limits
  fault_only := computeNewState_fault_only limits

end OutOfRangeDetector

namespace ChangeOfStateDetector

def computeNewState (alarmValues : List UInt32) (presentValue : UInt32) : EventState :=
  if alarmValues.contains presentValue then .offnormal else .normal

theorem computeNewState_fault_only (alarmValues : List UInt32) (presentValue : UInt32) :
    computeNewState alarmValues presentValue ≠ .fault := by
  unfold computeNewState
  split_ifs <;> decide

def algorithm (alarmValues : List UInt32) : Algorithm UInt32 where
  eventType := .changeOfState
  computeNewState := fun _ => computeNewState alarmValues
  fault_only := fun _ presentValue _ => computeNewState_fault_only alarmValues presentValue

end ChangeOfStateDetector

namespace CommandFailureDetector

def computeNewState (presentValue feedbackValue : UInt32) : EventState :=
  if presentValue ≠ feedbackValue then .offnormal else .normal

theorem computeNewState_fault_only (presentValue feedbackValue : UInt32) :
    computeNewState presentValue feedbackValue ≠ .fault := by
  unfold computeNewState
  split_ifs <;> decide

/-- Its values are a present value with its feedback value. -/
def algorithm : Algorithm (UInt32 × UInt32) where
  eventType := .commandFailure
  computeNewState := fun _ values => computeNewState values.1 values.2
  fault_only := fun _ values _ => computeNewState_fault_only values.1 values.2

end CommandFailureDetector

end RustyBacnet.Events
