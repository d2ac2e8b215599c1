import Mathlib.Data.Fintype.Basic
import Mathlib.Logic.Function.Basic
import RustyBacnet.Apdu.Pdu

/-!
# The invoke-ID coordinator

`OutboundTransactionCoordinator` leases the 256 invoke IDs of a device to its client and server
roles. Every method runs under one mutex, so a run is a sequence of the calls below in any order.
`admit_from_source` takes the mutex once for each peer it tries; two threads inside it look like the
`admit` calls it is made of. No call panics while it holds the mutex (its one subtraction is covered
by `occupied_pos`), so the mutex is never poisoned and the poison errors are left out.
-/

namespace RustyBacnet.Endpoint

open Encoding

/-- The peer an answer is matched by. -/
inductive CanonicalPeer where
  | direct (mac : List UInt8)
  | routed (network : UInt16) (address : List UInt8)
  deriving DecidableEq

namespace CanonicalPeer

def fromSource (immediateMac : List UInt8) (routedSource : Option NpduAddress)
    (localNetwork : Option UInt16) : CanonicalPeer :=
  match routedSource with
  | some source =>
    if source.macAddress = [] then .direct immediateMac
    else if some source.network = localNetwork then .direct source.macAddress
    else .routed source.network source.macAddress
  | none => .direct immediateMac

def routedAlias (routedSource : Option NpduAddress) (localNetwork : Option UInt16) :
    Option CanonicalPeer :=
  (routedSource.filter fun source =>
    source.macAddress ≠ [] ∧ some source.network = localNetwork).map fun source =>
      .routed source.network source.macAddress

def directAlias (immediateMac : List UInt8) (routedSource : Option NpduAddress)
    (localNetwork : Option UInt16) : Option CanonicalPeer :=
  match routedSource, localNetwork with
  | none, some network => if immediateMac ≠ [] then some (.routed network immediateMac) else none
  | _, _ => none

/-- The other name of a source that `admit_from_source` tries. -/
def otherName (immediateMac : List UInt8) (routedSource : Option NpduAddress)
    (localNetwork : Option UInt16) : Option CanonicalPeer :=
  (routedAlias routedSource localNetwork).or (directAlias immediateMac routedSource localNetwork)

end CanonicalPeer

/-! ## Leases -/

inductive LeaseOwner where
  | requester
  | notification
  deriving DecidableEq

inductive TerminalPolicy where
  | simpleAck
  | complexAck
  | eitherAck
  deriving DecidableEq

namespace TerminalPolicy

def acceptsSimpleAck : TerminalPolicy → Bool
  | .simpleAck => true
  | .complexAck => false
  | .eitherAck => true

def acceptsComplexAck : TerminalPolicy → Bool
  | .simpleAck => false
  | .complexAck => true
  | .eitherAck => true

end TerminalPolicy

structure LeaseMetadata where
  owner : LeaseOwner
  peer : CanonicalPeer
  serviceChoice : ConfirmedServiceChoice
  terminalPolicy : TerminalPolicy
  segmentedRequest : Bool
  deriving DecidableEq

/-- The identity of one lease of an invoke ID. -/
structure LeaseToken where
  invokeId : Fin 256
  generation : ℕ
  deriving DecidableEq

inductive ReserveError where
  | exhausted
  | generationExhausted
  deriving DecidableEq

inductive ReleaseOutcome where
  | released
  | alreadyReleased
  | staleToken
  deriving DecidableEq

inductive AdmissionKind where
  | terminal
  | nonTerminal
  deriving DecidableEq

structure Admission where
  token : LeaseToken
  metadata : LeaseMetadata
  kind : AdmissionKind
  deriving DecidableEq

inductive AdmissionOutcome where
  | admitted (admission : Admission)
  | notOutbound
  | unknownInvokeId
  | peerMismatch
  | ownerMismatch
  | serviceMismatch (expected observed : ConfirmedServiceChoice)
  | policyMismatch
  | directionMismatch
  | duplicateTerminal
  deriving DecidableEq

structure ActiveLease where
  generation : ℕ
  metadata : LeaseMetadata
  terminalClaimed : Bool
  deriving DecidableEq

/-! ## What an answer may be -/

def responseInvokeId : Apdu → Option UInt8
  | .simpleAck pdu => some pdu.invokeId
  | .complexAck pdu => some pdu.invokeId
  | .segmentAck pdu => some pdu.invokeId
  | .error pdu => some pdu.invokeId
  | .reject pdu => some pdu.invokeId
  | .abort pdu => some pdu.invokeId
  | .confirmedRequest _ => none
  | .unconfirmedRequest _ => none

def validateService (metadata : LeaseMetadata) (observed : ConfirmedServiceChoice) :
    Except AdmissionOutcome Unit :=
  if metadata.serviceChoice = observed then .ok ()
  else .error (.serviceMismatch metadata.serviceChoice observed)

def validateApdu (metadata : LeaseMetadata) : Apdu → Except AdmissionOutcome AdmissionKind
  | .simpleAck pdu =>
    match validateService metadata pdu.serviceChoice with
    | .error outcome => .error outcome
    | .ok _ =>
      if !metadata.terminalPolicy.acceptsSimpleAck then .error .policyMismatch else .ok .terminal
  | .complexAck pdu =>
    match if !pdu.segmented then validateService metadata pdu.serviceChoice else .ok () with
    | .error outcome => .error outcome
    | .ok _ =>
      let serverRead := !pdu.segmented && metadata.terminalPolicy.acceptsComplexAck
      if metadata.owner ≠ .requester ∧ !serverRead then .error .ownerMismatch
      else if !metadata.terminalPolicy.acceptsComplexAck then .error .policyMismatch
      else if pdu.segmented then .ok .nonTerminal
      else .ok .terminal
  | .error pdu =>
    match validateService metadata pdu.serviceChoice with
    | .error outcome => .error outcome
    | .ok _ => .ok .terminal
  | .reject _ => .ok .terminal
  | .abort pdu => if !pdu.sentByServer then .error .directionMismatch else .ok .terminal
  | .segmentAck pdu =>
    if !pdu.sentByServer then .error .directionMismatch
    else if metadata.owner ≠ .requester ∨ !metadata.segmentedRequest then .error .ownerMismatch
    else .ok .nonTerminal
  | .confirmedRequest _ => .error .notOutbound
  | .unconfirmedRequest _ => .error .notOutbound

/-! ## The state -/

structure CoordinatorState where
  slots : Fin 256 → Option ActiveLease
  lastReleased : Fin 256 → Option ℕ
  nextInvokeId : ℕ
  lastGeneration : ℕ
  activeCount : ℕ

namespace CoordinatorState

def new : CoordinatorState := ⟨fun _ => none, fun _ => none, 0, 0, 0⟩

def searchOrder (state : CoordinatorState) : List (Fin 256) :=
  (List.range 256).map fun offset => Fin.ofNat 256 (state.nextInvokeId + offset)

def availableSlot (state : CoordinatorState) : Option (Fin 256) :=
  state.searchOrder.find? fun index => (state.slots index).isNone

/-- The IDs the search passes before it finds a free one. -/
def passed (state : CoordinatorState) : List (Fin 256) :=
  state.searchOrder.takeWhile fun index => (state.slots index).isSome

def releaseExact (state : CoordinatorState) (token : LeaseToken) :
    ReleaseOutcome × CoordinatorState :=
  let index := token.invokeId
  match state.slots index with
  | some active =>
    if active.generation = token.generation then
      (.released, { state with
        slots := Function.update state.slots index none
        lastReleased := Function.update state.lastReleased index (some token.generation)
        activeCount := state.activeCount - 1 })
    else (.staleToken, state)
  | none =>
    if state.lastReleased index = some token.generation then (.alreadyReleased, state)
    else (.staleToken, state)

def reserve (state : CoordinatorState) (metadata : LeaseMetadata) :
    Except ReserveError LeaseToken × CoordinatorState :=
  match state.availableSlot with
  | none => (.error .exhausted, state)
  | some index =>
    if state.lastGeneration = 18446744073709551615 then (.error .generationExhausted, state)
    else
      let generation := state.lastGeneration + 1
      (.ok ⟨index, generation⟩, { state with
        lastGeneration := generation
        nextInvokeId := (index + 1) % 256
        slots := Function.update state.slots index (some ⟨generation, metadata, false⟩)
        activeCount := state.activeCount + 1 })

def admit_ (state : CoordinatorState) (peer : CanonicalPeer) (apdu : Apdu) :
    AdmissionOutcome × CoordinatorState :=
  match responseInvokeId apdu with
  | none => (.notOutbound, state)
  | some invokeId =>
    let index := invokeId.toFin
    match state.slots index with
    | none => (.unknownInvokeId, state)
    | some active =>
      if active.metadata.peer ≠ peer then (.peerMismatch, state)
      else
        match validateApdu active.metadata apdu with
        | .error outcome => (outcome, state)
        | .ok kind =>
          if kind = .terminal ∧ active.terminalClaimed then (.duplicateTerminal, state)
          else
            (.admitted ⟨⟨index, active.generation⟩, active.metadata, kind⟩,
              if kind = .terminal then
                { state with
                  slots := Function.update state.slots index
                    (some { active with terminalClaimed := true }) }
              else state)

def admitFromSource (state : CoordinatorState) (immediateMac : List UInt8)
    (routedSource : Option NpduAddress) (localNetwork : Option UInt16) (apdu : Apdu) :
    AdmissionOutcome × CoordinatorState :=
  match state.admit_ (.fromSource immediateMac routedSource localNetwork) apdu with
  | (.peerMismatch, state) =>
    match CanonicalPeer.otherName immediateMac routedSource localNetwork with
    | some other => state.admit_ other apdu
    | none => (.peerMismatch, state)
  | result => result

def releaseToken (state : CoordinatorState) (token : LeaseToken) :
    ReleaseOutcome × CoordinatorState :=
  state.releaseExact token

def complete (state : CoordinatorState) (token : LeaseToken) : ReleaseOutcome × CoordinatorState :=
  state.releaseToken token

def cancel (state : CoordinatorState) (token : LeaseToken) : ReleaseOutcome × CoordinatorState :=
  state.releaseToken token

def release (state : CoordinatorState) (token : LeaseToken) : ReleaseOutcome × CoordinatorState :=
  state.releaseToken token

end CoordinatorState

end RustyBacnet.Endpoint
