import Mathlib.Data.Finset.Card
import RustyBacnet.Endpoint.Coordinator

/-!
# Leases of invoke IDs

What a run of coordinator calls did is read off its trace: the tokens it issued, those it released
and those whose terminal answer it admitted. The state is what the trace says: a slot holds the one
token of its ID that was issued and not released. Generations count the reservations, so no token is
issued twice, and a stale one matches no slot.
-/

namespace RustyBacnet.Endpoint

open Encoding

/-! ## Runs -/

inductive Call where
  | reserve (metadata : LeaseMetadata)
  | admit_ (peer : CanonicalPeer) (apdu : Apdu)
  | admitFromSource (immediateMac : List UInt8) (routedSource : Option NpduAddress)
      (localNetwork : Option UInt16) (apdu : Apdu)
  | complete (token : LeaseToken)
  | cancel (token : LeaseToken)
  | release (token : LeaseToken)

inductive Reply where
  | reserved (metadata : LeaseMetadata) (result : Except ReserveError LeaseToken)
  | admitted (outcome : AdmissionOutcome)
  | released (token : LeaseToken) (outcome : ReleaseOutcome)

namespace CoordinatorState

def perform (state : CoordinatorState) : Call → Reply × CoordinatorState
  | .reserve metadata =>
    let (result, state) := state.reserve metadata
    (.reserved metadata result, state)
  | .admit_ peer apdu =>
    let (outcome, state) := state.admit_ peer apdu
    (.admitted outcome, state)
  | .admitFromSource immediateMac routedSource localNetwork apdu =>
    let (outcome, state) := state.admitFromSource immediateMac routedSource localNetwork apdu
    (.admitted outcome, state)
  | .complete token =>
    let (outcome, state) := state.complete token
    (.released token outcome, state)
  | .cancel token =>
    let (outcome, state) := state.cancel token
    (.released token outcome, state)
  | .release token =>
    let (outcome, state) := state.release token
    (.released token outcome, state)

end CoordinatorState

def after (calls : List Call) : CoordinatorState :=
  calls.foldl (fun state call => (state.perform call).2) .new

/-- What each call of a run answered, from the state it started in. -/
def tracing (state : CoordinatorState) : List Call → List Reply
  | [] => []
  | call :: calls => (state.perform call).1 :: tracing (state.perform call).2 calls

def trace (calls : List Call) : List Reply := tracing .new calls

def Reply.issued : Reply → Option (LeaseToken × LeaseMetadata)
  | .reserved metadata (.ok token) => some (token, metadata)
  | _ => none

def Reply.freed : Reply → Option LeaseToken
  | .released token .released => some token
  | _ => none

def Reply.claimed : Reply → Option LeaseToken
  | .admitted (.admitted admission) =>
    if admission.kind = .terminal then some admission.token else none
  | _ => none

variable (calls : List Call) (call : Call)

theorem after_concat : after (calls ++ [call]) = ((after calls).perform call).2 := by
  unfold after
  rw [List.foldl_append, List.foldl_cons, List.foldl_nil]

theorem tracing_concat : ∀ state,
    tracing state (calls ++ [call]) = tracing state calls
      ++ [((calls.foldl (fun state call => (state.perform call).2) state).perform call).1] := by
  induction calls with
  | nil => exact fun _ => rfl
  | cons first calls ih =>
    intro state
    show _ :: tracing _ (calls ++ [call]) = _ :: (tracing _ calls ++ _)
    rw [ih]
    rfl

theorem trace_concat : trace (calls ++ [call]) = trace calls ++ [((after calls).perform call).1] :=
  tracing_concat calls call _

/-! ## What an answer may be -/

/-- What a lease's owner, service, policy and direction allow, and whether it ends the lease. -/
inductive Allows (metadata : LeaseMetadata) : Apdu → AdmissionKind → Prop
  | simpleAck (pdu : SimpleAck) (hservice : pdu.serviceChoice = metadata.serviceChoice)
      (hpolicy : metadata.terminalPolicy.acceptsSimpleAck = true) :
      Allows metadata (.simpleAck pdu) .terminal
  | complexAck (pdu : ComplexAck) (hwhole : pdu.segmented = false)
      (hservice : pdu.serviceChoice = metadata.serviceChoice)
      (hpolicy : metadata.terminalPolicy.acceptsComplexAck = true) :
      Allows metadata (.complexAck pdu) .terminal
  | segment (pdu : ComplexAck) (hsegment : pdu.segmented = true)
      (howner : metadata.owner = .requester)
      (hpolicy : metadata.terminalPolicy.acceptsComplexAck = true) :
      Allows metadata (.complexAck pdu) .nonTerminal
  | error (pdu : ErrorPdu) (hservice : pdu.serviceChoice = metadata.serviceChoice) :
      Allows metadata (.error pdu) .terminal
  | reject (pdu : RejectPdu) : Allows metadata (.reject pdu) .terminal
  | abort (pdu : AbortPdu) (hdirection : pdu.sentByServer = true) :
      Allows metadata (.abort pdu) .terminal
  | segmentAck (pdu : SegmentAck) (hdirection : pdu.sentByServer = true)
      (howner : metadata.owner = .requester) (hrequest : metadata.segmentedRequest = true) :
      Allows metadata (.segmentAck pdu) .nonTerminal

theorem validateService_cases (metadata : LeaseMetadata) (observed : ConfirmedServiceChoice) :
    (observed = metadata.serviceChoice ∧ validateService metadata observed = .ok ()) ∨
      validateService metadata observed
        = .error (.serviceMismatch metadata.serviceChoice observed) := by
  unfold validateService
  split_ifs with hsame
  · exact .inl ⟨hsame.symm, rfl⟩
  · exact .inr rfl

theorem validateApdu_complexAck {metadata : LeaseMetadata} {pdu : ComplexAck}
    (hservice : pdu.segmented = false → pdu.serviceChoice = metadata.serviceChoice) :
    validateApdu metadata (.complexAck pdu) =
      if metadata.owner ≠ .requester ∧
          !(!pdu.segmented && metadata.terminalPolicy.acceptsComplexAck) then .error .ownerMismatch
      else if !metadata.terminalPolicy.acceptsComplexAck then .error .policyMismatch
      else if pdu.segmented then .ok .nonTerminal
      else .ok .terminal := by
  have hpassed : (if !pdu.segmented then validateService metadata pdu.serviceChoice else .ok ())
      = .ok () := by
    cases hsegmented : pdu.segmented with
    | true => rfl
    | false =>
      show validateService metadata pdu.serviceChoice = .ok ()
      unfold validateService
      rw [if_pos (hservice hsegmented).symm]
  unfold validateApdu
  dsimp only
  rw [hpassed]

/-- An answer is validated exactly when the lease allows it; a refusal is not an admission. -/
theorem validateApdu_cases (metadata : LeaseMetadata) (apdu : Apdu) :
    (∃ kind, validateApdu metadata apdu = .ok kind ∧ Allows metadata apdu kind) ∨
      ∃ outcome, validateApdu metadata apdu = .error outcome ∧
        ∀ admission, outcome ≠ .admitted admission := by
  cases apdu with
  | confirmedRequest pdu => exact .inr ⟨_, rfl, by simp⟩
  | unconfirmedRequest pdu => exact .inr ⟨_, rfl, by simp⟩
  | simpleAck pdu =>
    unfold validateApdu
    dsimp only
    rcases validateService_cases metadata pdu.serviceChoice with ⟨hservice, hok⟩ | herror
    · rw [hok]
      cases hpolicy : metadata.terminalPolicy.acceptsSimpleAck with
      | true => exact .inl ⟨_, rfl, .simpleAck pdu hservice hpolicy⟩
      | false => exact .inr ⟨_, rfl, by simp⟩
    · rw [herror]
      exact .inr ⟨_, rfl, by simp⟩
  | complexAck pdu =>
    by_cases hservice : pdu.segmented = false → pdu.serviceChoice = metadata.serviceChoice
    · rw [validateApdu_complexAck hservice]
      split_ifs with howner hpolicy hsegmented
      · exact .inr ⟨_, rfl, by simp⟩
      · exact .inr ⟨_, rfl, by simp⟩
      · refine .inl ⟨_, rfl, .segment pdu hsegmented ?_ (by simpa using hpolicy)⟩
        by_contra hother
        exact howner ⟨hother, by rw [hsegmented]; rfl⟩
      · have hwhole : pdu.segmented = false := by simpa using hsegmented
        exact .inl ⟨_, rfl, .complexAck pdu hwhole (hservice hwhole) (by simpa using hpolicy)⟩
    · rw [Classical.not_imp] at hservice
      obtain ⟨hwhole, hother⟩ := hservice
      unfold validateApdu
      dsimp only
      rw [hwhole]
      rcases validateService_cases metadata pdu.serviceChoice with ⟨hsame, _⟩ | herror
      · exact absurd hsame hother
      · rw [if_pos Bool.not_false, herror]
        exact .inr ⟨_, rfl, by simp⟩
  | segmentAck pdu =>
    unfold validateApdu
    dsimp only
    split_ifs with hdirection howner
    · exact .inr ⟨_, rfl, by simp⟩
    · exact .inr ⟨_, rfl, by simp⟩
    · rw [not_or, not_not] at howner
      exact .inl ⟨_, rfl, .segmentAck pdu (by simpa using hdirection) howner.1
        (by simpa using howner.2)⟩
  | error pdu =>
    unfold validateApdu
    dsimp only
    rcases validateService_cases metadata pdu.serviceChoice with ⟨hservice, hok⟩ | herror
    · rw [hok]
      exact .inl ⟨_, rfl, .error pdu hservice⟩
    · rw [herror]
      exact .inr ⟨_, rfl, by simp⟩
  | reject pdu => exact .inl ⟨_, rfl, .reject pdu⟩
  | abort pdu =>
    unfold validateApdu
    dsimp only
    split_ifs with hdirection
    · exact .inr ⟨_, rfl, by simp⟩
    · exact .inl ⟨_, rfl, .abort pdu (by simpa using hdirection)⟩

/-! ## What one call does -/

namespace CoordinatorState

variable {state : CoordinatorState}

theorem reserve_cases (state : CoordinatorState) (metadata : LeaseMetadata) :
    (∃ refused, state.reserve metadata = (.error refused, state)) ∨
      ∃ index, state.availableSlot = some index ∧ state.slots index = none ∧
        state.reserve metadata = (.ok ⟨index, state.lastGeneration + 1⟩, { state with
          lastGeneration := state.lastGeneration + 1
          nextInvokeId := (index + 1) % 256
          slots := Function.update state.slots index
            (some ⟨state.lastGeneration + 1, metadata, false⟩)
          activeCount := state.activeCount + 1 }) := by
  unfold reserve
  split
  · exact .inl ⟨_, rfl⟩
  rename_i index hfound
  split_ifs with hlast
  · exact .inl ⟨_, rfl⟩
  · refine .inr ⟨index, hfound, ?_, rfl⟩
    have hfree := List.find?_some hfound
    exact Option.isNone_iff_eq_none.mp hfree

def claim (state : CoordinatorState) (index : Fin 256) (active : ActiveLease) : CoordinatorState :=
  { state with
    slots := Function.update state.slots index (some { active with terminalClaimed := true }) }

theorem admit_cases (state : CoordinatorState) (peer : CanonicalPeer) (apdu : Apdu) :
    (∃ outcome, (∀ admission, outcome ≠ .admitted admission) ∧
      state.admit_ peer apdu = (outcome, state)) ∨
    ∃ invokeId active kind, responseInvokeId apdu = some invokeId ∧
      state.slots invokeId.toFin = some active ∧ active.metadata.peer = peer ∧
      Allows active.metadata apdu kind ∧ (kind = .terminal → active.terminalClaimed = false) ∧
      state.admit_ peer apdu = (.admitted ⟨⟨invokeId.toFin, active.generation⟩, active.metadata,
        kind⟩, if kind = .terminal then state.claim invokeId.toFin active else state) := by
  unfold admit_
  split
  · exact .inl ⟨_, by simp, rfl⟩
  rename_i invokeId hinvoke
  dsimp only
  split
  · exact .inl ⟨_, by simp, rfl⟩
  rename_i active hactive
  split_ifs with hpeer
  · exact .inl ⟨_, by simp, rfl⟩
  rw [not_not] at hpeer
  rcases validateApdu_cases active.metadata apdu with ⟨kind, hok, hallows⟩ | ⟨outcome, herror, hno⟩
  · rw [hok]
    dsimp only
    by_cases hclaimed : kind = .terminal ∧ active.terminalClaimed = true
    · rw [if_pos hclaimed]
      exact .inl ⟨_, by simp, rfl⟩
    · rw [if_neg hclaimed]
      refine .inr ⟨invokeId, active, kind, hinvoke, hactive, hpeer, hallows, ?_, rfl⟩
      intro hterminal
      exact Bool.eq_false_iff.mpr fun h => hclaimed ⟨hterminal, h⟩
  · rw [herror]
    exact .inl ⟨outcome, hno, rfl⟩

/-- An answer by its source is an answer of the source's peer or of its other name. -/
theorem admitFromSource_eq (state : CoordinatorState) (immediateMac : List UInt8)
    (routedSource : Option NpduAddress) (localNetwork : Option UInt16) (apdu : Apdu) :
    ∃ peer, (peer = .fromSource immediateMac routedSource localNetwork ∨
        CanonicalPeer.otherName immediateMac routedSource localNetwork = some peer) ∧
      state.admitFromSource immediateMac routedSource localNetwork apdu
        = state.admit_ peer apdu := by
  unfold admitFromSource
  rcases admit_cases state (.fromSource immediateMac routedSource localNetwork) apdu with
    ⟨outcome, hno, hresult⟩ | ⟨invokeId, active, kind, _, _, _, _, _, hresult⟩
  · rw [hresult]
    split
    · rename_i next hmismatch
      cases hmismatch
      split
      · rename_i other hother
        exact ⟨other, .inr hother, rfl⟩
      · exact ⟨_, .inl rfl, hresult.symm⟩
    · exact ⟨_, .inl rfl, hresult.symm⟩
  · rw [hresult]
    exact ⟨_, .inl rfl, hresult.symm⟩

theorem releaseToken_cases (state : CoordinatorState) (token : LeaseToken) :
    (∃ outcome, outcome ≠ .released ∧ state.releaseToken token = (outcome, state) ∧
      ∀ active, state.slots token.invokeId = some active →
        active.generation ≠ token.generation) ∨
    ∃ active, state.slots token.invokeId = some active ∧ active.generation = token.generation ∧
      state.releaseToken token = (.released, { state with
        slots := Function.update state.slots token.invokeId none
        lastReleased := Function.update state.lastReleased token.invokeId (some token.generation)
        activeCount := state.activeCount - 1 }) := by
  unfold releaseToken releaseExact
  dsimp only
  split
  · rename_i active hactive
    split_ifs with hsame
    · exact .inr ⟨active, hactive, hsame, rfl⟩
    · refine .inl ⟨_, by simp, rfl, ?_⟩
      intro other hother
      rw [hactive] at hother
      cases hother
      exact hsame
  · rename_i hnone
    have hfree : ∀ active, state.slots token.invokeId = some active →
        active.generation ≠ token.generation := by
      intro active hactive
      rw [hnone] at hactive
      cases hactive
    split_ifs
    · exact .inl ⟨_, by simp, rfl, hfree⟩
    · exact .inl ⟨_, by simp, rfl, hfree⟩

/-- Every call is a reservation, an admission for one peer, or a release. -/
inductive Does (state : CoordinatorState) : Call → Reply × CoordinatorState → Prop
  | reserve (metadata : LeaseMetadata) :
      Does state (.reserve metadata)
        (.reserved metadata (state.reserve metadata).1, (state.reserve metadata).2)
  | admit_ {call : Call} (peer : CanonicalPeer) (apdu : Apdu) :
      Does state call (.admitted (state.admit_ peer apdu).1, (state.admit_ peer apdu).2)
  | release {call : Call} (token : LeaseToken) :
      Does state call
        (.released token (state.releaseToken token).1, (state.releaseToken token).2)

theorem does_perform (state : CoordinatorState) (call : Call) :
    Does state call (state.perform call) := by
  cases call with
  | reserve metadata => exact .reserve metadata
  | admit_ peer apdu => exact .admit_ peer apdu
  | admitFromSource immediateMac routedSource localNetwork apdu =>
    obtain ⟨peer, _, hsame⟩ :=
      admitFromSource_eq state immediateMac routedSource localNetwork apdu
    unfold perform
    dsimp only
    rw [hsame]
    exact .admit_ peer apdu
  | complete token => exact .release token
  | cancel token => exact .release token
  | release token => exact .release token

def occupied (state : CoordinatorState) : Finset (Fin 256) :=
  Finset.univ.filter fun index => (state.slots index).isSome

end CoordinatorState

/-! ## The books -/

/-- The state is what the replies so far say. -/
structure Booked (state : CoordinatorState) (replies : List Reply) : Prop where
  count : state.activeCount = state.occupied.card
  generations : (replies.filterMap Reply.issued).map (·.1.generation)
    = List.range' 1 state.lastGeneration
  active : ∀ index lease, state.slots index = some lease →
    (⟨index, lease.generation⟩, lease.metadata) ∈ replies.filterMap Reply.issued ∧
      ⟨index, lease.generation⟩ ∉ replies.filterMap Reply.freed ∧
      (lease.terminalClaimed = false →
        ⟨index, lease.generation⟩ ∉ replies.filterMap Reply.claimed)
  held : ∀ token metadata, (token, metadata) ∈ replies.filterMap Reply.issued →
    token ∉ replies.filterMap Reply.freed →
    ∃ lease, state.slots token.invokeId = some lease ∧ lease.generation = token.generation
  freed : ∀ token ∈ replies.filterMap Reply.freed, token.generation ≤ state.lastGeneration
  claimed : ∀ token ∈ replies.filterMap Reply.claimed, token.generation ≤ state.lastGeneration
  freed_once : (replies.filterMap Reply.freed).Nodup
  claimed_once : (replies.filterMap Reply.claimed).Nodup

variable {lease : ActiveLease} {index : Fin 256}

namespace Booked

variable {state : CoordinatorState} {replies : List Reply}

theorem new : Booked .new [] where
  count := by
    show 0 = (Finset.univ.filter fun _ : Fin 256 => (none : Option ActiveLease).isSome = true).card
    simp
  generations := rfl
  active := fun _ _ h => absurd h (by simp [CoordinatorState.new])
  held := fun _ _ h => absurd h (by simp)
  freed := fun _ h => absurd h (by simp)
  claimed := fun _ h => absurd h (by simp)
  freed_once := List.nodup_nil
  claimed_once := List.nodup_nil

theorem generation_le (h : Booked state replies) (hlease : state.slots index = some lease) :
    lease.generation ≤ state.lastGeneration := by
  have hissued := List.mem_map_of_mem (f := fun entry : LeaseToken × LeaseMetadata =>
    entry.1.generation) (h.active index lease hlease).1
  rw [h.generations, List.mem_range'_1] at hissued
  dsimp only at hissued
  omega

theorem quiet (h : Booked state replies) {reply : Reply} (hissued : reply.issued = none)
    (hfreed : reply.freed = none) (hclaimed : reply.claimed = none) :
    Booked state (replies ++ [reply]) := by
  have hnone : ∀ {α : Type} (f : Reply → Option α), f reply = none →
      (replies ++ [reply]).filterMap f = replies.filterMap f := by
    intro α f hf
    rw [List.filterMap_append, List.filterMap_cons, hf, List.filterMap_nil, List.append_nil]
  constructor
  · exact h.count
  · rw [hnone _ hissued]
    exact h.generations
  · rw [hnone _ hissued, hnone _ hfreed, hnone _ hclaimed]
    exact h.active
  · rw [hnone _ hissued, hnone _ hfreed]
    exact h.held
  · rw [hnone _ hfreed]
    exact h.freed
  · rw [hnone _ hclaimed]
    exact h.claimed
  · rw [hnone _ hfreed]
    exact h.freed_once
  · rw [hnone _ hclaimed]
    exact h.claimed_once

end Booked

variable {slots : Fin 256 → Option ActiveLease}

theorem occupied_update_some {state : CoordinatorState} (hfree : state.slots index = none)
    (hslots : slots = Function.update state.slots index (some lease)) :
    (Finset.univ.filter fun index => (slots index).isSome).card = state.occupied.card + 1 := by
  have hinsert : (Finset.univ.filter fun index => (slots index).isSome)
      = insert index state.occupied := by
    ext other
    rw [Finset.mem_insert, hslots]
    unfold CoordinatorState.occupied
    rw [Finset.mem_filter, Finset.mem_filter]
    by_cases hother : other = index
    · subst hother
      simp
    · simp [hother]
  rw [hinsert, Finset.card_insert_of_notMem]
  unfold CoordinatorState.occupied
  rw [Finset.mem_filter, hfree]
  simp

theorem occupied_update_none {state : CoordinatorState} (hlease : state.slots index = some lease)
    (hslots : slots = Function.update state.slots index none) :
    (Finset.univ.filter fun index => (slots index).isSome).card + 1 = state.occupied.card := by
  have herase : (Finset.univ.filter fun index => (slots index).isSome)
      = state.occupied.erase index := by
    ext other
    rw [Finset.mem_erase, hslots]
    unfold CoordinatorState.occupied
    rw [Finset.mem_filter, Finset.mem_filter]
    by_cases hother : other = index
    · subst hother
      simp
    · simp [hother]
  rw [herase]
  apply Finset.card_erase_add_one
  unfold CoordinatorState.occupied
  rw [Finset.mem_filter, hlease]
  simp

theorem occupied_update_same {state : CoordinatorState} {lease' : ActiveLease}
    (hlease : state.slots index = some lease)
    (hslots : slots = Function.update state.slots index (some lease')) :
    (Finset.univ.filter fun index => (slots index).isSome) = state.occupied := by
  ext other
  rw [hslots]
  unfold CoordinatorState.occupied
  rw [Finset.mem_filter, Finset.mem_filter]
  by_cases hother : other = index
  · subst hother
    simp [hlease]
  · simp [hother]

namespace Booked

variable {state : CoordinatorState} {replies : List Reply}

theorem reserve (h : Booked state replies) (metadata : LeaseMetadata) :
    Booked (state.reserve metadata).2
      (replies ++ [.reserved metadata (state.reserve metadata).1]) := by
  rcases state.reserve_cases metadata with ⟨refused, hresult⟩ | ⟨index, _, hfree, hresult⟩
  · rw [hresult]
    exact h.quiet rfl rfl rfl
  rw [hresult]
  set token : LeaseToken := ⟨index, state.lastGeneration + 1⟩ with htoken
  have hissued : (replies ++ [Reply.reserved metadata (.ok token)]).filterMap Reply.issued
      = replies.filterMap Reply.issued ++ [(token, metadata)] := by
    rw [List.filterMap_append]
    rfl
  have hfreed : (replies ++ [Reply.reserved metadata (.ok token)]).filterMap Reply.freed
      = replies.filterMap Reply.freed := by
    rw [List.filterMap_append]
    exact List.append_nil _
  have hclaimed : (replies ++ [Reply.reserved metadata (.ok token)]).filterMap Reply.claimed
      = replies.filterMap Reply.claimed := by
    rw [List.filterMap_append]
    exact List.append_nil _
  constructor
  · show state.activeCount + 1 = _
    rw [h.count]
    exact (occupied_update_some hfree rfl).symm
  · rw [hissued, List.map_append, h.generations]
    show _ ++ [state.lastGeneration + 1] = List.range' 1 (state.lastGeneration + 1)
    rw [List.range'_concat, Nat.one_mul, Nat.add_comm 1]
  · intro other lease hlease
    have hlease : Function.update state.slots index
      (some ⟨state.lastGeneration + 1, metadata, false⟩) other = some lease := hlease
    rw [hissued, hfreed, hclaimed]
    by_cases hother : other = index
    · subst hother
      rw [Function.update_self, Option.some.injEq] at hlease
      subst hlease
      refine ⟨List.mem_append.mpr (.inr (List.mem_singleton_self _)), ?_, ?_⟩
      · intro hmem
        have hle := h.freed _ hmem
        dsimp only at hle
        omega
      · intro _ hmem
        have hle := h.claimed _ hmem
        dsimp only at hle
        omega
    · rw [Function.update_of_ne hother] at hlease
      obtain ⟨hmem, hrest⟩ := h.active other lease hlease
      exact ⟨List.mem_append.mpr (.inl hmem), hrest⟩
  · intro other otherMetadata hmem hheld
    rw [hissued] at hmem
    rw [hfreed] at hheld
    rcases List.mem_append.mp hmem with hmem | hmem
    · obtain ⟨lease, hlease, hgeneration⟩ := h.held other otherMetadata hmem hheld
      refine ⟨lease, ?_, hgeneration⟩
      dsimp only
      rw [Function.update_of_ne, hlease]
      rintro hsame
      rw [hsame, hfree] at hlease
      cases hlease
    · cases List.mem_singleton.mp hmem
      exact ⟨_, Function.update_self _ _ _, rfl⟩
  · rw [hfreed]
    intro token hmem
    exact le_trans (h.freed token hmem) (Nat.le_succ _)
  · rw [hclaimed]
    intro token hmem
    exact le_trans (h.claimed token hmem) (Nat.le_succ _)
  · rw [hfreed]
    exact h.freed_once
  · rw [hclaimed]
    exact h.claimed_once

theorem admit_ (h : Booked state replies) (peer : CanonicalPeer) (apdu : Apdu) :
    Booked (state.admit_ peer apdu).2
      (replies ++ [.admitted (state.admit_ peer apdu).1]) := by
  rcases state.admit_cases peer apdu with
    ⟨outcome, hno, hresult⟩ | ⟨invokeId, active, kind, _, hactive, _, _, hunclaimed, hresult⟩
  · rw [hresult]
    refine h.quiet rfl rfl ?_
    unfold Reply.claimed
    split
    · rename_i admission hadmitted
      cases hadmitted
      exact absurd rfl (hno admission)
    · rfl
  rw [hresult]
  by_cases hkind : kind = .nonTerminal
  · subst hkind
    rw [if_neg (by simp)]
    exact h.quiet rfl rfl rfl
  have hkind : kind = .terminal := by
    cases kind with
    | terminal => rfl
    | nonTerminal => exact absurd rfl hkind
  subst hkind
  rw [if_pos rfl]
  set index := invokeId.toFin
  set token : LeaseToken := ⟨index, active.generation⟩ with htoken
  set reply : Reply := .admitted (.admitted ⟨token, active.metadata, .terminal⟩) with hreply
  have hissued : (replies ++ [reply]).filterMap Reply.issued
      = replies.filterMap Reply.issued := by
    rw [List.filterMap_append]
    exact List.append_nil _
  have hfreed : (replies ++ [reply]).filterMap Reply.freed = replies.filterMap Reply.freed := by
    rw [List.filterMap_append]
    exact List.append_nil _
  have hclaimed : (replies ++ [reply]).filterMap Reply.claimed
      = replies.filterMap Reply.claimed ++ [token] := by
    rw [List.filterMap_append]
    rfl
  obtain ⟨hmem, hkept, hnew⟩ := h.active index active hactive
  have hslots : ∀ other lease, (state.claim index active).slots other = some lease →
      ∃ lease', state.slots other = some lease' ∧ lease'.generation = lease.generation ∧
        lease'.metadata = lease.metadata ∧ (other = index → lease.terminalClaimed = true) ∧
        (other ≠ index → lease = lease') := by
    intro other lease hlease
    have hlease : Function.update state.slots index (some { active with terminalClaimed := true })
      other = some lease := hlease
    by_cases hother : other = index
    · subst hother
      rw [Function.update_self, Option.some.injEq] at hlease
      subst hlease
      exact ⟨active, hactive, rfl, rfl, fun _ => rfl, fun hne => absurd rfl hne⟩
    · rw [Function.update_of_ne hother] at hlease
      exact ⟨lease, hlease, rfl, rfl, fun hsame => absurd hsame hother, fun _ => rfl⟩
  constructor
  · show state.activeCount = (Finset.univ.filter _).card
    rw [h.count]
    exact congrArg Finset.card (occupied_update_same hactive rfl).symm
  · rw [hissued]
    exact h.generations
  · intro other lease hlease
    obtain ⟨lease', hlease', hgeneration, hmetadata, hhere, hthere⟩ := hslots other lease hlease
    obtain ⟨hother, hotherKept, hotherNew⟩ := h.active other lease' hlease'
    rw [hgeneration] at hother hotherKept hotherNew
    rw [hmetadata] at hother
    rw [hissued, hfreed, hclaimed]
    refine ⟨hother, hotherKept, ?_⟩
    intro hfalse hclaim
    by_cases hindex : other = index
    · rw [hhere hindex] at hfalse
      cases hfalse
    · rcases List.mem_append.mp hclaim with hclaim | hclaim
      · rw [hthere hindex] at hfalse
        exact hotherNew hfalse hclaim
      · have hsame := congrArg LeaseToken.invokeId (List.mem_singleton.mp hclaim)
        exact hindex hsame
  · intro other metadata hother hheld
    rw [hissued] at hother
    rw [hfreed] at hheld
    obtain ⟨lease, hlease, hgeneration⟩ := h.held other metadata hother hheld
    by_cases hindex : other.invokeId = index
    · refine ⟨{ active with terminalClaimed := true }, ?_, ?_⟩
      · show Function.update state.slots index _ other.invokeId = _
        rw [hindex, Function.update_self]
      · rw [hindex, hactive] at hlease
        cases hlease
        exact hgeneration
    · refine ⟨lease, ?_, hgeneration⟩
      show Function.update state.slots index _ other.invokeId = _
      rw [Function.update_of_ne hindex, hlease]
  · rw [hfreed]
    exact h.freed
  · rw [hclaimed]
    intro other hother
    rcases List.mem_append.mp hother with hother | hother
    · exact h.claimed other hother
    · rw [List.mem_singleton.mp hother]
      exact h.generation_le hactive
  · rw [hfreed]
    exact h.freed_once
  · rw [hclaimed]
    refine List.Nodup.append h.claimed_once (List.nodup_singleton _) ?_
    rw [List.disjoint_singleton]
    exact hnew (hunclaimed rfl)

theorem release (h : Booked state replies) (token : LeaseToken) :
    Booked (state.releaseToken token).2
      (replies ++ [.released token (state.releaseToken token).1]) := by
  rcases state.releaseToken_cases token with
    ⟨outcome, hno, hresult, _⟩ | ⟨active, hactive, hgeneration, hresult⟩
  · rw [hresult]
    refine h.quiet rfl ?_ rfl
    unfold Reply.freed
    split
    · rename_i hfreed
      cases hfreed
      exact absurd rfl hno
    · rfl
  rw [hresult]
  have hissued : (replies ++ [Reply.released token .released]).filterMap Reply.issued
      = replies.filterMap Reply.issued := by
    rw [List.filterMap_append]
    exact List.append_nil _
  have hfreed : (replies ++ [Reply.released token .released]).filterMap Reply.freed
      = replies.filterMap Reply.freed ++ [token] := by
    rw [List.filterMap_append]
    rfl
  have hclaimed : (replies ++ [Reply.released token .released]).filterMap Reply.claimed
      = replies.filterMap Reply.claimed := by
    rw [List.filterMap_append]
    exact List.append_nil _
  obtain ⟨hmem, hkept, _⟩ := h.active token.invokeId active hactive
  rw [hgeneration] at hmem hkept
  constructor
  · show state.activeCount - 1 = (Finset.univ.filter _).card
    rw [h.count, ← occupied_update_none hactive rfl]
    rfl
  · rw [hissued]
    exact h.generations
  · intro other lease hlease
    have hlease : Function.update state.slots token.invokeId none other = some lease := hlease
    by_cases hother : other = token.invokeId
    · subst hother
      rw [Function.update_self] at hlease
      cases hlease
    · rw [Function.update_of_ne hother] at hlease
      obtain ⟨hissued', hfreed', hclaimed'⟩ := h.active other lease hlease
      rw [hissued, hfreed, hclaimed]
      refine ⟨hissued', ?_, hclaimed'⟩
      intro hnow
      rcases List.mem_append.mp hnow with hnow | hnow
      · exact hfreed' hnow
      · exact hother (congrArg LeaseToken.invokeId (List.mem_singleton.mp hnow))
  · intro other metadata hother hheld
    rw [hissued] at hother
    rw [hfreed, List.mem_append, not_or] at hheld
    obtain ⟨lease, hlease, hsame⟩ := h.held other metadata hother hheld.1
    refine ⟨lease, ?_, hsame⟩
    show Function.update state.slots token.invokeId none other.invokeId = some lease
    rw [Function.update_of_ne, hlease]
    intro hindex
    rw [hindex, hactive] at hlease
    cases hlease
    apply hheld.2
    rw [List.mem_singleton]
    obtain ⟨invokeId, generation⟩ := other
    obtain ⟨invokeId', generation'⟩ := token
    dsimp only at hindex hsame hgeneration
    rw [hindex, ← hsame, hgeneration]
  · rw [hfreed]
    intro other hother
    rcases List.mem_append.mp hother with hother | hother
    · exact h.freed other hother
    · rw [List.mem_singleton.mp hother, ← hgeneration]
      exact h.generation_le hactive
  · rw [hclaimed]
    exact h.claimed
  · rw [hfreed]
    refine List.Nodup.append h.freed_once (List.nodup_singleton _) ?_
    rw [List.disjoint_singleton]
    exact hkept
  · rw [hclaimed]
    exact h.claimed_once

theorem perform (h : Booked state replies) (call : Call) :
    Booked (state.perform call).2 (replies ++ [(state.perform call).1]) := by
  have hdoes := state.does_perform call
  generalize state.perform call = result at hdoes ⊢
  cases hdoes with
  | reserve metadata => exact h.reserve metadata
  | admit_ peer apdu => exact h.admit_ peer apdu
  | release token => exact h.release token

end Booked

theorem booked_after : Booked (after calls) (trace calls) := by
  induction calls using List.reverseRecOn with
  | nil => exact Booked.new
  | append_singleton calls call ih =>
    rw [after_concat, trace_concat]
    exact ih.perform call

end RustyBacnet.Endpoint
