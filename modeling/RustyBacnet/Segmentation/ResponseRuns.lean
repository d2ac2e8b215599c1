import RustyBacnet.Lib.Runs
import RustyBacnet.Segmentation.Response

/-!
# A segmented response arrives whole or not at all

The client accepts segments in order, so what it accepted is the first `k` segments. An
acknowledgment of segment `i`, positive or negative, is sent only once `i` was accepted; the server
moves past `i` only on such an acknowledgment, and sends no segment beyond the one it is at. So the
server is at segment `k - 1` or `k`, whatever the network does with the PDUs.
-/

namespace RustyBacnet.Segmentation

open Encoding

variable {transfer : Transfer}

/-! ## The client -/

/-- The first `k` segments with their sequence numbers. -/
def Transfer.firstSegments (transfer : Transfer) (k : ℕ) : List (UInt8 × List UInt8) :=
  (transfer.segments.take k).mapIdx fun i segment => (UInt8.ofNat i, segment)

variable {segment : List UInt8}

theorem Transfer.firstSegments_succ {k : ℕ} (hsegment : transfer.segments[k]? = some segment) :
    transfer.firstSegments (k + 1) = transfer.firstSegments k ++ [(UInt8.ofNat k, segment)] := by
  have hlt : k < transfer.segments.length := (List.getElem?_eq_some_iff.mp hsegment).1
  unfold Transfer.firstSegments
  rw [List.take_add_one, hsegment, Option.toList_some, List.mapIdx_append, List.length_take,
    Nat.min_eq_left hlt.le, List.mapIdx_cons, List.mapIdx_nil, Nat.zero_add]

theorem take_concat {segments : List (List UInt8)} {k : ℕ} (hsegment : segments[k]? = some segment)
    : segments.take (k + 1) = segments.take k ++ [segment] := by
  rw [List.take_add_one, hsegment]
  rfl

/-- A live session has accepted the first `k` segments, not all of them. -/
structure SessionGood (transfer : Transfer) (k : ℕ) (state : SegmentedReceiveState) : Prop where
  some : 0 < k
  open_ : k < transfer.totalSegments
  accepted : state.acceptedSegments = k
  expected : state.expectedNextSeq = UInt8.ofNat k
  last : state.lastSequenceNumber = UInt8.ofNat (k - 1)
  collects : state.receiver.Collects (transfer.segments.take k)
  window : state.actualWindowSize = 1

/-- The client's side of the invariant. -/
structure Good (transfer : Transfer) (client : Receiver) : Prop where
  accepted : client.accepted = transfer.firstSegments client.accepted.length
  service : ∀ transaction, client.transaction = some transaction →
    transaction.expectedServiceChoice = transfer.serviceChoice
  idle : ∀ transaction, client.transaction = some transaction → client.session = none →
    client.accepted = [] ∧ transaction.phase ≠ .segmentedResponse
  busy : ∀ transaction state, client.transaction = some transaction →
    client.session = some state → transaction.phase = .segmentedResponse
  session : ∀ state, client.session = some state →
    SessionGood transfer client.accepted.length state
  whole : ∀ data, client.outcome = some (.complexAck data) →
    data = transfer.segments.flatten ∧ client.accepted.length = transfer.totalSegments

/-- A PDU of which the client accepts nothing. It acknowledges only what it accepted before. -/
structure Takes (transfer : Transfer) (client client' : Receiver) (sent : List Apdu) : Prop where
  good : Good transfer client'
  same : client'.accepted = client.accepted
  acks : ∀ ack, Apdu.segmentAck ack ∈ sent →
    ack.sequenceNumber.toNat < client.accepted.length

/-- Segment `i`, accepted as the next one. -/
structure Accepts (transfer : Transfer) (i : ℕ) (client client' : Receiver) (sent : List Apdu) :
    Prop where
  good : Good transfer client'
  next : i = client.accepted.length
  grown : client'.accepted.length = client.accepted.length + 1
  acks : ∀ ack, Apdu.segmentAck ack ∈ sent →
    ack.sequenceNumber.toNat < client.accepted.length + 1

namespace Good

variable {client client' : Receiver}

theorem gone (h : Good transfer client) (htransaction : client'.transaction = none)
    (hsession : client'.session = none ∨ client'.session = client.session)
    (haccepted : client'.accepted = client.accepted)
    (houtcome : client'.outcome = client.outcome ∨
      ∀ data, client'.outcome ≠ some (.complexAck data)) : Good transfer client' := by
  refine ⟨?_, ?_, ?_, ?_, ?_, ?_⟩
  · rw [haccepted]
    exact h.accepted
  · intro transaction hsome
    rw [htransaction] at hsome
    cases hsome
  · intro transaction hsome
    rw [htransaction] at hsome
    cases hsome
  · intro transaction state hsome
    rw [htransaction] at hsome
    cases hsome
  · intro state hstate
    rw [haccepted]
    rcases hsession with hnone | hsame
    · rw [hnone] at hstate
      cases hstate
    · rw [hsame] at hstate
      exact h.session state hstate
  · intro data hdata
    rw [haccepted]
    rcases houtcome with hsame | hother
    · rw [hsame] at hdata
      exact h.whole data hdata
    · exact absurd hdata (hother data)

end Good

section Client

variable {client : Receiver}

theorem completeTransaction_abort (reason : AbortReason) (client : Receiver) :
    client.abortTransaction reason = match client.transaction with
      | none => client
      | some _ => { client with
          transaction := none, outcome := some (.remote (.abort reason)) } := by
  unfold Receiver.abortTransaction Receiver.completeTransaction
  cases client.transaction with
  | none => rfl
  | some transaction =>
    dsimp only
    rw [if_neg]
    rintro ⟨hrequires, -⟩
    exact absurd hrequires Bool.false_ne_true

theorem abortTransaction_gone (reason : AbortReason) (client : Receiver) :
    (client.abortTransaction reason).transaction = none ∧
      (client.abortTransaction reason).session = client.session ∧
      (client.abortTransaction reason).accepted = client.accepted ∧
      ((client.abortTransaction reason).outcome = client.outcome ∨
        ∀ data, (client.abortTransaction reason).outcome ≠ some (.complexAck data)) := by
  rw [completeTransaction_abort]
  split
  · rename_i hnone
    exact ⟨hnone, rfl, rfl, .inl rfl⟩
  · exact ⟨rfl, rfl, rfl, .inr fun data hdata => by cases hdata⟩

theorem clientAbort_acks {reason : AbortReason} {ack : SegmentAck} {P : Prop}
    (h : Apdu.segmentAck ack ∈ [Receiver.clientAbort transfer reason]) : P := by
  cases List.mem_singleton.mp h

theorem takes_abortReassembly (h : Good transfer client) (reason : AbortReason) :
    Takes transfer client (client.abortReassembly transfer reason).1
      (client.abortReassembly transfer reason).2 := by
  obtain ⟨htransaction, hsession, haccepted, houtcome⟩ :=
    abortTransaction_gone reason { client with session := none }
  exact ⟨h.gone htransaction (.inl hsession) haccepted houtcome, haccepted,
    fun _ hack => clientAbort_acks hack⟩

/-- The client is about to look at a segment with the state of its session. -/
structure Ready (transfer : Transfer) (client : Receiver) (transaction : Transaction)
    (state : SegmentedReceiveState) (i : ℕ) : Prop where
  pending : client.transaction = some transaction
  phase : transaction.phase ≠ .segmentedRequest false
  open_ : client.accepted.length < transfer.totalSegments
  accepted : state.acceptedSegments = client.accepted.length
  expected : state.expectedNextSeq = UInt8.ofNat client.accepted.length
  collects : state.receiver.Collects (transfer.segments.take client.accepted.length)
  window : state.actualWindowSize = 1
  first : client.accepted.length = 0 → i = 0
  later : 0 < client.accepted.length → transaction.phase = .segmentedResponse ∧
    state.lastSequenceNumber = UInt8.ofNat (client.accepted.length - 1)

variable {transaction : Transaction} {state : SegmentedReceiveState} {i : ℕ}

/-- A segment out of order leaves the session where it was. -/
theorem takes_outOfOrder (h : Good transfer client) (hn : transfer.totalSegments ≤ 256)
    (hready : Ready transfer client transaction state i) (hlater : 0 < client.accepted.length)
    (seq : UInt8) :
    Takes transfer client (client.outOfOrder transfer seq state).1
      (client.outOfOrder transfer seq state).2 := by
  obtain ⟨hphase, hlast⟩ := hready.later hlater
  have hgood : ∀ state' : SegmentedReceiveState, state'.receiver = state.receiver →
      state'.acceptedSegments = state.acceptedSegments →
      state'.expectedNextSeq = state.expectedNextSeq →
      state'.lastSequenceNumber = state.lastSequenceNumber →
      state'.actualWindowSize = state.actualWindowSize →
      Good transfer { client with session := some state' } := by
    intro state' hreceiver haccepted hexpected hlast' hwindow
    refine ⟨h.accepted, h.service, ?_, ?_, ?_, h.whole⟩
    · intro _ _ hnone
      cases hnone
    · intro found _ hfound _
      have hsame : transaction = found :=
        Option.some.inj (hready.pending.symm.trans hfound)
      rw [← hsame]
      exact hphase
    · intro found hfound
      cases hfound
      exact ⟨hlater, hready.open_, haccepted.trans hready.accepted,
        hexpected.trans hready.expected, hlast'.trans hlast, hreceiver ▸ hready.collects,
        hwindow.trans hready.window⟩
  have hindex : state.lastSequenceNumber.toNat < client.accepted.length := by
    have hopen := hready.open_
    rw [hlast, toNat_index (by omega)]
    omega
  unfold Receiver.outOfOrder
  dsimp only
  split_ifs with hsilent hduplicate hencoded hencoded
  · exact ⟨hgood _ rfl rfl rfl rfl rfl, rfl, fun ack hack => absurd hack List.not_mem_nil⟩
  · refine ⟨hgood _ rfl rfl rfl rfl rfl, rfl, ?_⟩
    intro ack hack
    cases List.mem_singleton.mp hack
    exact hindex
  · exact ⟨hgood _ rfl rfl rfl rfl rfl, rfl, fun ack hack => absurd hack List.not_mem_nil⟩
  · refine ⟨hgood _ rfl rfl rfl rfl rfl, rfl, ?_⟩
    intro ack hack
    cases List.mem_singleton.mp hack
    exact hindex
  · exact ⟨hgood _ rfl rfl rfl rfl rfl, rfl, fun ack hack => absurd hack List.not_mem_nil⟩

/-- What `advance` leaves of the state. -/
theorem advance_state (seq : UInt8) (moreFollows : Bool) (receiver : SegmentReceiver)
    (state : SegmentedReceiveState) :
    (Receiver.advance seq moreFollows receiver state).2.receiver = receiver ∧
      (Receiver.advance seq moreFollows receiver state).2.acceptedSegments
        = state.acceptedSegments + 1 ∧
      (Receiver.advance seq moreFollows receiver state).2.expectedNextSeq = seq + 1 ∧
      (Receiver.advance seq moreFollows receiver state).2.lastSequenceNumber = seq ∧
      (Receiver.advance seq moreFollows receiver state).2.actualWindowSize
        = state.actualWindowSize := by
  unfold Receiver.advance
  dsimp only
  split_ifs
  · exact ⟨rfl, rfl, rfl, rfl, rfl⟩
  · exact ⟨rfl, rfl, rfl, rfl, rfl⟩

variable {receiver : SegmentReceiver}

theorem finish_whole (transaction : Transaction) (hpending : client.transaction = some transaction)
    (hphase : transaction.phase = .segmentedResponse)
    (hservice : transaction.expectedServiceChoice = transfer.serviceChoice)
    (hcollects : receiver.Collects transfer.segments) :
    client.finish transfer.serviceChoice receiver = { client with
      session := none
      transaction := none
      outcome := some (.complexAck transfer.segments.flatten) } := by
  unfold Receiver.finish Receiver.completeTransaction
  rw [hcollects.count, hcollects.reassemble, hpending]
  dsimp only
  rw [if_neg, if_neg (not_not_intro hservice.symm)]
  rintro ⟨-, hrequest⟩
  rw [hphase] at hrequest
  cases hrequest

/-- The client after it saved its next segment, which is not the last one. -/
theorem good_saved (h : Good transfer client) (hready : Ready transfer client transaction state i)
    (hsegment : transfer.segments[client.accepted.length]? = some segment)
    (hcollects : receiver.Collects (transfer.segments.take (client.accepted.length + 1)))
    (hmore : client.accepted.length + 1 < transfer.totalSegments) (more : Bool) :
    Good transfer { client with
      transaction := some { transaction with phase := .segmentedResponse }
      accepted := client.accepted ++ [(UInt8.ofNat client.accepted.length, segment)]
      session := some (Receiver.advance (UInt8.ofNat client.accepted.length) more receiver
        state).2 } := by
  obtain ⟨hreceiver, haccepted, hexpected, hlast, hwindow⟩ :=
    advance_state (UInt8.ofNat client.accepted.length) more receiver state
  have hlength : (client.accepted ++ [(UInt8.ofNat client.accepted.length, segment)]).length
      = client.accepted.length + 1 := by
    rw [List.length_append, List.length_singleton]
  refine ⟨?_, ?_, ?_, ?_, ?_, ?_⟩
  · rw [hlength, Transfer.firstSegments_succ hsegment, ← h.accepted]
  · rintro found hfound
    cases hfound
    exact h.service transaction hready.pending
  · intro _ _ hnone
    cases hnone
  · rintro found _ hfound _
    cases hfound
    rfl
  · rintro found hfound
    cases hfound
    rw [hlength]
    refine ⟨by omega, hmore, by rw [haccepted, hready.accepted], ?_, hlast, ?_, ?_⟩
    · rw [hexpected]
      exact (UInt8.ofNat_add _ _).symm
    · rw [hreceiver]
      exact hcollects
    · exact hwindow.trans hready.window
  · intro data hdata
    obtain ⟨-, hall⟩ := h.whole data hdata
    have hopen := hready.open_
    omega

theorem begin_response (hpending : client.transaction = some transaction)
    (hphase : transaction.phase ≠ .segmentedRequest false)
    (hlater : 0 < state.acceptedSegments → transaction.phase = .segmentedResponse) :
    (if state.acceptedSegments = 0 then client.beginSegmentedResponse else client)
      = { client with transaction := some { transaction with phase := .segmentedResponse } } := by
  obtain ⟨limits, pending, session, outcome, accepted⟩ := client
  subst hpending
  split_ifs with hfirst
  · unfold Receiver.beginSegmentedResponse
    dsimp only [Option.map_some]
    rw [if_neg hphase]
  · rw [← hlater (Nat.pos_of_ne_zero hfirst)]

theorem begin_pending (hready : Ready transfer client transaction state i) :
    (if state.acceptedSegments = 0 then client.beginSegmentedResponse else client)
      = { client with transaction := some { transaction with phase := .segmentedResponse } } :=
  begin_response hready.pending hready.phase fun hlater =>
    (hready.later (by have := hready.accepted; omega)).1

/-- The client after its next segment: the last one completes the transaction. -/
theorem accept_client (h : Good transfer client) (hready : Ready transfer client transaction state i)
    {segment : List UInt8} (seq : UInt8) {receiver : SegmentReceiver}
    (hcollects : i = transfer.totalSegments - 1 → receiver.Collects transfer.segments) :
    (client.accept transfer (Sender.segmentPdu transfer i segment) seq receiver state).1 =
      if i = transfer.totalSegments - 1 then
        { client with
          transaction := none
          session := none
          outcome := some (.complexAck transfer.segments.flatten)
          accepted := client.accepted ++ [(seq, segment)] }
      else
        { client with
          transaction := some { transaction with phase := .segmentedResponse }
          accepted := client.accepted ++ [(seq, segment)]
          session := some (Receiver.advance seq true receiver state).2 } := by
  have hmore : (Sender.segmentPdu transfer i segment).moreFollows
      = decide (i ≠ transfer.totalSegments - 1) := rfl
  have hservice : (Sender.segmentPdu transfer i segment).serviceChoice = transfer.serviceChoice :=
    rfl
  have hdata : (Sender.segmentPdu transfer i segment).serviceAck = segment := rfl
  obtain ⟨hreceiver, -, -, -, hwindow⟩ :=
    advance_state seq (decide (i ≠ transfer.totalSegments - 1)) receiver state
  unfold Receiver.accept
  rw [begin_pending hready, hmore, hservice, hdata]
  dsimp only
  rw [hwindow, hready.window, if_neg (by rintro ⟨-, hencoded⟩; exact hencoded rfl)]
  by_cases hlast : i = transfer.totalSegments - 1
  · rw [if_pos hlast, decide_eq_false (not_not_intro hlast), if_neg Bool.false_ne_true]
    rw [decide_eq_false (not_not_intro hlast)] at hreceiver
    rw [hreceiver, finish_whole { transaction with phase := .segmentedResponse } rfl rfl
      (h.service transaction hready.pending) (hcollects hlast)]
  · rw [if_neg hlast, decide_eq_true hlast, if_pos rfl]

theorem accept_acks {ack : ComplexAck} {seq : UInt8} {sent : SegmentAck}
    (hsent : Apdu.segmentAck sent ∈ (client.accept transfer ack seq receiver state).2) :
    sent.sequenceNumber = seq := by
  unfold Receiver.accept at hsent
  dsimp only at hsent
  generalize (if state.acceptedSegments = 0 then client.beginSegmentedResponse else client)
    = started at hsent
  split_ifs at hsent
  · exact absurd hsent List.not_mem_nil
  · cases List.mem_singleton.mp hsent
    rfl
  · exact absurd hsent List.not_mem_nil
  · cases List.mem_singleton.mp hsent
    rfl
  · exact absurd hsent List.not_mem_nil

/-- The next segment is saved and acknowledged. -/
theorem accepts_accept (h : Good transfer client) (hn : transfer.totalSegments ≤ 256)
    (hready : Ready transfer client transaction state i)
    (hsegment : transfer.segments[i]? = some segment) (hi : i = client.accepted.length)
    (hcollects : receiver.Collects (transfer.segments.take (client.accepted.length + 1))) :
    Accepts transfer i client
      (client.accept transfer (Sender.segmentPdu transfer i segment) (UInt8.ofNat i) receiver
        state).1
      (client.accept transfer (Sender.segmentPdu transfer i segment) (UInt8.ofNat i) receiver
        state).2 := by
  have hopen := hready.open_
  have hall : i = transfer.totalSegments - 1 →
      client.accepted.length + 1 = transfer.segments.length := by
    intro hlast
    unfold Transfer.totalSegments at hlast hopen
    omega
  have hlength : (client.accepted ++ [(UInt8.ofNat i, segment)]).length
      = client.accepted.length + 1 := by
    rw [List.length_append, List.length_singleton]
  have hwhole : i = transfer.totalSegments - 1 → receiver.Collects transfer.segments := by
    intro hlast
    rw [hall hlast, List.take_length] at hcollects
    exact hcollects
  have hclient := @accept_client transfer client transaction state i h hready segment
    (UInt8.ofNat i) receiver hwhole
  refine ⟨?_, hi, ?_, ?_⟩
  · rw [hclient]
    subst hi
    split_ifs with hlast
    · refine ⟨?_, ?_, ?_, ?_, ?_, ?_⟩
      · rw [hlength, Transfer.firstSegments_succ hsegment, ← h.accepted]
      · intro _ hnone
        cases hnone
      · intro _ hnone
        cases hnone
      · intro _ _ hnone
        cases hnone
      · intro _ hnone
        cases hnone
      · intro data hdata
        cases hdata
        exact ⟨rfl, hlength.trans (hall hlast)⟩
    · exact good_saved h hready hsegment hcollects (by omega) true
  · rw [hclient]
    split_ifs
    · exact hlength
    · exact hlength
  · intro ack hack
    rw [accept_acks hack, toNat_index (by omega)]
    omega

/-- What a segment does to a client that is ready for it. -/
theorem receiveSegment_cases (h : Good transfer client) (hn : transfer.totalSegments ≤ 256)
    (hready : Ready transfer client transaction state i)
    (hsegment : transfer.segments[i]? = some segment) :
    Takes transfer client
        (client.receiveSegment transfer (Sender.segmentPdu transfer i segment) (UInt8.ofNat i)
          state).1
        (client.receiveSegment transfer (Sender.segmentPdu transfer i segment) (UInt8.ofNat i)
          state).2 ∨
      Accepts transfer i client
        (client.receiveSegment transfer (Sender.segmentPdu transfer i segment) (UInt8.ofNat i)
          state).1
        (client.receiveSegment transfer (Sender.segmentPdu transfer i segment) (UInt8.ofNat i)
          state).2 := by
  have hopen := hready.open_
  have hlt : i < transfer.totalSegments := (List.getElem?_eq_some_iff.mp hsegment).1
  unfold Receiver.receiveSegment
  rw [if_neg]
  swap
  · rintro ⟨hsome, hphase⟩
    rw [hready.accepted] at hsome
    rw [hready.pending, Option.all_some, decide_eq_true_iff] at hphase
    exact hphase (hready.later hsome).1
  split_ifs with hother hfull
  · left
    refine takes_outOfOrder h hn hready ?_ _
    by_contra hnone
    have hzero : client.accepted.length = 0 := by omega
    rw [hready.expected, hzero, hready.first hzero] at hother
    exact hother rfl
  · left
    exact takes_abortReassembly h _
  · rw [not_not, hready.expected] at hother
    have hi : i = client.accepted.length := by
      have hnat := congrArg UInt8.toNat hother
      rwa [toNat_index (by omega), toNat_index (by omega)] at hnat
    split
    · left
      exact takes_abortReassembly h _
    · rename_i receiver hreceive
      right
      refine accepts_accept h hn hready hsegment hi ?_
      rw [hi] at hreceive hsegment
      have htaken : (transfer.segments.take client.accepted.length).length
          = client.accepted.length := by
        rw [List.length_take]
        exact Nat.min_eq_left hopen.le
      rw [take_concat hsegment]
      refine hready.collects.receive (by omega) ?_
      rw [htaken]
      exact hreceive

/-- What a segment of the transfer does to the client. -/
theorem handle_cases (h : Good transfer client) (hn : transfer.totalSegments ≤ 256)
    (hsegment : transfer.segments[i]? = some segment) (coordinatorAdmits : Bool) (otherSessions : ℕ)
    :
    Takes transfer client
        (client.handleSegmentedComplexAck transfer coordinatorAdmits otherSessions
          (Sender.segmentPdu transfer i segment)).1
        (client.handleSegmentedComplexAck transfer coordinatorAdmits otherSessions
          (Sender.segmentPdu transfer i segment)).2 ∨
      Accepts transfer i client
        (client.handleSegmentedComplexAck transfer coordinatorAdmits otherSessions
          (Sender.segmentPdu transfer i segment)).1
        (client.handleSegmentedComplexAck transfer coordinatorAdmits otherSessions
          (Sender.segmentPdu transfer i segment)).2 := by
  have hlt : i < transfer.totalSegments := (List.getElem?_eq_some_iff.mp hsegment).1
  have hnothing : ∀ {P : SegmentAck → Prop} ack, Apdu.segmentAck ack ∈ ([] : List Apdu) → P ack :=
    fun ack hack => absurd hack List.not_mem_nil
  unfold Receiver.handleSegmentedComplexAck
  dsimp only
  rw [show (Sender.segmentPdu transfer i segment).sequenceNumber.getD 0 = UInt8.ofNat i from rfl]
  cases htransaction : client.transaction with
  | none =>
    have hadmitted : client.admit_ (UInt8.ofNat i) = (.noTransaction, client) := by
      unfold Receiver.admit_
      rw [htransaction]
    rw [hadmitted]
    left
    exact ⟨h.gone htransaction (.inl rfl) rfl (.inl rfl), rfl, fun _ hack => clientAbort_acks hack⟩
  | some transaction =>
    have hgone : ∀ reason wireReason, Takes transfer client
        { client.abortTransaction reason with session := none }
        [Receiver.clientAbort transfer wireReason] := by
      intro reason wireReason
      obtain ⟨hnone, -, haccepted, houtcome⟩ := abortTransaction_gone reason client
      exact ⟨h.gone hnone (.inl rfl) haccepted houtcome, haccepted,
        fun _ hack => clientAbort_acks hack⟩
    cases hadmitted : client.admit_ (UInt8.ofNat i) with
    | mk admission client' =>
      unfold Receiver.admit_ at hadmitted
      rw [htransaction] at hadmitted
      dsimp only at hadmitted
      split_ifs at hadmitted with hfirst haccepts hsending hpolling
      · cases hadmitted
        exact .inl (hgone _ _)
      · cases hadmitted
        exact .inl (hgone _ _)
      · cases hadmitted
        exact .inl ⟨h, rfl, hnothing⟩
      · cases hadmitted
        exact .inl (hgone _ _)
      · cases hadmitted
        dsimp only
        cases hsession : client.session with
        | none =>
          obtain ⟨hnone, hphase⟩ := h.idle transaction htransaction hsession
          dsimp only
          split_ifs
          · exact .inl ⟨h, rfl, hnothing⟩
          · exact .inl (takes_abortReassembly h _)
          · refine receiveSegment_cases h hn ⟨htransaction, hsending, ?_, ?_, ?_, ?_, rfl, ?_, ?_⟩
              hsegment
            · rw [hnone]
              exact Nat.lt_of_le_of_lt (Nat.zero_le i) hlt
            · rw [hnone]
              rfl
            · rw [hnone]
              rfl
            · rw [hnone]
              exact SegmentReceiver.collects_new
            · intro _
              rw [not_and, not_not] at hfirst
              have hzero := congrArg UInt8.toNat (hfirst hphase)
              rwa [toNat_index (by omega)] at hzero
            · intro hsome
              rw [hnone] at hsome
              exact absurd hsome (Nat.lt_irrefl 0)
        | some state =>
          have hstate := h.session state hsession
          have hphase := h.busy transaction state htransaction hsession
          dsimp only
          split_ifs
          · exact .inl ⟨h, rfl, hnothing⟩
          · exact receiveSegment_cases h hn ⟨htransaction, hsending, hstate.open_, hstate.accepted,
              hstate.expected, hstate.collects, hstate.window,
              fun hzero => absurd hzero (Nat.pos_iff_ne_zero.mp hstate.some),
              fun _ => ⟨hphase, hstate.last⟩⟩ hsegment

end Client

/-! ## The server -/

section Server

variable {server : Sender}

theorem takeAck_cases (ack : SegmentAck) (server : Sender) :
    (server.takeAck transfer ack).1.queue = server.queue ∧
      (∀ apdu ∈ (server.takeAck transfer ack).2, ∃ abort, apdu = .abort abort) ∧
      ((server.takeAck transfer ack).1.segIdx = server.segIdx ∨
        ((server.takeAck transfer ack).1.segIdx = server.segIdx + 1 ∧
          ack.sequenceNumber.toNat = server.segIdx ∧ server.segIdx < transfer.totalSegments)) := by
  unfold Sender.takeAck
  by_cases hserver : ack.sentByServer = true
  · rw [if_pos hserver]
    exact ⟨rfl, fun _ h => absurd h List.not_mem_nil, .inl rfl⟩
  rw [if_neg hserver]
  cases hdisposition : segmentAckDisposition ack server.segIdx transfer.totalSegments with
  | none => exact ⟨rfl, fun _ h => absurd h List.not_mem_nil, .inl rfl⟩
  | some disposition =>
    cases disposition with
    | retransmit =>
      split_ifs
      · exact ⟨rfl, fun _ h => ⟨_, List.mem_singleton.mp h⟩, .inl rfl⟩
      · exact ⟨rfl, fun _ h => absurd h List.not_mem_nil, .inl rfl⟩
    | advance =>
      refine ⟨rfl, fun _ h => absurd h List.not_mem_nil, .inr ⟨rfl, ?_⟩⟩
      unfold segmentAckDisposition at hdisposition
      dsimp only at hdisposition
      split_ifs at hdisposition with hdone hbeyond hcurrent
      · exact ⟨hcurrent, by omega⟩
      · cases hdisposition

theorem wake_cases (result : SegmentedSendWaitResult) (server : Sender) :
    (∀ ack ∈ (server.wake transfer result).1.queue, ack ∈ server.queue) ∧
      (∀ apdu ∈ (server.wake transfer result).2, ∃ abort, apdu = .abort abort) ∧
      ((server.wake transfer result).1.segIdx = server.segIdx ∨
        ((server.wake transfer result).1.segIdx = server.segIdx + 1 ∧
          (∃ ack ∈ server.queue, ack.sequenceNumber.toNat = server.segIdx) ∧
          server.segIdx < transfer.totalSegments)) := by
  have hquiet : ∀ server' : Sender, server'.queue = server.queue →
      server'.segIdx = server.segIdx →
      (∀ ack ∈ server'.queue, ack ∈ server.queue) ∧
        (∀ apdu ∈ ([] : List Apdu), ∃ abort, apdu = .abort abort) ∧
        (server'.segIdx = server.segIdx ∨ (server'.segIdx = server.segIdx + 1 ∧
          (∃ ack ∈ server.queue, ack.sequenceNumber.toNat = server.segIdx) ∧
          server.segIdx < transfer.totalSegments)) := by
    intro server' hqueue hidx
    exact ⟨fun ack hack => hqueue ▸ hack, fun _ h => absurd h List.not_mem_nil, .inl hidx⟩
  unfold Sender.wake
  by_cases hstage : server.stage ≠ .waiting
  · rw [if_pos hstage]
    exact hquiet _ rfl rfl
  rw [if_neg hstage]
  by_cases hclosed : server.closed = true
  · rw [if_pos hclosed]
    exact hquiet _ rfl rfl
  rw [if_neg hclosed]
  cases result with
  | control => exact hquiet _ rfl rfl
  | channelClosed => exact hquiet _ rfl rfl
  | timeout =>
    split_ifs
    · exact hquiet _ rfl rfl
    · exact hquiet _ rfl rfl
  | segmentAck =>
    cases hqueue : server.queue with
    | nil =>
      refine ⟨?_, fun _ h => absurd h List.not_mem_nil, .inl rfl⟩
      intro ack hack
      rwa [← hqueue]
    | cons ack queue =>
      obtain ⟨hkept, haborts, hidx⟩ :=
        @takeAck_cases transfer ack { server with queue := queue }
      refine ⟨?_, haborts, ?_⟩
      · intro other hother
        rw [hkept] at hother
        exact List.mem_cons_of_mem ack hother
      · rcases hidx with hsame | ⟨hnext, hack, hlt⟩
        · exact .inl hsame
        · exact .inr ⟨hnext, ⟨ack, List.mem_cons_self, hack⟩, hlt⟩

theorem transmit_cases (sent : Bool) (server : Sender) :
    (server.transmit transfer sent).1.queue = server.queue ∧
      (server.transmit transfer sent).1.segIdx = server.segIdx ∧
      ∀ apdu ∈ (server.transmit transfer sent).2, ∃ segment,
        transfer.segments[server.segIdx]? = some segment ∧
          apdu = .complexAck (Sender.segmentPdu transfer server.segIdx segment) := by
  unfold Sender.transmit
  by_cases hstage : server.stage ≠ .sending
  · rw [if_pos hstage]
    exact ⟨rfl, rfl, fun _ h => absurd h List.not_mem_nil⟩
  rw [if_neg hstage]
  cases hsegment : transfer.segments[server.segIdx]? with
  | none => exact ⟨rfl, rfl, fun _ h => absurd h List.not_mem_nil⟩
  | some segment => exact ⟨rfl, rfl, fun _ h => ⟨segment, rfl, List.mem_singleton.mp h⟩⟩

theorem route_cases (apdu : Apdu) (server : Sender) :
    (server.route transfer apdu).segIdx = server.segIdx ∧
      ∀ ack ∈ (server.route transfer apdu).queue, ack ∈ server.queue ∨ apdu = .segmentAck ack := by
  unfold Sender.route
  split
  · split_ifs
    · exact ⟨rfl, fun ack h => .inl h⟩
    · exact ⟨rfl, fun ack h => .inl h⟩
  · split_ifs
    · refine ⟨rfl, ?_⟩
      intro ack hack
      rcases List.mem_append.mp hack with hold | hnew
      · exact .inl hold
      · rw [List.mem_singleton.mp hnew]
        exact .inr rfl
    · exact ⟨rfl, fun ack h => .inl h⟩
  · exact ⟨rfl, fun ack h => .inl h⟩

end Server

/-! ## Both sides -/

/-- The two sides and what is under way between them fit together. -/
structure Consistent (transfer : Transfer) (world : ResponseWorld) : Prop where
  good : Good transfer world.client
  behind : world.server.segIdx ≤ world.client.accepted.length
  ahead : world.client.accepted.length ≤ world.server.segIdx + 1
  within : world.server.segIdx ≤ transfer.totalSegments
  sent : ∀ apdu ∈ world.toClient, (∃ abort, apdu = .abort abort) ∨ ∃ i segment,
    i ≤ world.server.segIdx ∧ transfer.segments[i]? = some segment ∧
      apdu = .complexAck (Sender.segmentPdu transfer i segment)
  acked : ∀ ack, Apdu.segmentAck ack ∈ world.toServer →
    ack.sequenceNumber.toNat < world.client.accepted.length
  queued : ∀ ack ∈ world.server.queue,
    ack.sequenceNumber.toNat < world.client.accepted.length

theorem Consistent.server {world : ResponseWorld} (h : Consistent transfer world)
    {server' : Sender} {sent : List Apdu}
    (hqueue : ∀ ack ∈ server'.queue, ack.sequenceNumber.toNat < world.client.accepted.length)
    (hsent : ∀ apdu ∈ sent, (∃ abort, apdu = .abort abort) ∨ ∃ i segment,
      i ≤ server'.segIdx ∧ transfer.segments[i]? = some segment ∧
        apdu = .complexAck (Sender.segmentPdu transfer i segment))
    (hgrown : world.server.segIdx ≤ server'.segIdx)
    (hbehind : server'.segIdx ≤ world.client.accepted.length)
    (hwithin : server'.segIdx ≤ transfer.totalSegments) :
    Consistent transfer
      { world with server := server', toClient := world.toClient ++ sent } := by
  refine ⟨h.good, hbehind, ?_, hwithin, ?_, h.acked, hqueue⟩
  · have := h.ahead
    show world.client.accepted.length ≤ server'.segIdx + 1
    omega
  · intro apdu hapdu
    rcases List.mem_append.mp hapdu with hold | hnew
    · rcases h.sent apdu hold with habort | ⟨i, segment, hi, hsegment⟩
      · exact .inl habort
      · exact .inr ⟨i, segment, hi.trans hgrown, hsegment⟩
    · exact hsent apdu hnew

/-- A PDU the client accepted nothing of, or its next segment. -/
theorem Consistent.client {world : ResponseWorld} (h : Consistent transfer world)
    {client' : Receiver} {sent : List Apdu} {i : ℕ} (hi : i ≤ world.server.segIdx)
    (htaken : Takes transfer world.client client' sent ∨
      Accepts transfer i world.client client' sent) :
    Consistent transfer { world with client := client', toServer := world.toServer ++ sent } := by
  have hgrown : world.client.accepted.length ≤ client'.accepted.length := by
    rcases htaken with htakes | haccepts
    · rw [htakes.same]
    · rw [haccepts.grown]
      exact Nat.le_succ _
  refine ⟨?_, h.behind.trans hgrown, ?_, h.within, h.sent, ?_, ?_⟩
  · rcases htaken with htakes | haccepts
    · exact htakes.good
    · exact haccepts.good
  · show client'.accepted.length ≤ world.server.segIdx + 1
    rcases htaken with htakes | haccepts
    · rw [htakes.same]
      exact h.ahead
    · rw [haccepts.grown, ← haccepts.next]
      omega
  · intro ack hack
    show ack.sequenceNumber.toNat < client'.accepted.length
    rcases List.mem_append.mp hack with hold | hnew
    · exact Nat.lt_of_lt_of_le (h.acked ack hold) hgrown
    · rcases htaken with htakes | haccepts
      · rw [htakes.same]
        exact htakes.acks ack hnew
      · rw [haccepts.grown]
        exact haccepts.acks ack hnew
  · intro ack hack
    exact Nat.lt_of_lt_of_le (h.queued ack hack) hgrown

theorem takes_ends {client : Receiver} (h : Good transfer client) (error : Option RemoteError)
    (session : Option SegmentedReceiveState) (hsession : session = none ∨ session = client.session) :
    Takes transfer client { client.ends error with session := session } [] := by
  have hgone : (client.ends error).transaction = none ∧
      (client.ends error).accepted = client.accepted ∧
      ((client.ends error).outcome = client.outcome ∨
        ∀ data, (client.ends error).outcome ≠ some (.complexAck data)) := by
    unfold Receiver.ends
    split
    · rename_i hnone
      exact ⟨hnone, rfl, .inl rfl⟩
    · refine ⟨rfl, rfl, .inr ?_⟩
      intro data hdata
      cases error with
      | none => cases hdata
      | some error => cases hdata
  obtain ⟨htransaction, haccepted, houtcome⟩ := hgone
  exact ⟨h.gone htransaction hsession haccepted houtcome, haccepted,
    fun _ hack => absurd hack List.not_mem_nil⟩

theorem good_progressed {client : Receiver} (h : Good transfer client)
    (progress : Receiver.RequestProgress) :
    Good transfer { client with
      transaction := client.transaction.map (Receiver.progressed progress) } := by
  have hprogressed : ∀ transaction : Transaction,
      (Receiver.progressed progress transaction).expectedServiceChoice
          = transaction.expectedServiceChoice ∧
        ((Receiver.progressed progress transaction).phase = .segmentedResponse ↔
          transaction.phase = .segmentedResponse) := by
    intro transaction
    obtain ⟨phase, polling, service⟩ := transaction
    unfold Receiver.progressed
    cases phase with
    | awaitingResponse => cases progress <;> simp
    | segmentedResponse => cases progress <;> simp
    | segmentedRequest sentAll => cases sentAll <;> cases progress <;> simp
  refine ⟨h.accepted, ?_, ?_, ?_, h.session, h.whole⟩
  · intro transaction htransaction
    obtain ⟨before, hbefore, rfl⟩ := Option.map_eq_some_iff.mp htransaction
    rw [(hprogressed before).1]
    exact h.service before hbefore
  · intro transaction htransaction hsession
    obtain ⟨before, hbefore, rfl⟩ := Option.map_eq_some_iff.mp htransaction
    obtain ⟨hnone, hphase⟩ := h.idle before hbefore hsession
    exact ⟨hnone, fun hresponse => hphase ((hprogressed before).2.mp hresponse)⟩
  · intro transaction state htransaction hsession
    obtain ⟨before, hbefore, rfl⟩ := Option.map_eq_some_iff.mp htransaction
    exact (hprogressed before).2.mpr (h.busy before state hbefore hsession)

/-- Every step of either side and of the network keeps them consistent. -/
theorem consistent_step (hn : transfer.totalSegments ≤ 256) (world : ResponseWorld)
    (event : ResponseEvent) (h : Consistent transfer world) :
    Consistent transfer (world.step transfer event) := by
  have hquiet : ∀ client', Takes transfer world.client client' [] →
      Consistent transfer { world with client := client' } := by
    intro client' htakes
    have hstep := h.client (i := 0) (Nat.zero_le _) (.inl htakes)
    rwa [List.append_nil] at hstep
  cases event with
  | transmit sent =>
    obtain ⟨hqueue, hidx, hsent⟩ := @transmit_cases transfer sent world.server
    have hqueued : ∀ ack ∈ (world.server.transmit transfer sent).1.queue,
        ack.sequenceNumber.toNat < world.client.accepted.length := by
      rw [hqueue]
      exact h.queued
    refine h.server hqueued ?_ hidx.ge (hidx.le.trans h.behind) (hidx.le.trans h.within)
    · intro apdu hapdu
      obtain ⟨segment, hsegment, heq⟩ := hsent apdu hapdu
      exact .inr ⟨world.server.segIdx, segment, hidx.ge, hsegment, heq⟩
  | wake result =>
    obtain ⟨hqueue, haborts, hidx⟩ := @wake_cases transfer result world.server
    have hbounds : world.server.segIdx ≤ (world.server.wake transfer result).1.segIdx ∧
        (world.server.wake transfer result).1.segIdx ≤ world.client.accepted.length ∧
        (world.server.wake transfer result).1.segIdx ≤ transfer.totalSegments := by
      have hbehind := h.behind
      have hwithin := h.within
      rcases hidx with hsame | ⟨hnext, ⟨ack, hack, hseq⟩, hlt⟩
      · omega
      · have hqueued := h.queued ack hack
        omega
    exact h.server (fun ack hack => h.queued ack (hqueue ack hack))
      (fun apdu hapdu => .inl (haborts apdu hapdu)) hbounds.1 hbounds.2.1 hbounds.2.2
  | reachesServer index =>
    unfold ResponseWorld.step
    dsimp only
    cases hapdu : world.toServer[index]? with
    | none => exact h
    | some apdu =>
      obtain ⟨hidx, hqueue⟩ := @route_cases transfer apdu world.server
      have hstep := @Consistent.server transfer world h (world.server.route transfer apdu) []
        ?_ (fun _ hnone => absurd hnone List.not_mem_nil) hidx.ge (hidx.le.trans h.behind)
        (hidx.le.trans h.within)
      · rwa [List.append_nil] at hstep
      · intro ack hack
        rcases hqueue ack hack with hold | rfl
        · exact h.queued ack hold
        · exact h.acked ack (List.mem_of_getElem? hapdu)
  | reachesClient index coordinatorAdmits otherSessions =>
    unfold ResponseWorld.step
    dsimp only
    cases hapdu : world.toClient[index]? with
    | none => exact h
    | some apdu =>
      rcases h.sent apdu (List.mem_of_getElem? hapdu) with ⟨abort, rfl⟩ | ⟨i, segment, hi, hsegment, rfl⟩
      · unfold ResponseWorld.clientReceives
        dsimp only
        split_ifs
        · exact h.client (Nat.zero_le _) (i := 0) (.inl (takes_ends h.good _ none (.inl rfl)))
        · exact h.client (Nat.zero_le _) (i := 0)
            (.inl ⟨h.good, rfl, fun _ hack => absurd hack List.not_mem_nil⟩)
      · exact h.client hi (handle_cases h.good hn hsegment coordinatorAdmits otherSessions)
  | requestProgress progress =>
    exact hquiet _ ⟨good_progressed h.good progress, rfl, fun _ hack => absurd hack List.not_mem_nil⟩
  | ends error =>
    refine hquiet _ (takes_ends h.good error (world.client.ends error).session (.inr ?_))
    unfold Receiver.ends
    split
    · rfl
    · rfl
  | cleanup =>
    refine hquiet _ ⟨?_, ?_, fun _ hack => absurd hack List.not_mem_nil⟩
    · unfold Receiver.cleanup
      split_ifs with hnone
      · exact h.good.gone (Option.isNone_iff_eq_none.mp hnone) (.inl rfl) rfl (.inl rfl)
      · exact h.good
    · unfold Receiver.cleanup
      split_ifs
      · rfl
      · rfl

theorem consistent_start (transfer : Transfer) (maxRetries : ℕ) (limits : ResponseLimits)
    (segmented : Bool) : Consistent transfer (.start transfer maxRetries limits segmented) where
  good := by
    refine ⟨rfl, ?_, ?_, ?_, ?_, ?_⟩
    · rintro transaction htransaction
      cases htransaction
      rfl
    · rintro transaction htransaction _
      cases htransaction
      refine ⟨rfl, ?_⟩
      unfold Transaction.registered
      split_ifs
      · exact TransactionPhase.noConfusion
      · exact TransactionPhase.noConfusion
    · rintro transaction state _ hsession
      cases hsession
    · rintro state hsession
      cases hsession
    · rintro data hdata
      cases hdata
  behind := Nat.le_refl 0
  ahead := Nat.zero_le 1
  within := Nat.zero_le _
  sent := fun _ h => absurd h List.not_mem_nil
  acked := fun _ h => absurd h List.not_mem_nil
  queued := fun _ h => absurd h List.not_mem_nil

/-! ## The transfer -/

/-- What holds of a segmented response at every moment of every run. -/
structure ResponseLaws (payload : List UInt8) (transfer : Transfer) (world : ResponseWorld) :
    Prop where
  /-- A ComplexACK completes the transaction with the whole payload or not at all. -/
  whole : ∀ data, world.client.outcome = some (.complexAck data) → data = payload
  /-- The server's loop runs to its end only if the client accepted every segment. -/
  finished : world.server.segIdx = transfer.totalSegments →
    world.client.accepted = transfer.firstSegments transfer.totalSegments
  /-- What the client accepted is the first `k` segments, and the server is at `k - 1` or `k`. -/
  inStep : ∃ k, world.client.accepted = transfer.firstSegments k ∧
    k ≤ world.server.segIdx + 1 ∧ world.server.segIdx ≤ k ∧ k ≤ transfer.totalSegments
  /-- No segment was accepted twice. -/
  once : (world.client.accepted.map Prod.fst).Nodup

theorem accepted_length_le {client : Receiver} (h : Good transfer client) :
    client.accepted.length ≤ transfer.totalSegments := by
  have hlength := congrArg List.length h.accepted
  unfold Transfer.firstSegments at hlength
  rw [List.length_mapIdx, List.length_take] at hlength
  unfold Transfer.totalSegments
  omega

theorem nodup_firstSegments (hn : transfer.totalSegments ≤ 256) (k : ℕ) :
    ((transfer.firstSegments k).map Prod.fst).Nodup := by
  have hnumbers : (transfer.firstSegments k).map Prod.fst
      = (List.range (transfer.segments.take k).length).map UInt8.ofNat := by
    refine List.ext_getElem ?_ ?_
    · simp [Transfer.firstSegments]
    · intro i _ _
      simp [Transfer.firstSegments]
  rw [hnumbers]
  refine List.Nodup.map_on ?_ List.nodup_range
  intro i hi j hj hsame
  rw [List.mem_range, List.length_take] at hi hj
  unfold Transfer.totalSegments at hn
  have hnat := congrArg UInt8.toNat hsame
  rwa [toNat_index (by omega), toNat_index (by omega)] at hnat

/-- **A segmented response arrives whole or not at all.** For every payload the server splits, the
laws hold after every run of the sender, the receiver and the network. -/
theorem segmented_response_whole_or_not {payload : List UInt8} {clientMaxApdu : UInt16}
    {segments : List (List UInt8)}
    (hsplit : splitPayload payload (maxSegmentPayload clientMaxApdu .complexAck) = .ok segments)
    (invokeId : UInt8) (serviceChoice : ConfirmedServiceChoice) (maxRetries : ℕ)
    (limits : ResponseLimits) (segmented : Bool) (events : List ResponseEvent) :
    ResponseLaws payload ⟨invokeId, serviceChoice, segments⟩
      ((ResponseWorld.start ⟨invokeId, serviceChoice, segments⟩ maxRetries limits segmented).run
        ⟨invokeId, serviceChoice, segments⟩ events) := by
  obtain ⟨hflatten, -, hn⟩ := splitPayload_ok hsplit
  generalize htransfer : (⟨invokeId, serviceChoice, segments⟩ : Transfer) = transfer
  have hsegments : transfer.segments = segments := by rw [← htransfer]
  have htotal : transfer.totalSegments ≤ 256 := by
    unfold Transfer.totalSegments
    rw [hsegments]
    exact hn
  have h : Consistent transfer
      ((ResponseWorld.start transfer maxRetries limits segmented).run transfer events) :=
    Runs.invariant (Consistent transfer) (consistent_step htotal) events
      (consistent_start transfer maxRetries limits segmented)
  generalize (ResponseWorld.start transfer maxRetries limits segmented).run transfer events
    = world at h
  refine ⟨?_, ?_, ⟨world.client.accepted.length, h.good.accepted, h.ahead, h.behind,
    accepted_length_le h.good⟩, ?_⟩
  · intro data hdata
    rw [(h.good.whole data hdata).1, hsegments, hflatten]
  · intro hfinished
    have hall : world.client.accepted.length = transfer.totalSegments := by
      have := h.behind
      have := accepted_length_le h.good
      omega
    rw [h.good.accepted, hall]
  · rw [h.good.accepted]
    exact nodup_firstSegments htotal _

theorem segmented_response_whole_or_not_two :
    splitPayload [1, 2, 3] (maxSegmentPayload 7 .complexAck) = .ok [[1, 2], [3]] ∧
      ResponseLaws [1, 2, 3] ⟨9, ⟨12⟩, [[1, 2], [3]]⟩
        ((ResponseWorld.start ⟨9, ⟨12⟩, [[1, 2], [3]]⟩ 3 ⟨true, 256⟩ false).run
          ⟨9, ⟨12⟩, [[1, 2], [3]]⟩
          [.transmit true, .reachesClient 0 true 0, .reachesServer 0, .wake .segmentAck,
            .transmit true, .reachesClient 1 true 0]) :=
  ⟨by decide, @segmented_response_whole_or_not [1, 2, 3] 7 [[1, 2], [3]] (by decide) 9 ⟨12⟩ 3
    ⟨true, 256⟩ false _⟩

end RustyBacnet.Segmentation
