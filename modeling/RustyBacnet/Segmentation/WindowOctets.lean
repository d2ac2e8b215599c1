import RustyBacnet.Apdu.Codec
import RustyBacnet.Segmentation.ResponseRuns

/-!
# A window octet that loses a response

The client keeps the window octet of a response's first segment and puts it into every SegmentACK,
which it encodes before it looks whether the response is complete. An octet that is no window size
(0 or above 127) has the encoding refused, at the last segment too, and the handler returns there:
the segments are all saved, and the transaction is left to time out. The server refuses such a
request at its first segment.
-/

namespace RustyBacnet.Segmentation

open Encoding

/-! ## Segments as they arrive -/

/-- Segment `i` of the response, with its window octet. -/
def segmentOctets (transfer : Transfer) (windows : ℕ → UInt8) (i : ℕ) (data : List UInt8) :
    List UInt8 :=
  (if i + 1 = transfer.totalSegments then 0x38 else 0x3C) :: transfer.invokeId :: UInt8.ofNat i ::
    windows i :: transfer.serviceChoice.raw :: data

/-- A segmented ComplexACK that arrives, with the session table at `others`. -/
def Receiver.arrive (transfer : Transfer) (others : ℕ) (client : Receiver) (octets : List UInt8) :
    Receiver :=
  match decodeApdu octets with
  | .ok (.complexAck ack) => (client.handleSegmentedComplexAck transfer true others ack).1
  | _ => client

/-- The segments arrive from number `from_` on, in order and once. -/
def Receiver.arriveAll (transfer : Transfer) (windows : ℕ → UInt8) (others : ℕ) :
    Receiver → ℕ → List (List UInt8) → Receiver
  | client, _, [] => client
  | client, from_, data :: rest =>
    Receiver.arriveAll transfer windows others
      (client.arrive transfer others (segmentOctets transfer windows from_ data)) (from_ + 1) rest

/-- The transaction completed with the whole response, and the session is forgotten. -/
structure Completes (transfer : Transfer) (client : Receiver) : Prop where
  outcome : client.outcome = some (.complexAck transfer.segments.flatten)
  transaction : client.transaction.isNone
  session : client.session.isNone

def segmentAck (transfer : Transfer) (windows : ℕ → UInt8) (i : ℕ) (data : List UInt8) :
    ComplexAck :=
  ⟨true, i + 1 ≠ transfer.totalSegments, transfer.invokeId, some (UInt8.ofNat i),
    some (windows i), transfer.serviceChoice, data⟩

theorem decode_segmentOctets (transfer : Transfer) (windows : ℕ → UInt8) (i : ℕ)
    (data : List UInt8) : decodeApdu (segmentOctets transfer windows i data)
      = .ok (.complexAck (segmentAck transfer windows i data)) := by
  unfold segmentOctets segmentAck
  by_cases hlast : i + 1 = transfer.totalSegments
  · rw [if_pos hlast, decodeApdu_complexAck (by decide), decide_eq_false (not_not_intro hlast)]
    rfl
  · rw [if_neg hlast, decodeApdu_complexAck (by decide), decide_eq_true hlast]
    rfl

theorem encodeSegmentAck_ok (buf : List UInt8) (ack : SegmentAck) :
    (encodeSegmentAck buf ack).1 = .ok () ↔
      1 ≤ ack.actualWindowSize ∧ ack.actualWindowSize ≤ 127 := by
  unfold encodeSegmentAck validWindowSize
  by_cases hwindow : 1 ≤ ack.actualWindowSize ∧ ack.actualWindowSize ≤ 127
  · rw [if_pos hwindow]
    exact ⟨fun _ => hwindow, fun _ => rfl⟩
  · rw [if_neg hwindow]
    exact ⟨fun h => absurd h nofun, fun h => absurd h hwindow⟩

/-! ## One segment -/

/-- The client saved the first `k` segments, and no answer was given. -/
structure Holds (transfer : Transfer) (limits : ResponseLimits) (window : UInt8) (k : ℕ)
    (client : Receiver) : Prop where
  limits_eq : client.limits = limits
  outcome : client.outcome = none
  pending : ∃ transaction, client.transaction = some transaction ∧
    transaction.phase = .segmentedResponse ∧
    transaction.expectedServiceChoice = transfer.serviceChoice
  held : ∃ state, client.session = some state ∧
    state.receiver.Collects (transfer.segments.take k) ∧ state.acceptedSegments = k ∧
    state.expectedNextSeq = UInt8.ofNat k ∧ state.actualWindowSize = window

/-- The transaction ended without the response. -/
structure Lost (client : Receiver) : Prop where
  transaction : client.transaction = none
  outcome : ∃ error, client.outcome = some (.remote error)

/-- What the next segment does: the client aborts on one that is too long, saves another, and
completes at the last when the window octet can be sent back. -/
theorem accept_next {transfer : Transfer} {limits : ResponseLimits} {windows : ℕ → UInt8} {k : ℕ}
    {client : Receiver} {transaction : Transaction} {state : SegmentedReceiveState}
    {data : List UInt8} {window : UInt8} (hlimits : client.limits = limits)
    (houtcome : client.outcome = none) (hpending : client.transaction = some transaction)
    (hphase : transaction.phase ≠ .segmentedRequest false)
    (hlater : 0 < k → transaction.phase = .segmentedResponse)
    (hservice : transaction.expectedServiceChoice = transfer.serviceChoice)
    (hcollects : state.receiver.Collects (transfer.segments.take k))
    (haccepted : state.acceptedSegments = k) (hexpected : state.expectedNextSeq = UInt8.ofNat k)
    (hwindow : state.actualWindowSize = window) (hdata : transfer.segments[k]? = some data)
    (hroom : transfer.totalSegments ≤ limits.maxReassemblySegments)
    (hspace : limits.maxReassemblySegments ≤ 256) :
    let client' := (client.receiveSegment transfer (segmentAck transfer windows k data)
      (UInt8.ofNat k) state).1
    if data.length > SegmentReceiver.MAX_SEGMENT_SIZE then Lost client'
    else if k + 1 = transfer.totalSegments ∧ 1 ≤ window ∧ window ≤ 127 then
      Completes transfer client'
    else Holds transfer limits window (k + 1) client' := by
  intro client'
  have hk : k < transfer.totalSegments := by
    by_contra hnot
    rw [List.getElem?_eq_none (Nat.le_of_not_lt hnot)] at hdata
    cases hdata
  have htake : (transfer.segments.take k).length = k := by
    rw [List.length_take]
    exact Nat.min_eq_left hk.le
  have hopen : ¬(state.acceptedSegments > 0 ∧
      client.transaction.all (fun transaction => transaction.phase ≠ .segmentedResponse) = true) := by
    rintro ⟨hpositive, hall⟩
    rw [hpending, Option.all_some, decide_eq_true_eq] at hall
    exact hall (hlater (haccepted ▸ hpositive))
  have hfree : ¬state.acceptedSegments ≥ client.limits.maxReassemblySegments := by
    rw [hlimits, haccepted]
    omega
  obtain ⟨receiver, hreceiver⟩ : ∃ receiver,
      receiver = (⟨Pairs.insert state.receiver.segments (UInt8.ofNat k) data⟩ : SegmentReceiver) :=
    ⟨_, rfl⟩
  by_cases hlong : data.length > SegmentReceiver.MAX_SEGMENT_SIZE
  · rw [if_pos hlong]
    have hreceive : state.receiver.receive (UInt8.ofNat k) data
        = .error (.segmentTooLarge data.length SegmentReceiver.MAX_SEGMENT_SIZE) := if_pos hlong
    have hclient : client' = (client.abortReassembly transfer AbortReason.BUFFER_OVERFLOW).1 := by
      show (client.receiveSegment _ _ _ _).1 = _
      unfold Receiver.receiveSegment
      rw [if_neg hopen, if_neg (not_not_intro hexpected.symm), if_neg hfree]
      unfold segmentAck
      rw [hreceive]
    rw [hclient]
    unfold Receiver.abortReassembly Receiver.abortTransaction Receiver.completeTransaction
    rw [hpending]
    dsimp only
    rw [if_neg (fun h => absurd h.1 Bool.false_ne_true)]
    exact ⟨rfl, _, rfl⟩
  rw [if_neg hlong]
  have hreceive : state.receiver.receive (UInt8.ofNat k) data = .ok receiver := by
    unfold SegmentReceiver.receive
    rw [if_neg hlong, hreceiver]
  have hclient : client' = (client.accept transfer (segmentAck transfer windows k data)
      (UInt8.ofNat k) receiver state).1 := by
    show (client.receiveSegment _ _ _ _).1 = _
    unfold Receiver.receiveSegment
    rw [if_neg hopen, if_neg (not_not_intro hexpected.symm), if_neg hfree]
    unfold segmentAck
    rw [hreceive]
  have hsaved : receiver.Collects (transfer.segments.take (k + 1)) := by
    rw [List.take_add_one, hdata]
    exact hcollects.receive (by rw [htake]; omega) (by rw [htake]; exact hreceive)
  obtain ⟨hkept, hcount, hnext, -, hsize⟩ := advance_state (UInt8.ofNat k)
    (decide (k + 1 ≠ transfer.totalSegments)) receiver state
  have hbegin := begin_response hpending hphase fun hpositive => hlater (haccepted ▸ hpositive)
  have hmore : (segmentAck transfer windows k data).moreFollows
      = decide (k + 1 ≠ transfer.totalSegments) := rfl
  have hdone : (segmentAck transfer windows k data).serviceChoice = transfer.serviceChoice := rfl
  -- the state kept when the handler returns, acknowledged or not
  have hholds : ∀ accepted, Holds transfer limits window (k + 1)
      { client with
        transaction := some { transaction with phase := .segmentedResponse }
        accepted := accepted
        session := some (Receiver.advance (UInt8.ofNat k)
          (decide (k + 1 ≠ transfer.totalSegments)) receiver state).2 } := by
    intro accepted
    refine ⟨hlimits, houtcome, ⟨_, rfl, rfl, hservice⟩, _, rfl, ?_, ?_, ?_, hsize.trans hwindow⟩
    · rw [hkept]
      exact hsaved
    · rw [hcount, haccepted]
    · rw [hnext]
      exact (UInt8.ofNat_add _ _).symm
  have hsent : (encodeSegmentAck [] ⟨false, false, transfer.invokeId, UInt8.ofNat k,
      (Receiver.advance (UInt8.ofNat k) (decide (k + 1 ≠ transfer.totalSegments)) receiver
        state).2.actualWindowSize⟩).1 = .ok () ↔ 1 ≤ window ∧ window ≤ 127 := by
    rw [encodeSegmentAck_ok]
    rw [hsize, hwindow]
  rw [hclient]
  unfold Receiver.accept
  rw [hbegin, hmore, hdone]
  by_cases hlast : k + 1 = transfer.totalSegments
  · have hfirst : (Receiver.advance (UInt8.ofNat k) (decide (k + 1 ≠ transfer.totalSegments))
        receiver state).1 = true := by
      rw [decide_eq_false (not_not_intro hlast)]
      rfl
    by_cases hsend : 1 ≤ window ∧ window ≤ 127
    · rw [if_pos ⟨hlast, hsend⟩, if_neg (fun h => h.2 (hsent.mpr hsend)), if_neg]
      · have hwhole : transfer.segments.take (k + 1) = transfer.segments :=
          List.take_of_length_le (Nat.le_of_eq hlast.symm)
        rw [hkept, finish_whole { transaction with phase := .segmentedResponse } rfl rfl hservice
          (hwhole ▸ hsaved)]
        exact ⟨rfl, rfl, rfl⟩
      · rw [decide_eq_false (not_not_intro hlast)]
        exact Bool.false_ne_true
    · rw [if_neg (fun h => hsend h.2), if_pos ⟨hfirst, fun h => hsend (hsent.mp h)⟩]
      exact hholds _
  · rw [if_neg (fun h => hlast h.1)]
    by_cases hrefused : (Receiver.advance (UInt8.ofNat k) (decide (k + 1 ≠ transfer.totalSegments))
        receiver state).1 = true ∧ (encodeSegmentAck [] ⟨false, false, transfer.invokeId,
          UInt8.ofNat k, (Receiver.advance (UInt8.ofNat k)
            (decide (k + 1 ≠ transfer.totalSegments)) receiver state).2.actualWindowSize⟩).1 ≠ .ok ()
    · rw [if_pos hrefused]
      exact hholds _
    · rw [if_neg hrefused, if_pos (decide_eq_true hlast)]
      exact hholds _

/-! ## A whole response -/

variable {transfer : Transfer} {client : Receiver} {windows : ℕ → UInt8} {others : ℕ}

theorem lost_arriveAll (h : Lost client) (from_ : ℕ) (rest : List (List UInt8)) :
    Lost (client.arriveAll transfer windows others from_ rest) := by
  induction rest generalizing client from_ with
  | nil => exact h
  | cons data rest ih =>
    refine ih ?_ (from_ + 1)
    unfold Receiver.arrive
    rw [decode_segmentOctets]
    unfold Receiver.handleSegmentedComplexAck Receiver.admit_
    rw [h.transaction]
    exact ⟨h.transaction, h.outcome⟩

theorem not_completes_of_lost (h : Lost client) : ¬Completes transfer client := by
  rintro ⟨houtcome, -, -⟩
  obtain ⟨error, herror⟩ := h.outcome
  rw [herror] at houtcome
  cases houtcome

theorem arrive_held {transfer : Transfer} {windows : ℕ → UInt8} {others k : ℕ} {client : Receiver}
    {transaction : Transaction} {state : SegmentedReceiveState} (data : List UInt8)
    (hpending : client.transaction = some transaction)
    (hphase : transaction.phase = .segmentedResponse) (hsession : client.session = some state) :
    client.arrive transfer others (segmentOctets transfer windows k data)
      = (client.receiveSegment transfer (segmentAck transfer windows k data) (UInt8.ofNat k)
        state).1 := by
  unfold Receiver.arrive
  rw [decode_segmentOctets]
  unfold Receiver.handleSegmentedComplexAck Receiver.admit_
  rw [hpending]
  dsimp only
  rw [if_neg (fun h => h.1 hphase), if_neg (fun h => h.1 hphase), if_neg (by rw [hphase]; exact nofun)]
  dsimp only
  rw [hsession]
  rfl

/-- The rest of the segments, after segment `k` arrived. -/
theorem arriveAll_rest {limits : ResponseLimits} {k : ℕ} {window : UInt8} {data : List UInt8}
    {rest : List (List UInt8)}
    (h : if data.length > SegmentReceiver.MAX_SEGMENT_SIZE then Lost client
      else if k + 1 = transfer.totalSegments ∧ 1 ≤ window ∧ window ≤ 127 then
        Completes transfer client
      else Holds transfer limits window (k + 1) client)
    (hsegments : transfer.segments = transfer.segments.take k ++ data :: rest)
    (hk : k < transfer.totalSegments)
    (hroom : transfer.totalSegments ≤ limits.maxReassemblySegments)
    (hspace : limits.maxReassemblySegments ≤ 256) :
    Completes transfer (client.arriveAll transfer windows others (k + 1) rest) ↔
      (1 ≤ window ∧ window ≤ 127) ∧
        ∀ segment ∈ data :: rest, segment.length ≤ SegmentReceiver.MAX_SEGMENT_SIZE := by
  by_cases hlong : data.length > SegmentReceiver.MAX_SEGMENT_SIZE
  · rw [if_pos hlong] at h
    refine iff_of_false (not_completes_of_lost (lost_arriveAll h _ _)) ?_
    rintro ⟨-, hsizes⟩
    exact absurd (hsizes data List.mem_cons_self) (Nat.not_le.mpr hlong)
  rw [if_neg hlong] at h
  have hshort := Nat.le_of_not_lt hlong
  have htaken : (transfer.segments.take k).length = k := List.length_take_of_le hk.le
  have htake : transfer.segments.take (k + 1) = transfer.segments.take k ++ [data] := by
    have hdata : transfer.segments[k]? = some data := by
      rw [hsegments, List.getElem?_append_right (Nat.le_of_eq htaken), htaken, Nat.sub_self]
      rfl
    rw [List.take_add_one, hdata]
    rfl
  have hlength : transfer.totalSegments = k + 1 + rest.length := by
    have := congrArg List.length hsegments
    rw [List.length_append, List.length_cons, htaken] at this
    unfold Transfer.totalSegments
    omega
  induction rest generalizing client k data with
  | nil =>
    have hlast : k + 1 = transfer.totalSegments := hlength.symm
    unfold Receiver.arriveAll
    by_cases hsend : 1 ≤ window ∧ window ≤ 127
    · rw [if_pos ⟨hlast, hsend⟩] at h
      refine iff_of_true h ⟨hsend, fun other hother => ?_⟩
      rw [List.mem_singleton.mp hother]
      exact hshort
    · rw [if_neg (fun hand => hsend hand.2)] at h
      refine iff_of_false (fun hdone => ?_) (fun hand => hsend hand.1)
      have hanswer := hdone.outcome
      rw [h.outcome] at hanswer
      cases hanswer
  | cons other rest ih =>
    rw [List.length_cons] at hlength
    rw [if_neg (fun hand => absurd hand.1 (by omega))] at h
    obtain ⟨hlimits, houtcome, ⟨transaction, hpending, hphase, hservice⟩, state, hsession,
      hcollects, haccepted, hexpected, hwindow⟩ := h
    have hfollows : transfer.segments = transfer.segments.take (k + 1) ++ other :: rest := by
      rw [htake, List.append_assoc]
      exact hsegments
    have htakenNext : (transfer.segments.take (k + 1)).length = k + 1 :=
      List.length_take_of_le (show k + 1 ≤ transfer.totalSegments by omega)
    have hother : transfer.segments[k + 1]? = some other := by
      rw [hfollows, List.getElem?_append_right (Nat.le_of_eq htakenNext), htakenNext, Nat.sub_self]
      rfl
    have hnext := @accept_next transfer limits windows (k + 1) client transaction state other window
      hlimits houtcome hpending (by rw [hphase]; exact nofun) (fun _ => hphase) hservice hcollects
      haccepted hexpected hwindow hother hroom hspace
    rw [← @arrive_held transfer windows others (k + 1) client transaction state other hpending
      hphase hsession] at hnext
    rw [List.forall_mem_cons]
    by_cases hnextLong : other.length > SegmentReceiver.MAX_SEGMENT_SIZE
    · rw [if_pos hnextLong] at hnext
      refine iff_of_false (not_completes_of_lost (lost_arriveAll hnext _ _)) ?_
      rintro ⟨-, -, hsizes⟩
      exact absurd (hsizes other List.mem_cons_self) (Nat.not_le.mpr hnextLong)
    rw [if_neg hnextLong] at hnext
    have htakeNext : transfer.segments.take (k + 1 + 1)
        = transfer.segments.take (k + 1) ++ [other] := by
      rw [List.take_add_one, hother]
      rfl
    have hmore := ih hnext hfollows (by omega) hnextLong (Nat.le_of_not_lt hnextLong) htakenNext
      htakeNext (by omega)
    refine hmore.trans ?_
    exact ⟨fun hand => ⟨hand.1, hshort, hand.2⟩, fun hand => ⟨hand.1, hand.2.2⟩⟩

/-- A response arrives whole and in order at a transaction that waits for it: the transaction
completes with it exactly when the first segment's window octet is a window size and no segment is
longer than a segment may be. -/
theorem response_completes_iff {transfer : Transfer} {limits : ResponseLimits} {windows : ℕ → UInt8}
    {others : ℕ} {transaction : Transaction} (hphase : transaction.phase ≠ .segmentedRequest false)
    (hservice : transaction.expectedServiceChoice = transfer.serviceChoice)
    (haccepts : limits.segmentedResponseAccepted = true) (hslots : others < 64)
    (hcount : 1 ≤ transfer.totalSegments)
    (hroom : transfer.totalSegments ≤ limits.maxReassemblySegments)
    (hspace : limits.maxReassemblySegments ≤ 256) :
    Completes transfer ((Receiver.new limits transaction).arriveAll transfer windows others 0
        transfer.segments) ↔
      (1 ≤ windows 0 ∧ windows 0 ≤ 127) ∧
        ∀ segment ∈ transfer.segments, segment.length ≤ SegmentReceiver.MAX_SEGMENT_SIZE := by
  cases hsegments : transfer.segments with
  | nil =>
    unfold Transfer.totalSegments at hcount
    rw [hsegments] at hcount
    exact absurd hcount (by decide)
  | cons data rest =>
    have hdata : transfer.segments[0]? = some data := by
      rw [hsegments]
      rfl
    have hnext := @accept_next transfer limits windows 0 (Receiver.new limits transaction)
      transaction (.new (windows 0)) data (windows 0) rfl rfl rfl hphase
      (fun hpositive => absurd hpositive (Nat.lt_irrefl 0)) hservice
      SegmentReceiver.collects_new rfl rfl rfl hdata hroom hspace
    have hfirst : (Receiver.new limits transaction).arrive transfer others
        (segmentOctets transfer windows 0 data) = ((Receiver.new limits transaction).receiveSegment
          transfer (segmentAck transfer windows 0 data) (UInt8.ofNat 0) (.new (windows 0))).1 := by
      unfold Receiver.arrive
      rw [decode_segmentOctets]
      dsimp only
      unfold Receiver.handleSegmentedComplexAck Receiver.admit_ Receiver.new
      dsimp only
      rw [if_neg (fun hand => hand.2 rfl),
        if_neg (fun hand => by rw [haccepts] at hand; exact absurd hand.2 nofun), if_neg hphase]
      dsimp only
      rw [if_neg (by decide), if_neg (Nat.not_le.mpr hslots)]
      rfl
    rw [← hfirst] at hnext
    unfold Receiver.arriveAll
    exact arriveAll_rest hnext hsegments hcount hroom hspace

/-- A ReadProperty response of four segments. -/
def fourSegments : Transfer := ⟨5, ⟨12⟩, [[62, 63], [64], [65], [66, 67]]⟩

/-- The first window is of two segments, and the later window octets are no window sizes. -/
theorem response_completes_four :
    Completes fourSegments ((Receiver.new ⟨true, 256⟩ (.registered false ⟨12⟩)).arriveAll
      fourSegments (fun i => if i = 0 then 2 else 200) 63 0 fourSegments.segments) :=
  (@response_completes_iff fourSegments ⟨true, 256⟩ (fun i => if i = 0 then 2 else 200) 63
    (.registered false ⟨12⟩) (by decide) rfl rfl (by decide) (by decide) (by decide)
    (by decide)).mpr ⟨by decide, by decide⟩

/-- A response of one segment with the window octet 0: the transaction is left pending, its segment
saved. -/
theorem response_lost_zero :
    ¬Completes ⟨5, ⟨12⟩, [[62, 63]]⟩ ((Receiver.new ⟨true, 256⟩
      (.registered false ⟨12⟩)).arriveAll ⟨5, ⟨12⟩, [[62, 63]]⟩ (fun _ => 0) 0 0 [[62, 63]]) := by
  rintro ⟨houtcome, -, -⟩
  exact absurd houtcome (by decide)

end RustyBacnet.Segmentation
