import RustyBacnet.Segmentation.Request
import RustyBacnet.Lib.Runs

/-!
# A segmented request's bounds

While a window is under way its retry counter is the number of times it was sent again, modulo 256,
and the windows before it are at most as many as the segments before it (`Sound`). The counter is
compared with the limit on every expiry, so a window is sent again at most that often, as long as
the counter is that number. It is not after the 256th expiry, which only a limit of 255 lets happen:
the other limits end the send before.
-/

namespace RustyBacnet.Segmentation

open Encoding

variable {request : OutgoingRequest} {s : RequestSend} {event : RequestEvent}

/-! ## The windows' history -/

/-- A window is under way, and its counter is counted or not yet started. -/
structure UnderWay (request : OutgoingRequest) (s : RequestSend) (counted : Bool) : Prop where
  start : s.windowStart = s.nextSeq
  nonempty : s.nextSeq < s.windowEnd
  within : s.windowEnd ≤ request.totalSegments
  negative : s.negAckRetries ≤ MAX_NEG_ACK_RETRIES
  history : ∃ window rest, s.windows = window :: rest ∧ rest.length ≤ s.nextSeq ∧
    if counted then s.ackRetries = UInt8.ofNat window.retransmissions
    else window.retransmissions = 0

def Sound (request : OutgoingRequest) (s : RequestSend) : Prop :=
  match s.stage with
  | .issuing _ again => UnderWay request s again
  | .awaitingAck => UnderWay request s true
  | _ => s.windows.length ≤ request.totalSegments

theorem UnderWay.length_le {counted : Bool} (h : UnderWay request s counted) :
    s.windows.length ≤ request.totalSegments := by
  obtain ⟨window, rest, hwindows, hrest, -⟩ := h.history
  have hnonempty := h.nonempty
  have hwithin := h.within
  rw [hwindows, List.length_cons]
  omega

theorem Sound.waiting (h : Sound request s) (hstage : s.stage = .awaitingAck) :
    UnderWay request s true := by
  unfold Sound at h
  rw [hstage] at h
  exact h

variable {again : Bool} {seq : ℕ}

theorem Sound.issuing (h : Sound request s) (hstage : s.stage = .issuing seq again) :
    UnderWay request s again := by
  unfold Sound at h
  rw [hstage] at h
  exact h

theorem Sound.length_le (h : Sound request s) : s.windows.length ≤ request.totalSegments := by
  cases hstage : s.stage with
  | issuing seq again => exact (h.issuing hstage).length_le
  | awaitingAck => exact (h.waiting hstage).length_le
  | awaitingResponse started =>
    unfold Sound at h
    rw [hstage] at h
    exact h
  | ended result =>
    unfold Sound at h
    rw [hstage] at h
    exact h

/-! ## What one step keeps -/

theorem openWindow_sound (hnegative : s.negAckRetries ≤ MAX_NEG_ACK_RETRIES)
    (hsize : 0 < s.windowSize) (hlength : s.windows.length ≤ s.nextSeq)
    (hnext : s.nextSeq ≤ request.totalSegments) : Sound request (request.openWindow s) := by
  unfold OutgoingRequest.openWindow
  by_cases hmore : s.nextSeq < request.totalSegments
  · rw [if_pos hmore]
    refine ⟨rfl, ?_, Nat.min_le_right _ _, hnegative, _, _, rfl, hlength, rfl⟩
    show s.nextSeq < min _ _
    omega
  · rw [if_neg hmore]
    exact hlength.trans hnext

theorem openWindow_nextSeq (request : OutgoingRequest) (s : RequestSend) :
    (request.openWindow s).nextSeq = s.nextSeq := by
  unfold OutgoingRequest.openWindow
  by_cases hmore : s.nextSeq < request.totalSegments
  · rw [if_pos hmore]
  · rw [if_neg hmore]

theorem zero_le_max_neg_ack_retries : (0 : UInt32) ≤ MAX_NEG_ACK_RETRIES := by decide

theorem toNat_max_one_pos (n : UInt8) : 0 < (max n 1).toNat := by
  show 0 < (if n ≤ 1 then 1 else n).toNat
  by_cases hsmall : n ≤ 1
  · rw [if_pos hsmall]
    exact Nat.one_pos
  · rw [if_neg hsmall]
    have hlarge := UInt8.lt_iff_toNat_lt.mp (UInt8.not_le.mp hsmall)
    exact Nat.lt_of_le_of_lt (Nat.zero_le _) hlarge

theorem begin_sound (request : OutgoingRequest) : Sound request request.begin_ := by
  exact openWindow_sound zero_le_max_neg_ack_retries (toNat_max_one_pos _) le_rfl (Nat.zero_le _)

theorem issueSegment_sound (hway : UnderWay request s again)
    (result : Except RequestError OutgoingSegmentSend) :
    Sound request (request.issueSegment s seq again result) := by
  unfold OutgoingRequest.issueSegment
  match result with
  | .error error => exact hway.length_le
  | .ok (.terminal response) => exact hway.length_le
  | .ok .segmentedResponse => exact hway.length_le
  | .ok .sent =>
    obtain ⟨hstart, hnonempty, hwithin, hnegative, hhistory⟩ := hway
    by_cases hmore : seq + 1 < s.windowEnd
    · rw [if_pos hmore]
      exact ⟨hstart, hnonempty, hwithin, hnegative, hhistory⟩
    rw [if_neg hmore]
    cases again with
    | true => exact ⟨hstart, hnonempty, hwithin, hnegative, hhistory⟩
    | false =>
      rw [if_neg Bool.false_ne_true]
      obtain ⟨window, rest, hwindows, hrest, hcount⟩ := hhistory
      refine ⟨hstart, hnonempty, hwithin, hnegative, window, rest, hwindows, hrest, ?_⟩
      rw [if_neg Bool.false_ne_true] at hcount
      rw [if_pos rfl, hcount]
      rfl

variable {ack : SegmentAck}

/-- An acknowledgment inside the window moves the send on, or is one negative one too many. -/
theorem acknowledge_spec (hway : UnderWay request s true)
    (hin : OutgoingRequest.inWindow s ack = true) :
    Sound request (request.acknowledge s ack) ∧
      ((request.acknowledge s ack).stage = .ended (.error negativeAckRetriesExhausted) ∨
        s.nextSeq < (request.acknowledge s ack).nextSeq) := by
  obtain ⟨window, rest, hwindows, hrest, -⟩ := hway.history
  unfold OutgoingRequest.inWindow at hin
  rw [Bool.and_eq_true, decide_eq_true_eq, decide_eq_true_eq, hway.start] at hin
  have hlength : s.windows.length ≤ ack.sequenceNumber.toNat + 1 := by
    rw [hwindows, List.length_cons]
    omega
  have hnext : ack.sequenceNumber.toNat + 1 ≤ request.totalSegments := by
    have hwithin := hway.within
    omega
  have hsize : 0 < max ack.actualWindowSize.toNat 1 := by omega
  unfold OutgoingRequest.acknowledge
  by_cases hnegative : ack.negativeAck = true
  · rw [if_pos hnegative]
    by_cases hmany : s.negAckRetries + 1 > MAX_NEG_ACK_RETRIES
    · rw [if_pos hmany]
      exact ⟨hway.length_le, .inl rfl⟩
    · rw [if_neg hmany]
      refine ⟨openWindow_sound (UInt32.not_lt.mp hmany) hsize hlength hnext, .inr ?_⟩
      rw [openWindow_nextSeq]
      exact Nat.lt_succ_of_le hin.1
  · rw [if_neg hnegative]
    refine ⟨openWindow_sound zero_le_max_neg_ack_retries hsize hlength hnext, .inr ?_⟩
    rw [openWindow_nextSeq]
    exact Nat.lt_succ_of_le hin.1

theorem retransmit_sound (hway : UnderWay request s true) :
    Sound request (request.retransmit s) := by
  unfold OutgoingRequest.retransmit
  by_cases hmany : s.ackRetries + 1 > request.apduRetries
  · rw [if_pos hmany]
    exact hway.length_le
  · rw [if_neg hmany]
    obtain ⟨hstart, hnonempty, hwithin, hnegative, window, rest, hwindows, hrest, hcount⟩ := hway
    refine ⟨hstart, hnonempty, hwithin, hnegative, ?_⟩
    rw [hwindows]
    refine ⟨_, _, rfl, hrest, ?_⟩
    rw [if_pos rfl] at hcount ⊢
    rw [hcount]
    exact (UInt8.ofNat_add _ _).symm

theorem step_sound (h : Sound request s) (event : RequestEvent) :
    Sound request (request.step s event) := by
  unfold OutgoingRequest.step
  split
  next seq again result hstage => exact issueSegment_sound (h.issuing hstage) result
  next response hstage => exact h.length_le
  next hstage => exact h.length_le
  next hstage => exact h.length_le
  next hstage => exact h.length_le
  next ack hstage =>
    by_cases hin : OutgoingRequest.inWindow s ack = true
    · rw [if_pos hin]
      exact (acknowledge_spec (h.waiting hstage) hin).1
    · rw [if_neg hin]
      exact h
  next hstage => exact retransmit_sound (h.waiting hstage)
  next => exact h

theorem run_sound (request : OutgoingRequest) (events : List RequestEvent) :
    Sound request (request.run events) :=
  Runs.invariant (Sound request) (fun _ event h => step_sound h event) events (begin_sound request)

/-! ## What one step does within its bounds -/

/-- No window was sent again more often than configured. -/
def Limited (request : OutgoingRequest) (s : RequestSend) : Prop :=
  ∀ window ∈ s.windows, window.retransmissions ≤ request.apduRetries.toNat

/-- The window under way was sent again 255 times. -/
def WaitedOut (s : RequestSend) : Prop :=
  s.stage = .awaitingAck ∧ ∃ window, s.windows.head? = some window ∧ window.retransmissions = 255

/-- What one step keeps of a segmented send's bounds. -/
structure BoundedStep (request : OutgoingRequest) (s : RequestSend) (event : RequestEvent) :
    Prop where
  safe : ¬ Overflows s event
  exhausted : ∀ window, s.stage = .awaitingAck → event = .segmentTimer →
    s.windows.head? = some window → window.retransmissions = request.apduRetries.toNat →
    (request.step s event).stage = .ended (.error tsmTimeout)
  advances : ∀ ack, s.stage = .awaitingAck → event = .segmentAck (some ack) →
    OutgoingRequest.inWindow s ack = true →
    (request.step s event).stage = .ended (.error negativeAckRetriesExhausted) ∨
      s.nextSeq < (request.step s event).nextSeq

/-- The defect is out of reach: the counter's limit is one that the counter can pass. -/
def Countable (request : OutgoingRequest) (s : RequestSend) (event : RequestEvent) : Prop :=
  request.apduRetries = 255 → event = .segmentTimer → ¬ WaitedOut s

theorem step_segmentTimer (hstage : s.stage = .awaitingAck) :
    request.step s .segmentTimer = request.retransmit s := by
  unfold OutgoingRequest.step
  rw [hstage]

theorem step_segmentAck (hstage : s.stage = .awaitingAck)
    (hin : OutgoingRequest.inWindow s ack = true) :
    request.step s (.segmentAck (some ack)) = request.acknowledge s ack := by
  unfold OutgoingRequest.step
  rw [hstage]
  exact if_pos hin

/-- A counter that is not waited out is the number of retransmissions, and counts on. -/
theorem count_next (hway : UnderWay request s true) (hlimited : Limited request s)
    (hstage : s.stage = .awaitingAck) (hcountable : Countable request s .segmentTimer) :
    ∃ window rest, s.windows = window :: rest ∧
      s.ackRetries.toNat = window.retransmissions ∧
      (s.ackRetries + 1).toNat = window.retransmissions + 1 ∧ window.retransmissions + 1 < 256 := by
  obtain ⟨window, rest, hwindows, -, hcount⟩ := hway.history
  rw [if_pos rfl] at hcount
  have hretries := hlimited window (hwindows ▸ List.mem_cons_self)
  have hoctet := request.apduRetries.toNat_lt
  have hbelow : window.retransmissions + 1 < 256 := by
    by_contra hnot
    have hlast : window.retransmissions = 255 := by omega
    refine hcountable ?_ rfl ⟨hstage, window, by rw [hwindows]; rfl, hlast⟩
    refine UInt8.toNat_inj.mp ?_
    show _ = 255
    omega
  have hvalue : s.ackRetries.toNat = window.retransmissions := by
    rw [hcount]
    exact UInt8.toNat_ofNat_of_lt (Nat.lt_of_succ_lt hbelow)
  refine ⟨window, rest, hwindows, hvalue, ?_, hbelow⟩
  rw [UInt8.toNat_add, hvalue]
  exact Nat.mod_eq_of_lt hbelow

theorem bounded_step (h : Sound request s) (hlimited : Limited request s)
    (hcountable : Countable request s event) : BoundedStep request s event := by
  refine ⟨?_, ?_, ?_⟩
  · intro hoverflow
    unfold Overflows at hoverflow
    split at hoverflow
    next hstage =>
      obtain ⟨window, rest, -, hvalue, -, hbelow⟩ :=
        count_next (h.waiting hstage) hlimited hstage hcountable
      omega
    next ack hstage =>
      have hnegative := UInt32.le_iff_toNat_le.mp (h.waiting hstage).negative
      have hmax : MAX_NEG_ACK_RETRIES.toNat = 10 := rfl
      omega
    next => exact hoverflow
  · intro window hstage hevent hhead hretries
    cases hevent
    obtain ⟨found, rest, hwindows, -, hnext, -⟩ :=
      count_next (h.waiting hstage) hlimited hstage hcountable
    rw [hwindows, List.head?_cons, Option.some.injEq] at hhead
    rw [step_segmentTimer hstage]
    unfold OutgoingRequest.retransmit
    rw [if_pos]
    refine UInt8.lt_iff_toNat_lt.mpr ?_
    rw [hnext, hhead, hretries]
    exact Nat.lt_succ_self _
  · intro ack hstage hevent hin
    cases hevent
    rw [step_segmentAck hstage hin]
    exact (acknowledge_spec (h.waiting hstage) hin).2

theorem openWindow_limited (hlimited : Limited request s) :
    Limited request (request.openWindow s) := by
  unfold OutgoingRequest.openWindow
  by_cases hmore : s.nextSeq < request.totalSegments
  · rw [if_pos hmore]
    exact List.forall_mem_cons.mpr ⟨Nat.zero_le _, hlimited⟩
  · rw [if_neg hmore]
    exact hlimited

theorem step_limited (h : Sound request s) (hlimited : Limited request s)
    (hcountable : Countable request s event) : Limited request (request.step s event) := by
  unfold OutgoingRequest.step
  split
  next seq again result hstage =>
    unfold OutgoingRequest.issueSegment
    match result with
    | .error error => exact hlimited
    | .ok (.terminal response) => exact hlimited
    | .ok .segmentedResponse => exact hlimited
    | .ok .sent =>
      dsimp only
      split_ifs
      all_goals exact hlimited
  next response hstage => exact hlimited
  next hstage => exact hlimited
  next hstage => exact hlimited
  next hstage => exact hlimited
  next ack hstage =>
    by_cases hin : OutgoingRequest.inWindow s ack = true
    · rw [if_pos hin]
      unfold OutgoingRequest.acknowledge
      dsimp only
      split_ifs
      · exact hlimited
      · exact openWindow_limited hlimited
      · exact openWindow_limited hlimited
    · rw [if_neg hin]
      exact hlimited
  next hstage =>
    obtain ⟨window, rest, hwindows, -, hnext, -⟩ :=
      count_next (h.waiting hstage) hlimited hstage hcountable
    unfold OutgoingRequest.retransmit
    by_cases hmany : s.ackRetries + 1 > request.apduRetries
    · rw [if_pos hmany]
      exact hlimited
    · rw [if_neg hmany]
      unfold Limited at hlimited ⊢
      rw [hwindows] at hlimited ⊢
      obtain ⟨-, hrest⟩ := List.forall_mem_cons.mp hlimited
      refine List.forall_mem_cons.mpr ⟨?_, hrest⟩
      have hfits := UInt8.le_iff_toNat_le.mp (UInt8.not_lt.mp hmany)
      rw [hnext] at hfits
      exact hfits
  next => exact hlimited

/-! ## Whole sends -/

theorem run_append (request : OutgoingRequest) (before : List RequestEvent) (event : RequestEvent) :
    request.run (before ++ [event]) = request.step (request.run before) event := by
  unfold OutgoingRequest.run
  rw [List.foldl_append]
  rfl

/-- Every step of a run keeps the bounds, and so does its end. -/
structure BoundedRun (request : OutgoingRequest) (events : List RequestEvent) : Prop where
  steps : ∀ before event after, events = before ++ event :: after →
    BoundedStep request (request.run before) event
  retransmitted : Limited request (request.run events)
  windows : (request.run events).windows.length ≤ request.totalSegments

/-- No window of the run is waited out 256 times under a limit of 255. -/
def CountableRun (request : OutgoingRequest) (events : List RequestEvent) : Prop :=
  ∀ before event after, events = before ++ event :: after →
    Countable request (request.run before) event

theorem CountableRun.before {before after : List RequestEvent}
    (h : CountableRun request (before ++ after)) : CountableRun request before := by
  intro first event rest hsplit
  refine h first event (rest ++ after) ?_
  rw [hsplit, List.append_assoc]
  rfl

theorem run_limited (events : List RequestEvent) (h : CountableRun request events) :
    Limited request (request.run events) := by
  induction events using List.reverseRecOn with
  | nil =>
    refine openWindow_limited ?_
    intro window hwindow
    cases hwindow
  | append_singleton events event ih =>
    rw [run_append]
    exact step_limited (run_sound request events) (ih h.before) (h events event [] rfl)

theorem BoundedRun.countable {events : List RequestEvent} (h : BoundedRun request events) :
    CountableRun request events := by
  intro before event after hsplit hretries hevent ⟨hstage, window, hhead, hcount⟩
  refine (h.steps before event after hsplit).safe ?_
  obtain ⟨found, rest, hwindows, -, hcounted⟩ := ((run_sound request before).waiting hstage).history
  rw [hwindows, List.head?_cons, Option.some.injEq] at hhead
  rw [if_pos rfl, hhead, hcount] at hcounted
  unfold Overflows
  rw [hstage, hevent]
  dsimp only
  rw [hcounted]
  decide

/-- A segmented send keeps its bounds exactly when no window is waited out 256 times. -/
theorem segmented_request_bounded (request : OutgoingRequest) (events : List RequestEvent) :
    BoundedRun request events ↔ CountableRun request events := by
  constructor
  · exact BoundedRun.countable
  · intro h
    refine ⟨?_, run_limited events h, (run_sound request events).length_le⟩
    intro before event after hsplit
    refine bounded_step (run_sound request before) (run_limited before ?_)
      (h before event after hsplit)
    rw [hsplit] at h
    exact h.before

/-! ## A peer that stays silent -/

def goesOut : RequestEvent := .issued (.ok .sent)

/-- The timer expires, and the `count` segments of the window go out again. -/
def silentRound (count : ℕ) : List RequestEvent := .segmentTimer :: List.replicate count goesOut

/-- The first window goes out, and its timer expires `rounds` times. -/
def silence (count rounds : ℕ) : List RequestEvent :=
  List.replicate count goesOut ++ (List.replicate rounds (silentRound count)).flatten

theorem silence_succ (count rounds : ℕ) :
    silence count (rounds + 1) = silence count rounds ++ silentRound count := by
  unfold silence
  rw [List.replicate_succ', List.flatten_append, List.flatten_singleton, List.append_assoc]

theorem issue_window (request : OutgoingRequest) (count : ℕ) : ∀ {s : RequestSend} {seq : ℕ} {again : Bool},
    s.stage = .issuing seq again → s.windowEnd = seq + (count + 1) →
    let s' := (List.replicate (count + 1) goesOut).foldl request.step s
    s'.stage = .awaitingAck ∧ s'.windowStart = s.windowStart ∧ s'.windowEnd = s.windowEnd ∧
      s'.windows = s.windows := by
  induction count with
  | zero =>
    intro s seq again hstage hend
    have hstep : request.step s goesOut = request.issueSegment s seq again (.ok .sent) := by
      unfold OutgoingRequest.step goesOut
      rw [hstage]
    show (request.step s goesOut).stage = _ ∧ _
    rw [List.replicate_one, List.foldl_cons, List.foldl_nil, hstep]
    unfold OutgoingRequest.issueSegment
    dsimp only
    rw [if_neg (by omega)]
    cases again
    all_goals exact ⟨rfl, rfl, rfl, rfl⟩
  | succ count ih =>
    intro s seq again hstage hend
    have hstep : (request.step s goesOut).stage = .issuing (seq + 1) again ∧
        (request.step s goesOut).windowStart = s.windowStart ∧
        (request.step s goesOut).windowEnd = s.windowEnd ∧
        (request.step s goesOut).windows = s.windows := by
      unfold OutgoingRequest.step goesOut
      rw [hstage]
      unfold OutgoingRequest.issueSegment
      dsimp only
      rw [if_pos (by omega)]
      exact ⟨rfl, rfl, rfl, rfl⟩
    obtain ⟨hnext, hstart, hlast, hwindows⟩ := hstep
    have hrest := ih hnext (by rw [hlast, hend]; omega)
    rw [hstart, hlast, hwindows] at hrest
    exact hrest

/-- A silent peer leaves the first window sent again as often as its timer expired. -/
theorem silence_spec (hretries : request.apduRetries = 255) {count : ℕ}
    (hbegin : request.begin_.stage = .issuing 0 false) (hstart : request.begin_.windowStart = 0)
    (hend : request.begin_.windowEnd = count + 1)
    (hwindows : request.begin_.windows = [⟨0, 0⟩]) (rounds : ℕ) (hrounds : rounds ≤ 255) :
    let s := request.run (silence (count + 1) rounds)
    s.stage = .awaitingAck ∧ s.windowStart = 0 ∧ s.windowEnd = count + 1 ∧
      s.windows = [⟨0, rounds⟩] := by
  induction rounds with
  | zero =>
    have hfirst := issue_window request count hbegin (by rw [hend, Nat.zero_add])
    rw [hstart, hend, hwindows] at hfirst
    show (request.run (silence (count + 1) 0)).stage = _ ∧ _
    unfold silence
    rw [List.replicate_zero, List.flatten_nil, List.append_nil]
    exact hfirst
  | succ rounds ih =>
    obtain ⟨hstage, hfrom, hlast, hsent⟩ := ih (by omega)
    have hrun : request.run (silence (count + 1) (rounds + 1))
        = (List.replicate (count + 1) goesOut).foldl request.step
            (request.step (request.run (silence (count + 1) rounds)) .segmentTimer) := by
      unfold OutgoingRequest.run
      rw [silence_succ, List.foldl_append]
      rfl
    obtain ⟨s, hs⟩ : ∃ s, s = request.run (silence (count + 1) rounds) := ⟨_, rfl⟩
    have hsound := run_sound request (silence (count + 1) rounds)
    rw [← hs] at hrun hstage hfrom hlast hsent hsound
    obtain ⟨window, rest, hhistory, -, hcount⟩ := (hsound.waiting hstage).history
    rw [hsent, List.cons.injEq] at hhistory
    rw [if_pos rfl, ← hhistory.1] at hcount
    have hstep : request.step s .segmentTimer =
        { s with
          ackRetries := s.ackRetries + 1
          stage := .issuing s.windowStart true
          windows := OutgoingRequest.resent s.windows } := by
      rw [step_segmentTimer hstage]
      unfold OutgoingRequest.retransmit
      rw [if_neg]
      rw [hretries]
      exact UInt8.not_lt.mpr (UInt8.le_iff_toNat_le.mpr (Nat.le_of_lt_succ (UInt8.toNat_lt _)))
    have hagain := @issue_window request count (request.step s .segmentTimer) _ _ (by rw [hstep]) (by rw [hstep]; dsimp only; rw [hlast, hfrom]; omega)
    rw [← hrun] at hagain
    rw [hstep] at hagain
    rw [hfrom, hlast, hsent] at hagain
    exact hagain

theorem silence_unbounded (hretries : request.apduRetries = 255) {count : ℕ}
    (hbegin : request.begin_.stage = .issuing 0 false) (hstart : request.begin_.windowStart = 0)
    (hend : request.begin_.windowEnd = count + 1) (hwindows : request.begin_.windows = [⟨0, 0⟩]) :
    ¬ BoundedRun request (silence (count + 1) 255 ++ [.segmentTimer]) := by
  intro hbounded
  obtain ⟨hstage, -, -, hsent⟩ := silence_spec hretries hbegin hstart hend hwindows 255 le_rfl
  refine hbounded.countable _ _ [] rfl hretries rfl ⟨hstage, ?_⟩
  rw [hsent]
  exact ⟨_, rfl, rfl⟩

/-- 100 octets in segments of 44, sent one at a time with 255 retries. -/
def longestPatience : OutgoingRequest :=
  ⟨255, 1, true, none, 1476, 0, ⟨12⟩, chunks (List.replicate 100 0x0C) 44⟩

/-- The 256th expiry of the first window's timer overflows the counter. -/
theorem longest_patience_overflows :
    prepareSegmented ⟨255, 1, true, none⟩ 1476 0 ⟨12⟩ (List.replicate 100 0x0C) 50 none
      = .ok longestPatience ∧
    ¬ BoundedRun longestPatience (silence 1 255 ++ [.segmentTimer]) :=
  ⟨rfl, @silence_unbounded longestPatience rfl 0 rfl rfl rfl rfl⟩

end RustyBacnet.Segmentation
