import RustyBacnet.Mstp.InputRefine
import RustyBacnet.Mstp.QueueLaws

/-!
# What holds in every run of a core

A reachable core is a sound station (`Reachable.sound`), and what is said of runs follows from that:

1. `one_frame_at_a_time`: it has one frame at most, and no debug assertion fails.
2. `started_after_turnaround`: a start is confirmed no sooner than T_turnaround after every call that
   counted as activity on the line (`activityAt`), with the octets of the frame that waited.
3. `info_frames_within_token`: information frames go out with the token and within its budget.
4. `answers_accounted`: every answer owed is settled once.
-/

namespace RustyBacnet.Mstp

namespace MasterCore

def benchBuffers : ActionBuffers 501 :=
  ⟨List.replicate 511 0, List.replicate 1 (DeliverySlot.empty 501), by decide,
    by rw [List.length_replicate]; decide⟩

/-- Station 0 at 9600 baud, with room for one NPDU of each kind. -/
def bench (now : Instant) : MasterCore (FixedQueues 1 1 501) 501 :=
  start .standard FixedQueues.new (List.replicate 511 0) benchBuffers now

variable {config : MstpCoreConfig}

theorem fromParts_eq {Q : Type} [QueueStorage Q] {npdu : ℕ} {queues : Q} {rxStorage : List UInt8}
    {buffers : ActionBuffers npdu} (hvalid : config.validate = .ok ())
    (hreceive : minRxStorage ≤ rxStorage.length) (hplain : config.extendedFrames = false)
    (now : Instant) :
    fromParts config queues rxStorage buffers now
      = .ok (start config queues rxStorage buffers now) := by
  simp [fromParts, hvalid, hplain, MstpCoreConfig.check, hreceive, bind, Except.bind, pure,
    Except.pure]

theorem bench_reachable (now : Instant) (calls : List Call) : ((bench now).run calls).Reachable :=
  ⟨_, _, _, _, now, bench now, calls, fromParts_eq (by decide +kernel)
    (by rw [List.length_replicate]; decide) (by decide +kernel) now, rfl⟩

variable {Q : Type} {npdu : ℕ} {core : MasterCore Q npdu} {tx : ActiveTransmit}

theorem nextDeadline_le_watchdog (hactive : core.activeTransmit = some tx) :
    ∃ deadline, core.nextDeadline = some deadline ∧
      deadline ≤ satAdd tx.assertedAt core.config.transmitWatchdog := by
  have hset : some (satAdd tx.assertedAt core.config.transmitWatchdog) ∈
      [core.protocolDeadline,
        if core.parserPartial then core.lastOctet.map fun lastOctet =>
          satAdd (satAdd lastOctet core.config.tFrameAbort) (fromMicros 1) else none,
        core.activeTransmit.map fun tx => satAdd tx.assertedAt core.config.transmitWatchdog] := by
    simp [hactive]
  obtain ⟨deadline, hdeadline⟩ := Option.isSome_iff_exists.mp (earliest_isSome hset)
  exact ⟨deadline, hdeadline, (earliest_eq_some.mp hdeadline).2 _ hset⟩

variable [QueueStorage Q]

/-! ## One frame at a time -/

/-- A core has one frame at most: waiting, handed over and waiting still, or started. What is queued
for the adapter is the frame handed over, a switch to receive is polled before it, and no debug
assertion fails. -/
theorem one_frame_at_a_time (h : core.Reachable) :
    (∀ tx, core.activeTransmit = some tx → tx.started = true → core.pendingSend = none) ∧
    (∀ tx, core.activeTransmit = some tx → tx.started = false → core.pendingSend.isSome = true) ∧
    (∀ queued, core.actions.transmit = some queued →
      ∃ tx, core.activeTransmit = some tx ∧ tx.started = false ∧ tx.id = queued.id) ∧
    (core.actions.receive = true → core.pollAction.1 = .setDirection .receive ∧
      core.pollAction.2.actions.receive = false ∧
      core.pollAction.2.actions.transmit = core.actions.transmit) ∧
    core.tripped = false ∧ core.actions.tripped = false ∧ core.counters.internalErrors = 0 := by
  have hsound := h.sound.station
  have hfault : (core.tripped || core.actions.tripped || core.counters.internalErrors != 0) = false :=
    hsound.faultless
  simp only [Bool.or_eq_false_iff, bne_eq_false_iff_eq] at hfault
  refine ⟨hsound.ordered.started, fun tx hactive hstarted => ?_, fun queued hqueued => ?_, ?_,
    hfault.1.1, hfault.1.2, hfault.2⟩
  · obtain ⟨send, hsend, -⟩ := hsound.ordered.unstarted tx hactive hstarted
    rw [show core.pendingSend = some send from hsend]
    rfl
  · refine hsound.ordered.queued queued.id ?_
    show core.actions.transmit.map (·.id) = some queued.id
    rw [hqueued]
    rfl
  · intro hreceive
    simp [pollAction, ActionQueue.poll, hreceive]

theorem one_frame_at_a_time_bench :
    ((bench 0).run [.onDeadline 500000000]).actions.transmit.isSome = true ∧
      ((bench 0).run [.onDeadline 500000000]).tripped = false :=
  ⟨by decide +kernel, (one_frame_at_a_time (bench_reachable 0 [.onDeadline 500000000])).2.2.2.2.1⟩

/-- The calls after which a new frame waits behind the switch to receive that the last one left. -/
def behindReceive : List Call :=
  [.onDeadline 500000000, .pollAction, .pollAction, .onTransmitStarted ⟨0⟩ 500000000,
    .onTransmitComplete ⟨0⟩ 501000000, .onDeadline 600000000]

/-- A queued frame may wait behind a queued switch to receive. -/
theorem transmit_behind_receive :
    ¬ ∀ core : MasterCore (FixedQueues 1 1 501) 501, core.Reachable →
      core.actions.transmit.isSome = true → core.actions.receive = false := by
  intro h
  have hreceive := h _ (bench_reachable 0 behindReceive) (by decide +kernel)
  exact absurd hreceive (by decide +kernel)

/-! ## Turnaround -/

/-- When a call counts as activity on the line, the time it is taken at: what the line does while the
station does not transmit, and the end of the station's own transmission. -/
def activityAt (core : MasterCore Q npdu) : Call → Option Instant
  | .onOctet _ now | .onInvalidFrame now | .onReceiveError _ now =>
    if core.transmitting then none else some (max core.lastNow now)
  | .onValidatedFrame frame now =>
    if core.undecodable frame ∨ core.transmitting then none else some (max core.lastNow now)
  | .onHostActivity octets now =>
    if core.transmitting ∨ octets = 0 then none else some (max core.lastNow now)
  | .onTransmitComplete id now | .onTransmitAborted id _ now =>
    if core.activeTransmit.any fun tx => tx.started && decide (tx.id = id) then
      some (max core.lastNow now)
    else none
  | .onDeadline now =>
    -- The watchdog ends a transmission as an abort does.
    if core.activeTransmit.any fun tx => tx.started &&
        decide (satAdd tx.assertedAt core.config.transmitWatchdog ≤ max core.lastNow now) then
      some (max core.lastNow now)
    else none
  | .onSilence _ | .onTransmitStarted _ _ | .completeRequest _ _ _ | .enqueueNpdu _ _ _ _
  | .pollAction | .takeCounters => none

theorem onTransmitComplete_heard (hactive : core.activeTransmit = some tx)
    (hstarted : tx.started = true) (now : Instant) :
    (core.onTransmitComplete tx.id now).lastActivity = max core.lastNow now := by
  have hkept : (core.observeTime now).activeTransmit = some tx := hactive
  unfold onTransmitComplete
  dsimp only
  rw [hkept]
  dsimp only
  rw [if_neg (by simp), if_neg (by simp [hstarted])]
  exact congrArg Line.lastActivity (afterTransmit_line _ _ _)

theorem onTransmitAborted_heard (hactive : core.activeTransmit = some tx)
    (hstarted : tx.started = true) (reason : TransmitFailure) (now : Instant) :
    (core.onTransmitAborted tx.id reason now).lastActivity = max core.lastNow now := by
  have hkept : (core.observeTime now).activeTransmit = some tx := hactive
  unfold onTransmitAborted
  dsimp only
  rw [hkept]
  dsimp only
  rw [if_neg (by simp), if_pos hstarted]
  refine congrArg Line.lastActivity ((takePendingToken_line _ _).trans (line_idleFrom _ _))

theorem abortLate_active (hactive : core.activeTransmit.isSome = true) (now : Instant) :
    (core.abortLate now).station = core.station := by
  have habort := core.station_abortPartialIfLate now
  unfold abortLate
  generalize core.abortPartialIfLate now = aborted at habort ⊢
  rcases aborted with ⟨_ | _, after⟩
  · exact habort
  · have hkept : after.activeTransmit.isSome = true := by
      rw [show after.activeTransmit = core.activeTransmit from congrArg Station.active habort]
      exact hactive
    dsimp only [invalidFrameEvent]
    rw [if_pos (.inr hkept)]
    exact habort

variable {now : Instant}

theorem serviceIfDue_heard (hactive : core.activeTransmit = some tx) (hstarted : tx.started = true)
    (hnow : core.lastNow = now) (hlate : satAdd tx.assertedAt core.config.transmitWatchdog ≤ now) :
    (core.serviceIfDue now).lastActivity = now := by
  obtain ⟨deadline, hdeadline, hle⟩ := nextDeadline_le_watchdog hactive
  unfold serviceIfDue
  rw [hdeadline]
  dsimp only
  rw [if_neg (Nat.not_lt.mpr (hle.trans hlate))]
  set counted := core.mapCounters (·.recordDeadline (now - deadline) core.config.lateDeadline)
  have hkept : counted.activeTransmit = some tx := hactive
  unfold serviceDeadline
  rw [hkept]
  dsimp only
  rw [if_pos (show satAdd tx.assertedAt counted.config.transmitWatchdog ≤ now from hlate),
    onTransmitAborted_heard hkept hstarted]
  show max core.lastNow now = now
  rw [hnow, max_self]

theorem onDeadline_heard (hactive : core.activeTransmit = some tx) (hstarted : tx.started = true)
    (hlate : satAdd tx.assertedAt core.config.transmitWatchdog ≤ max core.lastNow now) :
    (core.onDeadline now).lastActivity = max core.lastNow now := by
  have hsome : (core.observeTime now).activeTransmit.isSome = true := by
    rw [show (core.observeTime now).activeTransmit = some tx from hactive]
    rfl
  have hstation := abortLate_active hsome (max core.lastNow now)
  show (((core.observeTime now).abortLate (max core.lastNow now)).serviceIfDue
    (max core.lastNow now)).lastActivity = _
  generalize (core.observeTime now).abortLate (max core.lastNow now) = aborted at hstation ⊢
  refine serviceIfDue_heard ((congrArg Station.active hstation).trans hactive) hstarted
    (congrArg Station.lastNow hstation) ?_
  rw [show aborted.config = core.config from congrArg Station.config hstation]
  exact hlate

/-- A call that counts as activity is the last activity, and its time that of the call. -/
theorem activityAt_le (h : core.Sound) {call : Call} {t : Instant}
    (hcall : core.activityAt call = some t) : t ≤ (core.step call).lastActivity := by
  unfold activityAt at hcall
  cases call with
  | onOctet byte now =>
    obtain ⟨hquiet, rfl⟩ : ¬ core.transmitting = true ∧ max core.lastNow now = t := by
      simpa using hcall
    exact (onOctet_hears h byte now hquiet).heard
  | onInvalidFrame now =>
    obtain ⟨hquiet, rfl⟩ : ¬ core.transmitting = true ∧ max core.lastNow now = t := by
      simpa using hcall
    exact (onInvalidFrame_hears h now hquiet).heard
  | onReceiveError error now =>
    obtain ⟨hquiet, rfl⟩ : ¬ core.transmitting = true ∧ max core.lastNow now = t := by
      simpa using hcall
    exact (onReceiveError_hears h error now hquiet).heard
  | onValidatedFrame frame now =>
    obtain ⟨⟨haccepted, hquiet⟩, rfl⟩ : (¬ core.undecodable frame = true ∧
        ¬ core.transmitting = true) ∧ max core.lastNow now = t := by
      simpa using hcall
    exact (onValidatedFrame_hears h haccepted now hquiet).heard
  | onHostActivity octets now =>
    obtain ⟨⟨hquiet, hoctets⟩, rfl⟩ : (¬ core.transmitting = true ∧ ¬ octets = 0) ∧
        max core.lastNow now = t := by
      simpa using hcall
    exact (onHostActivity_hears h hoctets now hquiet).heard
  | onTransmitComplete id now =>
    obtain ⟨tx, ⟨hactive, hstarted, rfl⟩, rfl⟩ : ∃ tx, (core.activeTransmit = some tx ∧
        tx.started = true ∧ tx.id = id) ∧ max core.lastNow now = t := by
      simpa [Option.any_eq_true] using hcall
    exact (onTransmitComplete_heard hactive hstarted now).ge
  | onTransmitAborted id reason now =>
    obtain ⟨tx, ⟨hactive, hstarted, rfl⟩, rfl⟩ : ∃ tx, (core.activeTransmit = some tx ∧
        tx.started = true ∧ tx.id = id) ∧ max core.lastNow now = t := by
      simpa [Option.any_eq_true] using hcall
    exact (onTransmitAborted_heard hactive hstarted reason now).ge
  | onDeadline now =>
    obtain ⟨tx, ⟨hactive, hstarted, hlate⟩, rfl⟩ : ∃ tx, (core.activeTransmit = some tx ∧
        tx.started = true ∧ satAdd tx.assertedAt core.config.transmitWatchdog
          ≤ max core.lastNow now) ∧ max core.lastNow now = t := by
      simpa [Option.any_eq_true] using hcall
    exact (onDeadline_heard hactive hstarted hlate).ge
  | _ => exact absurd hcall (by simp)

/-- A start is confirmed at T_turnaround or more after every call that counted as activity, an
answer's before its time is up, and with the octets of the frame that waited. -/
theorem started_after_turnaround (h : core.Reachable) (calls : List Call) {id : TransmitId}
    {now : Instant} {octets : List UInt8}
    (hok : ((core.run calls).onTransmitStarted id now).1 = .ok octets) :
    (∀ before call after t, calls = before ++ call :: after →
      (core.run before).activityAt call = some t →
      satAdd t core.config.tTurnaround ≤ max (core.run calls).lastNow now) ∧
    ∃ pending, (core.run calls).pendingSend = some pending ∧ octets = pending.frame.encoding ∧
      ∀ window, pending.origin = .answer window →
        max (core.run calls).lastNow now < window.giveUp := by
  have hsound := h.sound
  rcases onTransmitStarted_cases (hsound.run calls) id now with
    ⟨error, herror, -⟩ | ⟨tx, pending, hmay, hoctets, -⟩
  · exact absurd (herror.symm.trans hok) (by simp)
  have hconfig : (core.run calls).config = core.config := (hsound.run_keeps calls).2
  refine ⟨fun before call after t hcalls hactivity => ?_, pending, hmay.waits,
    Except.ok.inj (hok.symm.trans hoctets), hmay.inTime⟩
  have hrun : core.run calls = ((core.run before).step call).run after := by
    rw [hcalls]
    simp [run]
  have hbefore := hsound.run before
  have hle : t ≤ (core.run calls).lastActivity := by
    rw [hrun]
    exact (activityAt_le hbefore hactivity).trans ((hbefore.step call).run_keeps after).1
  have hturn := ((hsound.run calls).observeTime now).station.quiet.turnaround hmay hle
  rw [← hconfig]
  exact hturn

def octetAfterHandOver : List Call :=
  [.onDeadline 500000000, .pollAction, .pollAction, .onOctet 0 500000000]

theorem started_after_turnaround_bench :
    satAdd 500000000 (bench 0).config.tTurnaround
      ≤ max ((bench 0).run octetAfterHandOver).lastNow 510000000 := by
  have hok : (((bench 0).run octetAfterHandOver).onTransmitStarted ⟨0⟩ 510000000).1
      = .ok (Frame.new .pollForMaster 1 0 []).encoding := by
    decide +kernel
  have hoctet : ((bench 0).run [.onDeadline 500000000, .pollAction, .pollAction]).activityAt
      (.onOctet 0 500000000) = some 500000000 := by
    decide +kernel
  exact (started_after_turnaround (bench_reachable 0 []) octetAfterHandOver hok).1 _ _ [] _ rfl hoctet

/-- At the end of the clock the turnaround is cut short: an octet one nanosecond before it, and a
start is confirmed at it. -/
theorem started_at_the_end :
    ¬ ∀ (core : MasterCore (FixedQueues 1 1 501) 501) (calls : List Call) (id : TransmitId)
      (now : Instant) (octets : List UInt8), core.Reachable →
      ((core.run calls).onTransmitStarted id now).1 = .ok octets →
      ∀ before call after t, calls = before ++ call :: after →
        (core.run before).activityAt call = some t →
        t + core.config.tTurnaround ≤ max (core.run calls).lastNow now := by
  intro h
  set first := bench (maxInstant - 600000000)
  have hok : ((first.run [.onDeadline (maxInstant - 100000000), .pollAction, .pollAction,
      .onOctet 0 (maxInstant - 1)]).onTransmitStarted ⟨0⟩ maxInstant).1
      = .ok (Frame.new .pollForMaster 1 0 []).encoding := by
    decide +kernel
  have hoctet : (first.run [.onDeadline (maxInstant - 100000000), .pollAction, .pollAction]).activityAt
      (.onOctet 0 (maxInstant - 1)) = some (maxInstant - 1) := by
    decide +kernel
  have hlate := h first _ _ _ _ (bench_reachable _ []) hok _ _ [] _ rfl hoctet
  exact absurd hlate (by decide +kernel)

/-! ## The token -/

/-- `frame_limit` is the configured share of `max_info_frames`, rounded up, between one and all. -/
theorem frameLimit_eq (h : config.Valid) :
    config.frameLimit = max 1 (min ((config.maxInfoFrames.toNat * config.multipleFrameRatio.toNat + 99)
      / 100) config.maxInfoFrames.toNat) := by
  have hinfo : config.maxInfoFrames.toNat ≠ 0 := fun hz => h.maxInfoFrames (UInt8.toNat_inj.mp hz)
  have hproduct : config.maxInfoFrames.toNat * config.multipleFrameRatio.toNat ≤ 255 * 255 :=
    Nat.mul_le_mul (Nat.le_of_lt_succ config.maxInfoFrames.toNat_lt)
      (Nat.le_of_lt_succ config.multipleFrameRatio.toNat_lt)
  unfold MstpCoreConfig.frameLimit
  rw [min_eq_left (hproduct.trans (by decide))]
  dsimp only
  split_ifs <;> omega

/-- An information frame is started only while the station holds the token; and from one Token taken
up until the next a station that is not sole master starts no more of them than its limit. -/
theorem info_frames_within_token (h : core.Reachable) :
    (∀ newer frame origin sole now older,
      core.history = newer ++ .started frame origin sole now :: older →
      isInfo frame origin = true → holdsToken older = true) ∧
    (∀ newer use older, core.history = newer ++ (use ++ .tokenTaken :: older) →
      .tokenTaken ∉ use → use.countP CoreEvent.spends ≤ core.config.frameLimit) ∧
    core.config.frameLimit
      = max 1 (min ((core.config.maxInfoFrames.toNat * core.config.multipleFrameRatio.toNat + 99) / 100)
        core.config.maxInfoFrames.toNat) := by
  have hlawful : Lawful core.config.frameLimit core.history := h.sound.station.licensed.past
  refine ⟨fun newer frame origin sole now older hhistory hinfo => ?_,
    fun newer use older hhistory huse => ?_, frameLimit_eq h.sound.valid⟩
  · rw [hhistory] at hlawful
    exact hlawful.older.1 hinfo
  · rw [hhistory] at hlawful
    rw [← spent_append huse older]
    exact hlawful.older.spent_le

/-- An NPDU is queued, a Token arrives, and the NPDU goes out. -/
def npduWithToken : List Call :=
  [.enqueueNpdu 7 [1, 0] .normal 0, .onValidatedFrame (Frame.new .token 0 3 []) 1000000,
    .onDeadline 10000000, .pollAction, .pollAction, .onTransmitStarted ⟨0⟩ 10000000]

theorem info_frames_within_token_bench :
    [CoreEvent.started (Frame.new .bacnetDataNotExpectingReply 7 0 [1, 0]) .holder false
        10000000].countP CoreEvent.spends
      ≤ ((bench 0).run npduWithToken).config.frameLimit :=
  (info_frames_within_token (bench_reachable 0 npduWithToken)).2.1 [] _ [] (by decide +kernel)
    (by decide)

/-! ## Answers -/

theorem completeRequest_other {id : RequestId}
    (hother : ∀ request, core.pendingRequest = some request → request.id ≠ id)
    (decision : ReplyDecision) (now : Instant) :
    ∃ error, core.completeRequest id decision now = (.error error, core.observeTime now) := by
  have hkept : (core.observeTime now).pendingRequest = core.pendingRequest := rfl
  unfold completeRequest
  dsimp only
  generalize core.observeTime now = observed at hkept ⊢
  rw [hkept]
  cases hpending : core.pendingRequest with
  | none => exact ⟨.noPending, rfl⟩
  | some request =>
    dsimp only
    rw [if_pos (hother request hpending)]
    exact ⟨.stale, rfl⟩

/-- Every answer owed is owed still, by the frame or request the core holds, or was settled, once: a
frame to the asker was started, its request abandoned, or it was given up and counted. Nothing else
is settled, and a decision for another request changes the time only. -/
theorem answers_accounted (h : core.Reachable) :
    (∀ newer asker data older, core.history = newer ++ .owed asker data :: older →
      ((∀ event ∈ newer, event.accounts = false) ∧ core.station.asker = some asker) ∨
        ∃ rest event quiet, newer = rest ++ event :: quiet ∧
          (∀ event ∈ quiet, event.accounts = false) ∧ event.pays ⟨asker, data⟩ = true) ∧
    (∀ newer event older, core.history = newer ++ event :: older → event.settles = true →
      ∃ quiet asker data older', older = quiet ++ .owed asker data :: older' ∧
        (∀ event ∈ quiet, event.accounts = false) ∧ event.pays ⟨asker, data⟩ = true) ∧
    core.counters.expiredRequests = min (expiredSince core.history) u32Max ∧
    ∀ id decision now, (∀ request, core.pendingRequest = some request → request.id ≠ id) →
      (core.completeRequest id decision now).2 = { core with lastNow := max core.lastNow now } ∧
        ∃ error, (core.completeRequest id decision now).1 = .error error := by
  obtain ⟨⟨debt, hledger, hasker, -⟩, hexpired⟩ := h.sound.station.balanced
  have hhistory : ledger core.history = some debt := hledger
  refine ⟨fun newer asker data older heq => ?_, fun newer event older heq hsettles => ?_, hexpired,
    fun id decision now hother => ?_⟩
  · rw [heq] at hhistory
    rcases ledger_owed hhistory with ⟨hquiet, rfl⟩ | hpaid
    · exact .inl ⟨hquiet, hasker.symm⟩
    · exact .inr hpaid
  · rw [heq] at hhistory
    obtain ⟨after, hafter⟩ := ledger_older hhistory
    obtain ⟨before, hbefore, hsettle⟩ := ledger_cons_eq hafter
    have haccounts : event.accounts = true := by
      cases event <;> first | rfl | exact hsettles
    rcases settle_cases haccounts hsettle with ⟨-, -, d, rfl, hpays⟩ | ⟨hnot, -⟩
    · obtain ⟨quiet, older', hquiet, hnone⟩ := ledger_some hbefore
      exact ⟨quiet, d.asker, d.data, older', hquiet, hnone, hpays⟩
    · exact absurd (hnot.symm.trans hsettles) (by simp)
  · obtain ⟨error, hrefused⟩ := completeRequest_other hother decision now
    exact ⟨congrArg Prod.snd hrefused, error, congrArg Prod.fst hrefused⟩

/-- A Poll For Master arrives, and its answer is never started. -/
def pollUnanswered : List Call :=
  [.onValidatedFrame (Frame.new .pollForMaster 0 3 []) 1000000, .onDeadline 100000000]

theorem answers_accounted_bench :
    ((bench 0).run pollUnanswered).history = [.expired, .owed 3 false] ∧
      ((bench 0).run pollUnanswered).counters.expiredRequests
        = min (expiredSince ((bench 0).run pollUnanswered).history) u32Max :=
  ⟨by decide +kernel, (answers_accounted (bench_reachable 0 pollUnanswered)).2.2.1⟩

end MasterCore

end RustyBacnet.Mstp
