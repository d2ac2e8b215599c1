import RustyBacnet.Mstp.ReceiveRefine
import RustyBacnet.Mstp.Line

/-!
# A core is a station: its calls

1. Every call but a confirmed start takes its time and then makes moves (`step_leads`).
2. `onTransmitStarted_cases`: a start is refused, which is moves, or confirmed with the encoding of
   the frame that waited.
3. `Sound.step`, `fromParts_sound`, `Reachable.sound`: so every core that a run reaches is sound.
-/

namespace RustyBacnet.Mstp

namespace Station

variable {s : Station} {tx : ActiveTransmit} {state : MasterState}

theorem enter_ended (s : Station) (hstate : state ≠ .idle) :
    (s.enter state).ended = s.ended.enter state := by
  unfold enter ended
  rw [if_neg hstate, if_neg hstate]
  split_ifs <;> rfl

theorem next_finish (hactive : s.active = some tx) (hpost : tx.post ≠ .idle) :
    s.next .finish = s.ended := by
  rw [Station.next, hactive, Option.any_some, decide_eq_false hpost, if_neg (by simp)]

theorem next_finish_idle (hactive : s.active = some tx) (hpost : tx.post = .idle) :
    s.next .finish = s.ended.enter .idle := by
  rw [Station.next, hactive, Option.any_some, decide_eq_true hpost, if_pos rfl]

theorem Sound.finish_moves (h : s.Sound) (hactive : s.active = some tx)
    (hstarted : tx.started = true) (hpost : tx.post ≠ .idle) (hholds : state.holds = true)
    (hspends : state.spends = true → tx.post.spends = true) : s.Moves (s.ended.enter state) := by
  have hsend := h.ordered.started tx hactive hstarted
  have hidle : state ≠ .idle := by
    rintro rfl
    exact absurd hholds (by decide)
  have henter : s.Moves (s.enter state) := by
    refine moves_enter (h.ordered.request_none (.inr (by rw [hactive]; rfl))) hholds
      (.inl (h.licensed.active tx hactive hpost)) fun hs => ⟨hsend, h.licensed.spends ?_⟩
    simp [spending, hactive, hspends hs]
  have hkept : (s.enter state).active = some tx := by rw [enter_active, hactive]
  have hfinish := @moves_next (s.enter state) .finish
    ⟨tx, hkept, hstarted, fun hp => absurd hp hpost⟩
  rw [next_finish hkept hpost, enter_ended s hidle] at hfinish
  exact henter.trans hfinish

theorem Sound.finish_idle_moves (h : s.Sound) (hactive : s.active = some tx)
    (hstarted : tx.started = true) : s.Moves ((s.ended.enter .idle).next .clearToken) := by
  have hcleared : s.Moves (s.next .clearToken) := moves_next .clearToken trivial
  have hfinish := @moves_next (s.next .clearToken) .finish ⟨tx, hactive, hstarted, fun _ => rfl⟩
  have hsend := h.ordered.started tx hactive hstarted
  have hrequest := h.ordered.request_none (.inr (by rw [hactive]; rfl))
  have hkept : (s.next .clearToken).active = some tx := hactive
  rw [enter_clearToken]
  by_cases hpost : tx.post = .idle
  · rw [next_finish_idle hkept hpost] at hfinish
    exact hcleared.trans hfinish
  · rw [next_finish hkept hpost] at hfinish
    exact (hcleared.trans hfinish).trans (moves_enter_idle ⟨hsend, rfl, hrequest⟩)

end Station

/-- Polling leaves the frame buffer, and the transmit unless that is what was polled. -/
theorem ActionQueue.poll_keeps {npdu : ℕ} (a : ActionQueue npdu) :
    a.poll.2.frame = a.frame ∧ a.poll.2.frameLength = a.frameLength ∧
      a.poll.2.tripped = a.tripped ∧
      (a.poll.2.transmit.map (·.id) = a.transmit.map (·.id) ∨ a.poll.2.transmit = none) := by
  unfold ActionQueue.poll
  by_cases hreceive : a.receive = true
  · rw [if_pos hreceive]
    exact ⟨rfl, rfl, rfl, .inl rfl⟩
  rw [if_neg hreceive]
  cases htransmit : a.transmit with
  | some transmit =>
    dsimp only
    split_ifs
    · exact ⟨rfl, rfl, rfl, .inr rfl⟩
    · exact ⟨rfl, rfl, rfl, .inl rfl⟩
  | none =>
    split_ifs
    · exact ⟨rfl, rfl, rfl, .inr htransmit⟩
    · exact ⟨rfl, rfl, rfl, .inr rfl⟩

namespace MasterCore

variable {Q : Type} {npdu : ℕ} {core core' : MasterCore Q npdu} {now : Instant}

theorem Sound.listens (h : core.Sound) (hnow : core.lastNow = now)
    (hquiet : ¬ core.transmitting = true) : core.Listens now := by
  refine ⟨h, hnow, ?_⟩
  show core.activeTransmit.all (!·.started) = true
  unfold transmitting at hquiet
  cases hactive : core.activeTransmit with
  | none => rfl
  | some tx => simpa [hactive] using hquiet

/-- What a call leads to: its time, then moves. -/
def Takes (core : MasterCore Q npdu) (now : Instant) (core' : MasterCore Q npdu) : Prop :=
  (core.observeTime now).Leads core'

theorem Sound.takes (h : core.Sound) (htakes : core.Takes now core') : core'.Sound :=
  (h.observeTime now).leads htakes

theorem Sound.transmit_none_of_started (h : core.Sound) {tx : ActiveTransmit}
    (hactive : core.activeTransmit = some tx) (hstarted : tx.started = true) :
    core.actions.transmit = none := by
  cases htransmit : core.actions.transmit with
  | none => rfl
  | some queued =>
    have hqueued : core.station.queued = some queued.id := by
      show core.actions.transmit.map (·.id) = some queued.id
      rw [htransmit]
      rfl
    obtain ⟨tx', htx', hun, -⟩ := h.station.ordered.queued queued.id hqueued
    obtain rfl := Option.some.inj (hactive.symm.trans htx')
    exact absurd (hun.symm.trans hstarted) (by simp)

theorem station_confirmStart (hnow : core.lastNow = now) (tx : ActiveTransmit)
    (pending : PendingSend) :
    (core.confirmStart tx pending now).station = core.station.confirm tx pending := by
  have habort := core.station_abortPartialIfLate now
  unfold confirmStart
  dsimp only
  generalize (core.abortPartialIfLate now).2 = aborted at habort ⊢
  generalize heq : (if aborted.parserPartial then
    { aborted with decoder := aborted.decoder.reset, parserPartial := false }.mapCounters
      .recordFrameAbort
    else aborted) = reset
  have hreset : reset.station = core.station := by
    rw [← heq]
    split_ifs
    · exact (station_mapCounters _ rfl rfl).trans habort
    · exact habort
  have hlast : reset.lastNow = now := (congrArg Station.lastNow hreset).trans hnow
  rw [← hreset, ← hlast]
  rfl

theorem forgetPending_none (h : core.pendingSend = none) : core.forgetPending = core := by
  unfold forgetPending
  rw [h]

theorem pollAction_leads (core : MasterCore Q npdu) : core.Leads core.pollAction.2 := by
  obtain ⟨hframe, hlength, htripped, htransmit⟩ := core.actions.poll_keeps
  have hencoded : core.actions.poll.2.encoded = core.actions.encoded := by
    rw [ActionQueue.encoded, hframe, hlength, ActionQueue.encoded]
  rcases htransmit with hsame | hnone
  · refine .of_eq ?_
    simp only [station, pollAction, hframe, htripped, hsame, hencoded]
  · refine .of_move .poll trivial ?_
    simp only [station, pollAction, Station.next, hframe, htripped, hnone, hencoded, Option.map_none]

/-- Moves by which the core hears the line now. -/
structure Hears (core core' : MasterCore Q npdu) : Prop where
  leads : core.Leads core'
  heard : core.lastNow ≤ core'.lastActivity

theorem Hears.trans (h : core.Hears core') (hsound : core'.Sound) {core'' : MasterCore Q npdu}
    (hleads : core'.Leads core'') : core.Hears core'' :=
  ⟨h.leads.trans hleads, h.heard.trans (hsound.station.lastActivity_le hleads)⟩

section Calls

variable [QueueStorage Q]

/-! ## What the line does -/

theorem noteBusActivity_hears {start : MasterCore Q npdu} (hleads : start.Leads core)
    (h : core.Listens now) (events : ℕ) : start.Hears (core.noteBusActivity now events) := by
  refine ⟨hleads.trans (noteBusActivity_leads h events), ?_⟩
  rw [show (core.noteBusActivity now events).lastActivity = now from
    congrArg Line.lastActivity (noteBusActivity_line core now events), ← h.now, hleads.lastNow]

theorem onOctet_hears (h : core.Sound) (byte : UInt8) (now : Instant)
    (hquiet : ¬ (core.observeTime now).transmitting = true) :
    (core.observeTime now).Hears (core.onOctet byte now) := by
  unfold onOctet
  dsimp only
  have hsound := h.observeTime now
  generalize core.observeTime now = observed at hsound hquiet ⊢
  rw [if_neg hquiet]
  have hlistens := hsound.listens rfl hquiet
  have habort : observed.Leads (observed.abortPartialIfLate observed.lastNow).2 :=
    .of_eq (station_abortPartialIfLate _ _)
  generalize observed.abortPartialIfLate observed.lastNow = aborted at habort ⊢
  have hnoted := noteBusActivity_hears habort (hlistens.leads habort) 1
  generalize aborted.2.noteBusActivity observed.lastNow 1 = noted at hnoted ⊢
  have hready := hlistens.leads hnoted.leads
  generalize heq : (if aborted.1 then noted.invalidFrameEvent observed.lastNow else noted) = settled
  have hinvalid : observed.Hears settled := by
    rw [← heq]
    split_ifs
    · exact hnoted.trans hready.sound (invalidFrameEvent_leads hready.sound hready.now)
    · exact hnoted
  have hstamped : observed.Hears { settled with lastOctet := some observed.lastNow } :=
    hinvalid.trans (hlistens.leads hinvalid.leads).sound (.of_eq rfl)
  generalize ({ settled with lastOctet := some observed.lastNow } : MasterCore Q npdu) = stamped
    at hstamped ⊢
  have hdecoding := hlistens.leads hstamped.leads
  have hdecoded := hstamped.trans hdecoding.sound (decodeOctet_leads hdecoding byte)
  generalize stamped.decodeOctet byte observed.lastNow = decoded at hdecoded ⊢
  exact hdecoded.trans (hlistens.leads hdecoded.leads).sound (.of_eq rfl)

theorem onOctet_takes (h : core.Sound) (byte : UInt8) (now : Instant) :
    core.Takes now (core.onOctet byte now) := by
  by_cases htransmitting : (core.observeTime now).transmitting = true
  · unfold Takes onOctet
    rw [if_pos htransmitting]
    exact .refl _
  · exact (onOctet_hears h byte now htransmitting).leads

theorem onValidatedFrame_hears (h : core.Sound) {frame : Frame}
    (haccepted : ¬ core.undecodable frame = true) (now : Instant)
    (hquiet : ¬ (core.observeTime now).transmitting = true) :
    (core.observeTime now).Hears (core.onValidatedFrame frame now) := by
  have hframe : frame.Bounded := by
    intro hcobs
    simp only [undecodable, hcobs, Bool.and_false, Bool.not_false, if_true, Bool.or_eq_true,
      decide_eq_true_eq, not_or, Nat.not_lt] at haccepted
    exact haccepted.1.1
  unfold onValidatedFrame
  rw [if_neg haccepted]
  have hsound := h.observeTime now
  generalize core.observeTime now = observed at hsound hquiet ⊢
  rw [if_neg hquiet]
  have hlistens := hsound.listens rfl hquiet
  have hnoted := noteBusActivity_hears (.refl _) hlistens 1
  have hready := hlistens.leads hnoted.leads
  exact hnoted.trans hready.sound (processFrame_leads hready hframe)

theorem onValidatedFrame_leads (h : core.Sound) (frame : Frame) (now : Instant) :
    core.Leads (core.onValidatedFrame frame now) ∨
      core.Takes now (core.onValidatedFrame frame now) := by
  by_cases hrefused : core.undecodable frame = true
  · unfold onValidatedFrame
    rw [if_pos hrefused]
    exact .inl (.of_eq (core.station_mapCounters rfl rfl))
  by_cases htransmitting : (core.observeTime now).transmitting = true
  · unfold Takes onValidatedFrame
    rw [if_neg hrefused, if_pos htransmitting]
    exact .inr (.refl _)
  · exact .inr (onValidatedFrame_hears h hrefused now htransmitting).leads

theorem onInvalidFrame_hears (h : core.Sound) (now : Instant)
    (hquiet : ¬ (core.observeTime now).transmitting = true) :
    (core.observeTime now).Hears (core.onInvalidFrame now) := by
  unfold onInvalidFrame
  have hsound := h.observeTime now
  generalize core.observeTime now = observed at hsound hquiet ⊢
  rw [if_neg hquiet]
  have hlistens := hsound.listens rfl hquiet
  have hnoted := noteBusActivity_hears (.refl _) hlistens 1
  have hcounted := hnoted.trans (hlistens.leads hnoted.leads).sound
    (.of_eq (station_mapCounters _ (f := .recordParserError) rfl rfl))
  have hready := hlistens.leads hcounted.leads
  exact hcounted.trans hready.sound (invalidFrameEvent_leads hready.sound hready.now)

theorem onInvalidFrame_takes (h : core.Sound) (now : Instant) :
    core.Takes now (core.onInvalidFrame now) := by
  by_cases htransmitting : (core.observeTime now).transmitting = true
  · unfold Takes onInvalidFrame
    rw [if_pos htransmitting]
    exact .refl _
  · exact (onInvalidFrame_hears h now htransmitting).leads

theorem onHostActivity_hears (h : core.Sound) {octets : ℕ} (hoctets : octets ≠ 0) (now : Instant)
    (hquiet : ¬ (core.observeTime now).transmitting = true) :
    (core.observeTime now).Hears (core.onHostActivity octets now) := by
  unfold onHostActivity
  have hsound := h.observeTime now
  generalize core.observeTime now = observed at hsound hquiet ⊢
  rw [if_neg (not_or.mpr ⟨hquiet, hoctets⟩)]
  exact noteBusActivity_hears (.refl _) (hsound.listens rfl hquiet) _

theorem onHostActivity_takes (h : core.Sound) (octets : ℕ) (now : Instant) :
    core.Takes now (core.onHostActivity octets now) := by
  by_cases hnothing : (core.observeTime now).transmitting = true ∨ octets = 0
  · unfold Takes onHostActivity
    rw [if_pos hnothing]
    exact .refl _
  · obtain ⟨hquiet, hoctets⟩ := not_or.mp hnothing
    exact (onHostActivity_hears h hoctets now hquiet).leads

theorem onReceiveError_hears (h : core.Sound) (error : ReceiveError) (now : Instant)
    (hquiet : ¬ (core.observeTime now).transmitting = true) :
    (core.observeTime now).Hears (core.onReceiveError error now) := by
  unfold onReceiveError
  dsimp only
  have hsound := h.observeTime now
  generalize core.observeTime now = observed at hsound hquiet ⊢
  rw [if_neg hquiet]
  have hlistens := hsound.listens rfl hquiet
  have hcounted : observed.Leads (observed.mapCounters (·.recordReceiveError error)) :=
    .of_eq (observed.station_mapCounters (by cases error <;> rfl) (by cases error <;> rfl))
  have hnoted := noteBusActivity_hears hcounted (hlistens.leads hcounted) 1
  generalize (observed.mapCounters (·.recordReceiveError error)).noteBusActivity observed.lastNow 1
    = noted at hnoted ⊢
  have hreset : observed.Hears
      { noted with decoder := noted.decoder.reset, parserPartial := false } :=
    hnoted.trans (hlistens.leads hnoted.leads).sound (.of_eq rfl)
  generalize ({ noted with decoder := noted.decoder.reset, parserPartial := false } :
    MasterCore Q npdu) = reset at hreset ⊢
  split_ifs
  · have hparsed := hreset.trans (hlistens.leads hreset.leads).sound
      (.of_eq (station_mapCounters _ (f := .recordParserError) rfl rfl))
    have hready := hlistens.leads hparsed.leads
    exact hparsed.trans hready.sound (invalidFrameEvent_leads hready.sound hready.now)
  · exact hreset

theorem onReceiveError_takes (h : core.Sound) (error : ReceiveError) (now : Instant) :
    core.Takes now (core.onReceiveError error now) := by
  by_cases htransmitting : (core.observeTime now).transmitting = true
  · unfold Takes onReceiveError
    rw [if_pos htransmitting]
    exact .refl _
  · exact (onReceiveError_hears h error now htransmitting).leads

theorem abortLate_leads (h : core.Sound) (hnow : core.lastNow = now) :
    core.Leads (core.abortLate now) := by
  unfold abortLate
  have habort : core.Leads (core.abortPartialIfLate now).2 :=
    .of_eq (station_abortPartialIfLate _ _)
  generalize core.abortPartialIfLate now = aborted at habort ⊢
  rcases aborted with ⟨_ | _, after⟩
  · exact habort
  · exact habort.trans (invalidFrameEvent_leads (h.leads habort) (habort.lastNow.trans hnow))

theorem onSilence_takes (h : core.Sound) (now : Instant) : core.Takes now (core.onSilence now) :=
  abortLate_leads (h.observeTime now) rfl

/-! ## The adapter's transmit events -/

theorem onTransmitStarted_cases (h : core.Sound) (id : TransmitId) (now : Instant) :
    (∃ error, (core.onTransmitStarted id now).1 = .error error ∧
      core.Takes now (core.onTransmitStarted id now).2) ∨
    ∃ tx pending, (core.observeTime now).station.MayConfirm tx pending ∧
      (core.onTransmitStarted id now).1 = .ok pending.frame.encoding ∧
      (core.onTransmitStarted id now).2.station
        = (core.observeTime now).station.confirm tx pending := by
  unfold Takes onTransmitStarted
  dsimp only
  have hsound := h.observeTime now
  generalize core.observeTime now = observed at hsound ⊢
  have horder := hsound.station.ordered
  cases hactive : observed.activeTransmit with
  | none => exact .inl ⟨.stale, rfl, .refl _⟩
  | some tx =>
    dsimp only
    by_cases hid : tx.id ≠ id
    · rw [if_pos hid]
      exact .inl ⟨.stale, rfl, .refl _⟩
    rw [if_neg hid]
    obtain rfl : tx.id = id := not_not.mp hid
    by_cases hstarted : tx.started = true
    · rw [if_pos hstarted]
      exact .inl ⟨.alreadyStarted, rfl, .of_eq (observed.station_mapCounters rfl rfl)⟩
    rw [if_neg hstarted]
    by_cases hqueued : observed.actions.transmitQueued tx.id = true
    · rw [if_pos hqueued]
      exact .inl ⟨.notPolled, rfl, .of_eq (observed.station_mapCounters rfl rfl)⟩
    rw [if_neg hqueued]
    cases hsend : observed.pendingSend with
    | none => exact .inl ⟨.stale, rfl, .refl _⟩
    | some pending =>
      have hwaits : observed.station.send = some pending := hsend
      have hsome : observed.pendingSend.isSome = true := by
        rw [hsend]
        rfl
      dsimp only
      by_cases hexpired : (pending.origin.window.any fun window =>
          decide (window.giveUp ≤ observed.lastNow)) = true
      · rw [if_pos hexpired]
        exact .inl ⟨.expired, rfl, dropPending_leads hsound hsome rfl⟩
      rw [if_neg hexpired]
      by_cases hearly : observed.lastNow < pending.earliest
      · rw [if_pos hearly]
        refine .inl ⟨.deferred, rfl, ?_⟩
        have hwithdrawn : observed.Leads
            ((observed.withdrawTransmit tx.id).mapCounters .recordDeferredStart) := by
          unfold Leads
          rw [station_mapCounters _ rfl rfl, station_withdrawTransmit horder hactive]
          exact horder.withdraw_moves hsome
        split_ifs
        · exact hwithdrawn.trans (dropPending_leads (hsound.leads hwithdrawn) hsome
            hwithdrawn.lastNow)
        · exact hwithdrawn.trans (.of_eq rfl)
      · rw [if_neg hearly]
        have hmay : observed.station.MayConfirm tx pending := by
          refine ⟨hwaits, hactive, Bool.eq_false_iff.mpr hstarted, ?_, Nat.not_lt.mp hearly, ?_⟩
          · cases htransmit : observed.actions.transmit with
            | none => simp [station, htransmit]
            | some queued =>
              obtain ⟨tx', htx', -, hid⟩ := horder.queued queued.id (by simp [station, htransmit])
              obtain rfl := Option.some.inj (hactive.symm.trans htx')
              exact absurd (by simp [ActionQueue.transmitQueued, htransmit, hid]) hqueued
          · intro window horigin
            rw [horigin] at hexpired
            refine Nat.not_le.mp fun hle => hexpired ?_
            rw [Origin.window, Option.any_some]
            exact decide_eq_true hle
        generalize hcount : (if (pending.origin.window.any fun window =>
          decide (window.sendBy < observed.lastNow)) = true then
          observed.mapCounters .recordLateReply else observed) = counted
        have hlate : counted.station = observed.station := by
          rw [← hcount]
          split_ifs
          · exact observed.station_mapCounters rfl rfl
          · rfl
        have hnow : counted.lastNow = observed.lastNow := congrArg Station.lastNow hlate
        have hstation := station_confirmStart hnow tx pending
        rw [hlate] at hstation
        refine .inr ⟨tx, pending, hmay, ?_, hstation⟩
        have hoctets : (counted.confirmStart tx pending observed.lastNow).station.octets
            = pending.frame.encoding := by
          rw [hstation]
          exact hsound.station.quiet.octets pending hwaits
        exact congrArg Except.ok hoctets

/-- What follows a transmission, from the station in which it is over. -/
theorem afterTransmit_leads (h : core.Sound) {tx : ActiveTransmit}
    (hactive : core.activeTransmit = some tx) (hstarted : tx.started = true)
    (hnow : core.lastNow = now) {ended : MasterCore Q npdu}
    (hover : ended.station = core.station.ended) : core.Leads (ended.afterTransmit tx.post now) := by
  have hsend := h.station.ordered.started tx hactive hstarted
  have hrequest := h.station.ordered.request_none (.inr (by
    show core.activeTransmit.isSome = true
    rw [hactive]
    rfl))
  have hfree : ended.station.Free := by
    rw [hover]
    exact ⟨hsend, rfl, hrequest⟩
  have hlast : ended.lastNow = now := (congrArg Station.lastNow hover).trans hnow
  have hnext : ∀ state : MasterState, tx.post ≠ .idle → state.holds = true →
      (state.spends = true → tx.post.spends = true) → core.Leads (ended.setState state) := by
    intro state hpost hholds hspends
    unfold Leads
    rw [station_setState, hover]
    exact h.station.finish_moves hactive hstarted hpost hholds hspends
  cases hpost : tx.post with
  | idle =>
    refine enterIdle_leads h ?_ hfree hlast
    rw [hover]
    exact h.station.finish_idle_moves hactive hstarted
  | continueToken =>
    have hleads := hnext .useToken (by rw [hpost]; decide) rfl fun _ => by rw [hpost]; rfl
    have hwork : (ended.setState .useToken).AtWork now := by
      refine ⟨h.leads hleads, ?_, ?_⟩
      · rw [station_setState]
        simpa [Station.Free] using hfree
      · exact hleads.lastNow.trans hnow
    exact hleads.trans (driveTokenWith_leads plain_enterIdle hwork (by rw [setState_state]; rfl))
  | waitForReply => exact hnext .waitForReply (by rw [hpost]; decide) rfl fun _ => by rw [hpost]; rfl
  | passToken =>
    have hleads := hnext .passToken (by rw [hpost]; decide) rfl fun hs => absurd hs (by decide)
    exact hleads.trans (.of_eq rfl)
  | pollForMaster =>
    exact hnext .pollForMaster (by rw [hpost]; decide) rfl fun hs => absurd hs (by decide)

theorem onTransmitComplete_takes (h : core.Sound) (id : TransmitId) (now : Instant) :
    core.Takes now (core.onTransmitComplete id now) := by
  unfold Takes onTransmitComplete
  dsimp only
  have hsound := h.observeTime now
  generalize core.observeTime now = observed at hsound ⊢
  cases hactive : observed.activeTransmit with
  | none => exact .refl _
  | some tx =>
    dsimp only
    split_ifs with hid hunstarted
    · exact .refl _
    · exact .of_eq (observed.station_mapCounters rfl rfl)
    · have hstarted : tx.started = true := by simpa using hunstarted
      refine afterTransmit_leads hsound hactive hstarted rfl ?_
      have htransmit := hsound.transmit_none_of_started hactive hstarted
      rw [station_mapCounters _ rfl rfl, station_mapCounters _ rfl rfl]
      simp [station, Station.ended, ActionQueue.queueReceive, ActionQueue.debugAssert,
        ActionQueue.encoded, htransmit]

theorem onTransmitAborted_leads (h : core.Sound) (hnow : core.lastNow = now) (id : TransmitId)
    (reason : TransmitFailure) : core.Leads (core.onTransmitAborted id reason now) := by
  subst hnow
  unfold onTransmitAborted
  rw [observeTime_eq rfl]
  dsimp only
  cases hactive : core.activeTransmit with
  | none => exact .refl _
  | some tx =>
    dsimp only
    by_cases hid : tx.id ≠ id
    · rw [if_pos hid]
      exact .refl _
    rw [if_neg hid]
    obtain rfl : tx.id = id := not_not.mp hid
    have hcounted : station (core.mapCounters (·.recordTransmitFailure reason)) = core.station :=
      core.station_mapCounters (by cases reason <;> rfl) (by cases reason <;> rfl)
    generalize core.mapCounters (·.recordTransmitFailure reason) = counted at hcounted ⊢
    have hsame : core.Leads counted := .of_eq hcounted
    have horder := (h.leads hsame).station.ordered
    have hkept : counted.activeTransmit = some tx := (congrArg Station.active hcounted).trans hactive
    have hwithdrawn := station_withdrawTransmit horder hkept
    have hrequest := h.station.ordered.request_none (.inr (by
      show core.activeTransmit.isSome = true
      rw [hactive]
      rfl))
    rw [hcounted] at hwithdrawn
    -- Where the frame is over, whether or not it had started.
    have hgone : ∀ gone : MasterCore Q npdu, gone.station.Free → gone.lastNow = core.lastNow →
        core.station.Moves ((gone.station.enter .idle).next .clearToken) →
        core.Leads ((gone.idleFrom core.lastNow).takePendingToken core.lastNow) := by
      intro gone hfree hlast hmoves
      refine takePendingTokenWith_leads plain_enterIdle h ?_ ?_ ?_
      · rwa [station_idleFrom]
      · rw [station_idleFrom]
        simpa [Station.Free] using hfree
      · show (gone.idleFrom core.lastNow).station.lastNow = core.lastNow
        rw [station_idleFrom, Station.enter_lastNow]
        exact hlast
    cases hstarted : tx.started with
    | true =>
      have hsend : core.station.send = none := h.station.ordered.started tx hactive hstarted
      have hnone : counted.pendingSend = none := (congrArg Station.send hcounted).trans hsend
      have hqueued : core.station.queued = none := by
        show core.actions.transmit.map (·.id) = none
        rw [h.transmit_none_of_started hactive hstarted]
        rfl
      have hkeeps : (counted.withdrawTransmit tx.id).forgetPending = counted.withdrawTransmit tx.id :=
        forgetPending_none hnone
      rw [if_pos rfl, hkeeps]
      generalize counted.withdrawTransmit tx.id = withdrawn at hwithdrawn ⊢
      have hended : station ({ withdrawn with
          lastActivity := core.lastNow }.mapCounters
            (·.recordDeAssertion (core.lastNow - tx.assertedAt))) = core.station.ended := by
        rw [station_mapCounters _ rfl rfl]
        show { withdrawn.station with
          lastActivity := core.lastNow } = core.station.ended
        rw [hwithdrawn, Station.ended, Station.next, ← hqueued]
        rfl
      refine hgone _ ?_ ?_ ?_
      · rw [hended]
        exact ⟨hsend, rfl, hrequest⟩
      · exact congrArg Station.lastNow hended
      · rw [hended]
        exact h.station.finish_idle_moves hactive hstarted
    | false =>
      obtain ⟨pending, hsend, -⟩ := h.station.ordered.unstarted tx hactive hstarted
      have hsome : core.station.send.isSome = true := by
        rw [hsend]
        rfl
      have hforgot : (counted.withdrawTransmit tx.id).forgetPending.station
          = (core.station.next .withdraw).forget := by
        rw [station_forgetPending, hwithdrawn]
        show counted.station.send.isSome = true
        rw [hcounted]
        exact hsome
      rw [if_neg (by simp)]
      refine hgone _ ?_ ?_ ?_
      · rw [hforgot]
        refine ⟨by simp, by rw [Station.forget_active]; rfl, ?_⟩
        rw [Station.forget_request]
        exact hrequest
      · show (counted.withdrawTransmit tx.id).forgetPending.station.lastNow = core.lastNow
        rw [hforgot, Station.forget_lastNow]
        rfl
      · rw [hforgot]
        exact h.station.drop_moves hsome

theorem onTransmitAborted_takes (h : core.Sound) (id : TransmitId) (reason : TransmitFailure)
    (now : Instant) : core.Takes now (core.onTransmitAborted id reason now) := by
  have hagain := onTransmitAborted_leads (h.observeTime now) rfl id reason
  unfold onTransmitAborted at hagain ⊢
  rw [observeTime_eq rfl] at hagain
  exact hagain

/-! ## The deadline -/

theorem dispatchPendingSend_leads (h : core.Sound) (hnow : core.lastNow = now)
    (hactive : core.activeTransmit = none) : core.Leads (core.dispatchPendingSend now) := by
  unfold dispatchPendingSend dispatchPendingSendWith
  cases hsend : core.pendingSend with
  | none => exact .refl _
  | some pending =>
    have hsome : core.pendingSend.isSome = true := by
      rw [hsend]
      rfl
    dsimp only
    split_ifs
    · exact dropPending_leads h hsome hnow
    · exact .of_eq rfl
    · exact .of_move (.handOver ⟨core.nextTransmitGeneration⟩ now) ⟨hsome, hactive⟩
        (station_dispatchFrame hsend hactive (h.transmit_none hactive) now)

theorem MstpCoreConfig.frameLimit_le_max (c : MstpCoreConfig) (h : c.Valid) :
    c.frameLimit ≤ c.maxInfoFrames.toNat := by
  have hpos : c.maxInfoFrames.toNat ≠ 0 := fun hz => h.maxInfoFrames (UInt8.toNat_inj.mp hz)
  unfold MstpCoreConfig.frameLimit
  dsimp only
  split_ifs <;> omega

theorem replyTimeout_leads (h : core.AtWork now) (hstate : core.state = .waitForReply) :
    core.Leads (core.replyTimeout now) := by
  set counted : MasterCore Q npdu := { core with frameCount := core.config.maxInfoFrames.toNat }
  have hcount : core.Leads counted := by
    refine .of_move (.countFrames core.config.maxInfoFrames.toNat) (fun _ => .inr ?_) rfl
    rw [Station.not_spends_of_none h.free.1]
    exact h.sound.station.licensed.past.spent_le.trans
      (MstpCoreConfig.frameLimit_le_max core.config h.sound.valid)
  have hwork : counted.AtWork now := ⟨h.sound.leads hcount, h.free, h.now⟩
  have hspends : counted.state.spends = true := by
    rw [show counted.state = .waitForReply from hstate]
    rfl
  exact hcount.trans (hwork.resume hspends rfl)

theorem serviceDeadline_leads (h : core.Sound) (hnow : core.lastNow = now) :
    core.Leads (core.serviceDeadline now) := by
  unfold serviceDeadline
  cases hactive : core.activeTransmit with
  | some tx =>
    dsimp only
    split_ifs
    · exact onTransmitAborted_leads h hnow tx.id .timeout
    · exact .refl _
  | none =>
    cases hsend : core.pendingSend with
    | some pending =>
      rw [Option.isSome_some, if_pos rfl]
      exact dispatchPendingSend_leads h hnow hactive
    | none =>
      rw [Option.isSome_none, if_neg (by simp)]
      have hwork : core.state ≠ .answerDataRequest → core.AtWork now := fun hstate =>
        ⟨h, ⟨hsend, hactive, h.request_none hstate⟩, hnow⟩
      cases hstate : core.state with
      | idle => exact enterNoToken_leads (hwork (by rw [hstate]; decide))
      | noToken => exact generateTokenIfInSlot_leads (hwork (by rw [hstate]; decide))
      | waitForReply => exact replyTimeout_leads (hwork (by rw [hstate]; decide)) hstate
      | answerDataRequest => exact replyDeadline_leads h hnow hsend hactive
      | passToken => exact passTokenTimeout_leads (hwork (by rw [hstate]; decide)) hstate
      | pollForMaster => exact pollTimeout_leads (hwork (by rw [hstate]; decide)) hstate
      | useToken | doneWithToken =>
        exact driveTokenWith_leads plain_enterIdle (hwork (by rw [hstate]; decide))
          (by rw [hstate]; rfl)

theorem serviceIfDue_leads (h : core.Sound) (hnow : core.lastNow = now) :
    core.Leads (core.serviceIfDue now) := by
  unfold serviceIfDue
  cases core.nextDeadline with
  | none => exact .refl _
  | some deadline =>
    dsimp only
    split_ifs
    · exact .refl _
    · have hlateness : station (core.mapCounters
          (·.recordDeadline (now - deadline) core.config.lateDeadline)) = core.station := by
        refine core.station_mapCounters ?_ ?_ <;>
          (unfold MstpCounters.recordDeadline; split_ifs <;> rfl)
      have hcounted : core.Leads (core.mapCounters
          (·.recordDeadline (now - deadline) core.config.lateDeadline)) := .of_eq hlateness
      exact hcounted.trans (serviceDeadline_leads (h.leads hcounted)
        (hcounted.lastNow.trans hnow))

theorem onDeadline_takes (h : core.Sound) (now : Instant) : core.Takes now (core.onDeadline now) := by
  have hsound := h.observeTime now
  have haborted := abortLate_leads hsound rfl
  exact haborted.trans (serviceIfDue_leads (hsound.leads haborted) haborted.lastNow)

theorem completeRequest_takes (h : core.Sound) (id : RequestId) (decision : ReplyDecision)
    (now : Instant) : core.Takes now (core.completeRequest id decision now).2 := by
  have hagain := completeRequest_leads (h.observeTime now) rfl id decision
  unfold completeRequest at hagain ⊢
  rw [observeTime_eq rfl] at hagain
  exact hagain

theorem enqueueNpdu_station (core : MasterCore Q npdu) (destination : UInt8) (octets : List UInt8)
    (priority : NetworkPriority) (now : Instant) :
    (core.enqueueNpdu destination octets priority now).2.station = core.station := by
  unfold enqueueNpdu recordOversizeNpdu
  split_ifs
  · cases QueueKind.fromDestination destination <;> rfl
  · rfl

theorem takeCounters_leads (h : core.Sound) : core.Leads core.takeCounters.2 := by
  have hfault : (core.tripped || core.actions.tripped || core.counters.internalErrors != 0) = false :=
    h.station.faultless
  simp only [Bool.or_eq_false_iff] at hfault
  refine .of_move .takeCounters trivial ?_
  simp [station, takeCounters, record, Station.next, Station.record, hfault]

/-! ## Runs -/

/-- What a call comes to: moves, moves after its time is taken, or a confirmed start. -/
theorem step_cases (h : core.Sound) (call : Call) :
    core.Leads (core.step call) ∨ (∃ now, core.Takes now (core.step call)) ∨
      ∃ now tx pending, (core.observeTime now).station.MayConfirm tx pending ∧
        (core.step call).station = (core.observeTime now).station.confirm tx pending := by
  cases call with
  | onOctet byte now => exact .inr (.inl ⟨now, onOctet_takes h byte now⟩)
  | onValidatedFrame frame now =>
    exact (onValidatedFrame_leads h frame now).imp_right fun htakes => .inl ⟨now, htakes⟩
  | onInvalidFrame now => exact .inr (.inl ⟨now, onInvalidFrame_takes h now⟩)
  | onHostActivity octets now => exact .inr (.inl ⟨now, onHostActivity_takes h octets now⟩)
  | onReceiveError error now => exact .inr (.inl ⟨now, onReceiveError_takes h error now⟩)
  | onSilence now => exact .inr (.inl ⟨now, onSilence_takes h now⟩)
  | onDeadline now => exact .inr (.inl ⟨now, onDeadline_takes h now⟩)
  | onTransmitStarted id now =>
    rcases onTransmitStarted_cases h id now with ⟨_, -, htakes⟩ | ⟨tx, pending, hmay, -, hstation⟩
    · exact .inr (.inl ⟨now, htakes⟩)
    · exact .inr (.inr ⟨now, tx, pending, hmay, hstation⟩)
  | onTransmitComplete id now => exact .inr (.inl ⟨now, onTransmitComplete_takes h id now⟩)
  | onTransmitAborted id reason now =>
    exact .inr (.inl ⟨now, onTransmitAborted_takes h id reason now⟩)
  | completeRequest id decision now =>
    exact .inr (.inl ⟨now, completeRequest_takes h id decision now⟩)
  | enqueueNpdu destination octets priority now =>
    exact .inl (.of_eq (enqueueNpdu_station core destination octets priority now))
  | pollAction => exact .inl (pollAction_leads core)
  | takeCounters => exact .inl (takeCounters_leads h)

theorem Sound.step (h : core.Sound) (call : Call) : (core.step call).Sound := by
  rcases step_cases h call with hleads | ⟨now, htakes⟩ | ⟨now, tx, pending, hmay, hstation⟩
  · exact h.leads hleads
  · exact h.takes htakes
  · have hsound := (h.observeTime now).station.confirm hmay
    rw [← hstation] at hsound
    exact h.of_station hsound (congrArg Station.config hstation) (congrArg Station.room hstation)

theorem Sound.step_keeps (h : core.Sound) (call : Call) :
    core.lastActivity ≤ (core.step call).lastActivity ∧ (core.step call).config = core.config := by
  rcases step_cases h call with hleads | ⟨now, htakes⟩ | ⟨now, tx, pending, hmay, hstation⟩
  · exact ⟨h.station.lastActivity_le hleads, hleads.config⟩
  · have hleads : (core.observeTime now).Leads (core.step call) := htakes
    exact ⟨(h.observeTime now).station.lastActivity_le hleads, hleads.config⟩
  · exact ⟨(congrArg Station.lastActivity hstation).ge, congrArg Station.config hstation⟩

theorem Sound.run (h : core.Sound) (calls : List Call) : (core.run calls).Sound := by
  induction calls generalizing core with
  | nil => exact h
  | cons call calls ih => exact ih (h.step call)

theorem Sound.run_keeps (h : core.Sound) (calls : List Call) :
    core.lastActivity ≤ (core.run calls).lastActivity ∧ (core.run calls).config = core.config := by
  induction calls generalizing core with
  | nil => exact ⟨Nat.le_refl _, rfl⟩
  | cons call calls ih =>
    obtain ⟨hle, hconfig⟩ := h.step_keeps call
    obtain ⟨hle', hconfig'⟩ := ih (h.step call)
    exact ⟨hle.trans hle', hconfig'.trans hconfig⟩

/-- What construction checks. -/
structure Built (config : MstpCoreConfig) (queues : Q) (rxStorage : List UInt8)
    (buffers : ActionBuffers npdu) : Prop where
  valid : config.Valid
  receive : minRxStorage ≤ rxStorage.length
  extended : config.extendedFrames = true → maxExtendedFrameLength ≤ rxStorage.length ∧
    maxExtendedFrameLength ≤ buffers.frame.length ∧ maxExtendedMpduData ≤ npdu ∧
    maxExtendedMpduData ≤ QueueStorage.maxNpdu queues

variable {buffers : ActionBuffers npdu} {rxStorage : List UInt8} {queues : Q}

theorem checkExtendedStorage_ok {u : Unit}
    (h : checkExtendedStorage queues rxStorage buffers = .ok u) :
    maxExtendedFrameLength ≤ rxStorage.length ∧ maxExtendedFrameLength ≤ buffers.frame.length ∧
      maxExtendedMpduData ≤ npdu ∧ maxExtendedMpduData ≤ QueueStorage.maxNpdu queues := by
  simp only [checkExtendedStorage, List.forM_eq_forM, List.forM_cons, List.forM_nil,
    MstpCoreConfig.check_bind_ok, decide_eq_true_eq] at h
  exact ⟨h.1, h.2.1, h.2.2.1, h.2.2.2.1⟩

variable {config : MstpCoreConfig}

theorem fromParts_ok {first : MasterCore Q npdu}
    (h : fromParts config queues rxStorage buffers now = .ok first) :
    Built config queues rxStorage buffers ∧ first = start config queues rxStorage buffers now := by
  unfold fromParts at h
  cases hvalid : config.validate with
  | error e => simp [hvalid, bind, Except.bind] at h
  | ok u =>
    have hbind : ∀ {α : Type} (f : Unit → Except ConfigError α),
        (Except.ok u >>= f : Except ConfigError α) = f () := fun f => rfl
    rw [hvalid, hbind, MstpCoreConfig.check_bind_ok] at h
    obtain ⟨hreceive, h⟩ := h
    have hconfig : config.Valid := MstpCoreConfig.validate_ok (by rw [hvalid])
    have hroom : minRxStorage ≤ rxStorage.length := by simpa using hreceive
    by_cases hextended : config.extendedFrames = true
    · rw [if_pos hextended] at h
      cases hstorage : checkExtendedStorage queues rxStorage buffers with
      | error e => simp [hstorage, bind, Except.bind] at h
      | ok v =>
        rw [hstorage] at h
        exact ⟨⟨hconfig, hroom, fun _ => checkExtendedStorage_ok hstorage⟩,
          (Except.ok.inj h).symm⟩
    · rw [if_neg hextended] at h
      refine ⟨⟨hconfig, hroom, fun he => absurd he hextended⟩, ?_⟩
      exact (Except.ok.inj h).symm

theorem start_sound (h : Built config queues rxStorage buffers) :
    (start config queues rxStorage buffers now).Sound := by
  have hfree : (start config queues rxStorage buffers now).station.Free := ⟨rfl, rfl, rfl⟩
  refine ⟨⟨?_, ?_, ?_, ?_, rfl⟩, h.valid, ?_⟩
  · exact .of_free rfl hfree rfl (show MasterState.idle ≠ .answerDataRequest by decide)
  · exact .of_none hfree.1 (Nat.le_refl _)
  · exact ⟨fun hs => absurd hs (by simp [start, station, MasterState.holds]),
      fun send hs => absurd (hfree.1.symm.trans hs) (by simp),
      fun tx htx => absurd (hfree.2.1.symm.trans htx) (by simp), fun _ => .inr (Nat.le_refl _),
      fun send hs => absurd (hfree.1.symm.trans hs) (by simp),
      fun send hs => absurd (hfree.1.symm.trans hs) (by simp),
      fun send hs => absurd (hfree.1.symm.trans hs) (by simp), trivial⟩
  · exact ⟨⟨none, rfl, rfl, fun _ => rfl⟩, rfl⟩
  · show config.longestFrame ≤ buffers.frame.length
    have hroom := buffers.room
    unfold MstpCoreConfig.longestFrame
    split_ifs with hextended
    · exact (h.extended hextended).2.1
    · refine le_trans ?_ hroom
      unfold frameRoom
      split_ifs with hlong
      · exact Nat.le_refl _
      · simp only [maxStandardFrameLength, maxStandardMpduData, preamble, headerLength,
          List.length_cons, List.length_nil] at hlong ⊢
        omega

theorem Reachable.sound (h : core.Reachable) : core.Sound := by
  obtain ⟨config, queues, rxStorage, buffers, now, first, calls, hparts, rfl⟩ := h
  obtain ⟨hbuilt, rfl⟩ := fromParts_ok hparts
  exact (start_sound hbuilt).run calls

end Calls

end MasterCore

end RustyBacnet.Mstp
