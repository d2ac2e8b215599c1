import RustyBacnet.Mstp.SendRefine

/-!
# A core is a station: using the token

1. `queuePollWith_leads`, `queueTokenWith_leads`: a station that holds the token may poll for a
   master, and pass the token on.
2. `dequeueLoopWith_leads`: it may send an information frame while its budget lasts; when the queues
   give none, nothing the laws see has changed.
3. `driveTokenWith_leads`, `useReceivedTokenWith_leads`: so it may use the token, to its end.
4. `enterIdle_leads`: it may go idle, and there take up a Token it remembered. The moves forget that
   Token before the answer it was kept for is settled, so that no station ever remembers one while
   it answers nothing.
-/

namespace RustyBacnet.Mstp

theorem MstpCoreConfig.frameLimit_le (c : MstpCoreConfig) : c.frameLimit ≤ 255 := by
  have h := c.maxInfoFrames.toNat_lt
  unfold MstpCoreConfig.frameLimit
  dsimp only
  split_ifs <;> omega

namespace Station

variable {s : Station} {send : PendingSend} {state : MasterState}

theorem moves_enter (hrequest : s.request = none) (hstate : state.holds = true) (htoken : s.HasToken)
    (hwithin : state.spends = true → s.send = none ∧ s.Within s.frameCount) :
    s.Moves (s.enter state) := by
  refine moves_next (.enter state) ⟨hrequest, ?_, ?_, fun _ => htoken, hwithin⟩
  · rintro rfl
    exact absurd hstate (by decide)
  · rintro rfl
    exact absurd hstate (by decide)

theorem made_request (s : Station) (send : PendingSend) (id : TransmitId) (now : Instant) :
    (s.made send id now).request = s.request := by
  unfold made
  split_ifs
  · rw [enter_request, forget_request]
    rfl
  · rfl
  · rfl

theorem made_hasToken (htoken : s.HasToken)
    (hlater : s.lastNow < send.limit ∨ maxInstant ≤ s.lastNow) (id : TransmitId) :
    (s.made send id s.lastNow).HasToken := by
  unfold made
  split_ifs with hdropped
  · refine .inr ?_
    rw [enter_lastNow, forget_lastNow]
    exact hlater.resolve_left (Nat.not_lt.mpr hdropped)
  · exact htoken
  · exact htoken

/-- A station that holds the token may make a frame of no information, and go on. -/
theorem made_enter_moves (hfree : s.Free) (hmakes : s.Makes send) (htoken : s.HasToken)
    (hpost : send.post.spends = false) (hstate : state.holds = true) (hspends : state.spends = false)
    (id : TransmitId) : s.Moves ((s.made send id s.lastNow).enter state) := by
  have hmade := made_moves hfree hmakes htoken
    (fun h => absurd (hpost.symm.trans h) (by simp)) id
  exact hmade.trans (moves_enter ((made_request _ _ _ _).trans hfree.2.2) hstate
    (made_hasToken htoken hmakes.later id) fun h => absurd (hspends.symm.trans h) (by simp))

end Station

namespace MasterCore

variable {Q : Type} {npdu : ℕ} {core core' : MasterCore Q npdu} {now : Instant}

/-- The core works at `now` and has no frame and no request. -/
structure AtWork (core : MasterCore Q npdu) (now : Instant) : Prop where
  sound : core.Sound
  free : core.station.Free
  now : core.station.lastNow = now

theorem AtWork.congr (h : core.AtWork now) (heq : core'.station = core.station) :
    core'.AtWork now :=
  ⟨h.sound.leads (.of_eq heq), heq ▸ h.free, heq ▸ h.now⟩

theorem AtWork.pendingToken (h : core.AtWork now) : core.pendingToken = false :=
  h.sound.station.ordered.token_of_free h.free

theorem AtWork.transmit (h : core.AtWork now) : core.actions.transmit = none :=
  h.sound.transmit_none h.free.2.1

/-- And it has the token. -/
structure Using (core : MasterCore Q npdu) (now : Instant) : Prop extends AtWork core now where
  token : core.station.HasToken

theorem Using.congr (h : core.Using now) (heq : core'.station = core.station) : core'.Using now :=
  ⟨h.toAtWork.congr heq, heq ▸ h.token⟩

theorem Using.setState (h : core.Using now) {state : MasterState} (hstate : state.holds = true)
    (hwithin : state.spends = true → core.station.Within core.frameCount) :
    core.Leads (core.setState state) ∧ (core.setState state).Using now := by
  have hleads : core.Leads (core.setState state) := by
    unfold Leads
    rw [station_setState]
    exact Station.moves_enter h.free.2.2 hstate h.token fun hs => ⟨h.free.1, hwithin hs⟩
  have hidle : state ≠ .idle := by
    rintro rfl
    exact absurd hstate (by decide)
  refine ⟨hleads, ⟨h.sound.leads hleads, ?_, ?_⟩, ?_⟩
  · simpa [Station.Free] using h.free
  · simpa using h.now
  · simpa [Station.HasToken, Station.enter_history _ hidle] using h.token

/-! ## Frames made with the token -/

theorem sendLimit_le {origin : Origin} (h : origin.isAnswer = false) (core : MasterCore Q npdu)
    (now : Instant) : core.sendLimit origin now ≤ maxInstant := by
  cases origin with
  | answer window => exact absurd h (by simp [Origin.isAnswer])
  | _ => exact satAdd_le_max _ _

theorem lt_satAdd_or {t d : ℕ} (h : 0 < d) : t < satAdd t d ∨ maxInstant ≤ t := by
  unfold satAdd
  omega

theorem sendLimit_later {origin : Origin} (hvalid : core.config.Valid) (h : origin.isAnswer = false)
    (now : Instant) : now < core.sendLimit origin now ∨ maxInstant ≤ now := by
  cases origin with
  | answer window => exact absurd h (by simp [Origin.isAnswer])
  | passToken => exact lt_satAdd_or (lt_of_lt_of_le (by decide) hvalid.usageTimeout.1)
  | _ => exact lt_satAdd_or (by decide)

theorem AtWork.makes (h : core.AtWork now) {frame : Frame} {post : PostTransmit} {origin : Origin}
    (hanswer : origin.isAnswer = false) (hpost : post ≠ .idle)
    (hinfo : isInfo frame origin = post.spends)
    (hpolls : origin = .nextPoll → core.state.spends = false) :
    core.station.Makes (core.waitingFrame frame post origin now) where
  earliest := rfl
  limit := sendLimit_le hanswer core now
  later := by
    rw [h.now]
    exact sendLimit_later h.sound.valid hanswer now
  answer := hanswer
  post := hpost
  info := hinfo
  polls := hpolls

section Open

variable {idle : MasterCore Q npdu → Instant → MasterCore Q npdu}

/-- Making a frame without data with the token, and going on in the state that goes with it. -/
theorem queueFrameWith_leads (hidle : Plain idle) (h : core.Using now) (frameType : FrameType) (hcobs : frameType.isCobs = false)
    (hproprietary : frameType.isProprietary = false) (hnpdu : carriesNpdu frameType = false)
    (destination : UInt8) (post : PostTransmit) (hidlePost : post ≠ .idle)
    (hpost : post.spends = false) {origin : Origin} (hanswer : origin.isAnswer = false)
    (hpolls : origin = .nextPoll → core.state.spends = false)
    (state : MasterState) (hstate : state.holds = true) (hspends : state.spends = false) :
    core.Leads ((queueFrameWith idle core frameType destination [] post origin now).setState
      state) := by
  have hsends := h.sound.valid.sends_standard hcobs hproprietary destination (Nat.zero_le _)
    (.inr rfl)
  have hinfo : isInfo (Frame.new frameType destination core.config.station []) origin
      = post.spends := by
    simp [isInfo, Frame.new, hnpdu, hpost]
  unfold Leads
  rw [station_setState, queueFrameWith_station hidle h.sound.room h.transmit h.free.1 h.free.2.1
    hsends (.inl h.pendingToken)]
  have hmakes := h.makes hanswer hidlePost hinfo hpolls
  have := Station.made_enter_moves h.free hmakes h.token hpost hstate hspends
    ⟨core.nextTransmitGeneration⟩
  rwa [h.now] at this

theorem queuePollWith_leads (hidle : Plain idle) (h : core.Using now) {origin : Origin} (hanswer : origin.isAnswer = false)
    (hpolls : origin = .nextPoll → core.state.spends = false) :
    core.Leads (queuePollWith idle core origin now) :=
  queueFrameWith_leads hidle h .pollForMaster (by decide) (by decide) (by decide)
    core.pollStation .pollForMaster (by decide) rfl hanswer hpolls .pollForMaster rfl rfl

theorem queueTokenWith_leads (hidle : Plain idle) (h : core.Using now) (destination : UInt8) {origin : Origin}
    (hanswer : origin.isAnswer = false) (hpolls : origin = .nextPoll → core.state.spends = false) :
    core.Leads (queueTokenWith idle core destination origin now) := by
  unfold queueTokenWith
  split_ifs
  · set polls : MasterCore Q npdu :=
      { core with pollStation := nextAddr core.config.station core.config.maxMaster }
    have hpolls' : polls.Using now := h.congr rfl
    exact Leads.trans (.of_eq rfl) (queuePollWith_leads hidle hpolls' hanswer hpolls)
  · have hpass := queueFrameWith_leads hidle h .token (by decide) (by decide) (by decide)
      destination .passToken (by decide) rfl hanswer hpolls .passToken rfl rfl
    generalize (queueFrameWith idle core .token destination [] .passToken origin now).setState
      .passToken = passed at hpass ⊢
    exact hpass.trans (.of_eq rfl)

/-! ## Information frames -/

theorem sends_dataFrame (hvalid : core.config.Valid) (expecting : Bool) (destination : UInt8)
    {data : List UInt8} (hdata : data.length ≤ core.config.maxNpdu) :
    core.config.Sends (Frame.new
      (dataFrameType expecting (decide (maxStandardMpduData < data.length))).1 destination
      core.config.station data) := by
  by_cases hlong : maxStandardMpduData < data.length
  · have hextended : core.config.extendedFrames = true ∧ data.length ≤ maxExtendedMpduData := by
      unfold MstpCoreConfig.maxNpdu at hdata
      split_ifs at hdata with hext
      · exact ⟨hext, hdata⟩
      · exact absurd hdata (Nat.not_le.mpr hlong)
    rw [decide_eq_true hlong]
    refine hvalid.sends_extended hextended.1 ?_ destination (by omega) hextended.2
    cases expecting <;> decide
  · rw [decide_eq_false hlong]
    refine hvalid.sends_standard ?_ ?_ destination (Nat.not_lt.mp hlong) (.inl ?_) <;>
      cases expecting <;> decide

theorem dataFrameType_spends (expecting extended : Bool) :
    carriesNpdu (dataFrameType expecting extended).1 = true ∧
      (dataFrameType expecting extended).2.spends = true := by
  revert expecting extended
  decide

/-- The budget of this token use has room for a frame. -/
def MayInform (core : MasterCore Q npdu) : Prop :=
  core.soleMaster = true ∨
    (core.station.Within core.frameCount ∧ core.frameCount < core.config.frameLimit)

/-- A frame counted before it is made. -/
theorem Using.count (h : core.Using now) (hmay : core.MayInform)
    (hcount : core'.station = core.station.next (.countFrames (increment8 core.frameCount))) :
    core.Leads core' ∧ core'.Using now ∧ (core'.soleMaster = true ∨
      (spent core'.history + 1 ≤ core'.frameCount ∧
        spent core'.history + 1 ≤ core'.config.frameLimit)) := by
  have hnone : core.station.sendSpends = false := Station.not_spends_of_none h.free.1
  have hbudget : core.soleMaster = true ∨ (spent core.history + 1 ≤ increment8 core.frameCount ∧
      spent core.history + 1 ≤ core.config.frameLimit) := by
    rcases hmay with hsole | ⟨hsole | hle, hlt⟩
    · exact .inl hsole
    · exact .inl hsole
    · rw [hnone] at hle
      have hle' : spent core.history + 0 ≤ core.frameCount := hle
      have := core.config.frameLimit_le
      unfold increment8
      exact .inr (by omega)
  have hleads : core.Leads core' := by
    refine Leads.of_move (.countFrames _) (fun _ => hbudget.imp_right fun hle => ?_) hcount
    rw [hnone]
    exact le_trans (Nat.le_succ _) hle.1
  refine ⟨hleads, ⟨⟨h.sound.leads hleads, ?_, ?_⟩, ?_⟩, ?_⟩
  · rw [hcount]
    exact h.free
  · rw [hcount]
    exact h.now
  · rw [hcount]
    exact h.token
  · have : core'.station.soleMaster = true ∨
        (spent core'.station.history + 1 ≤ core'.station.frameCount ∧
          spent core'.station.history + 1 ≤ core'.station.config.frameLimit) := by
      rw [hcount]
      exact hbudget
    exact this

theorem sendInfo_leads (hidle : Plain idle) (h : core.Using now)
    (hbudget : core.soleMaster = true ∨ (spent core.history + 1 ≤ core.frameCount ∧
      spent core.history + 1 ≤ core.config.frameLimit))
    {frame : Frame} (hsends : core.config.Sends frame)
    (hnpdu : carriesNpdu frame.header.frameType = true) {post : PostTransmit}
    (hpost : post.spends = true) :
    core.Leads (sendEncodedWith idle (core.withFrame frame) frame post .holder now) := by
  have hmakes := @AtWork.makes Q npdu core now h.toAtWork frame post .holder rfl
    (by rintro rfl; exact absurd hpost (by decide)) (by simp [isInfo, hnpdu, hpost]) (by simp)
  unfold Leads
  rw [sendWithFrame_station hidle h.sound.room h.transmit h.free.1 h.free.2.1 hsends
    (.inl h.pendingToken)]
  have := Station.made_moves h.free hmakes h.token (fun _ => hbudget) ⟨core.nextTransmitGeneration⟩
  rwa [h.now] at this

/-- Sending the next NPDU leads on; when there is none, the laws see no change. -/
theorem dequeueLoopWith_leads [QueueStorage Q] (hidle : Plain idle) (attempts : ℕ)
    (h : core.Using now) (hmay : core.MayInform) :
    core.Leads (dequeueLoopWith idle now attempts core).2 ∧
      ((dequeueLoopWith idle now attempts core).1 = false →
        (dequeueLoopWith idle now attempts core).2.station = core.station) := by
  induction attempts generalizing core with
  | zero => exact ⟨.refl _, fun _ => rfl⟩
  | succ attempts ih =>
    have hagain : ∀ core' : MasterCore Q npdu, core'.station = core.station →
        core.Leads (dequeueLoopWith idle now attempts core').2 ∧
          ((dequeueLoopWith idle now attempts core').1 = false →
            (dequeueLoopWith idle now attempts core').2.station = core.station) := by
      intro core' heq
      have hmay' : core'.MayInform := by
        show core'.station.soleMaster = true ∨ (core'.station.Within core'.station.frameCount ∧
          core'.station.frameCount < core'.station.config.frameLimit)
        rw [heq]
        exact hmay
      obtain ⟨hleads, hfalse⟩ := ih (h.congr heq) hmay'
      exact ⟨.trans (.of_eq heq) hleads, fun hf => (hfalse hf).trans heq⟩
    unfold dequeueLoopWith
    cases hkind : core.nextQueueKind now with
    | none => exact ⟨.refl _, fun _ => rfl⟩
    | some kind =>
      dsimp only
      rcases QueueStorage.dequeueKind core.queues kind now npdu with ⟨_ | _ | item, queues⟩
      · exact hagain _ rfl
      · exact ⟨.of_eq rfl, fun _ => rfl⟩
      · dsimp only
        by_cases hlong : npdu < item.npdu.length ∨ core.config.maxNpdu < item.npdu.length
        · rw [if_pos hlong]
          exact hagain _ (by cases kind <;> rfl)
        · rw [if_neg hlong]
          generalize decide (kind = QueueKind.unicast ∧ 2 ≤ item.npdu.length ∧
            item.npdu.getD 1 0 &&& 0x04 ≠ 0) = expecting
          obtain ⟨hleads, hwork, hbudget⟩ := h.count hmay
            (show ({ core with queues := queues }.counted kind).station = _ from rfl)
          generalize ({ core with queues := queues } : MasterCore Q npdu).counted kind = counted
            at hleads hwork hbudget ⊢
          have hsends := sends_dataFrame hwork.sound.valid expecting item.destination
            (Nat.not_lt.mp fun hlt => hlong (.inr (hleads.config ▸ hlt)))
          obtain ⟨hnpdu, hpost⟩ := dataFrameType_spends expecting
            (decide (maxStandardMpduData < item.npdu.length))
          rw [encode_ok hwork.sound.room hwork.transmit hsends]
          have hsent := sendInfo_leads hidle hwork hbudget hsends hnpdu hpost
          dsimp only
          exact ⟨hleads.trans hsent, fun hf => absurd hf (by simp)⟩

theorem dequeueAndSendWith_leads [QueueStorage Q] (hidle : Plain idle) (h : core.Using now) (hmay : core.MayInform) :
    core.Leads (dequeueAndSendWith idle core now).2 ∧
      ((dequeueAndSendWith idle core now).1 = false →
        (dequeueAndSendWith idle core now).2.station = core.station) := by
  set expired : MasterCore Q npdu := { core with queues := (QueueStorage.expire core.queues now).2 }
  have hexpired : expired.Using now := h.congr rfl
  obtain ⟨hleads, hfalse⟩ := dequeueLoopWith_leads hidle
    (QueueStorage.totalDepth expired.queues + 1) hexpired hmay
  exact ⟨.trans (.of_eq rfl) hleads, hfalse⟩

/-! ## The use of a token -/

theorem doneWithTokenLoopWith_leads [QueueStorage Q] (hidle : Plain idle) (rounds : ℕ)
    (h : core.Using now) : core.Leads (doneWithTokenLoopWith idle now rounds core) := by
  induction rounds generalizing core with
  | zero => exact .refl _
  | succ rounds ih =>
    have hpoll : ∀ core' : MasterCore Q npdu, core'.station = core.station →
        core.Leads (queuePollWith idle core' .holder now) := fun core' heq =>
      .trans (.of_eq heq) (queuePollWith_leads hidle (h.congr heq) rfl (by simp))
    have hpass : ∀ (core' : MasterCore Q npdu) (destination : UInt8), core'.station = core.station →
        core.Leads (queueTokenWith idle core' destination .holder now) :=
      fun core' destination heq => .trans (.of_eq heq)
        (queueTokenWith_leads hidle (h.congr heq) destination rfl (by simp))
    unfold doneWithTokenLoopWith
    dsimp only
    split_ifs with _ _ hsole
    · exact hpoll _ rfl
    · -- A sole master counts its frames afresh, and goes round again when it has none.
      set counted : MasterCore Q npdu :=
        { core with tokenCount := increment8 core.tokenCount, frameCount := 0 }
      have hcount : core.Leads counted := .of_move (.countFrames 0) (fun _ => .inl hsole) rfl
      have hwork : counted.Using now := ⟨⟨h.sound.leads hcount, h.free, h.now⟩, h.token⟩
      obtain ⟨huse, hused⟩ := @Using.setState Q npdu counted now hwork .useToken rfl
        fun _ => .inl hsole
      have hmay : (counted.setState .useToken).MayInform := by
        refine .inl ?_
        have : (counted.setState .useToken).station.soleMaster = counted.station.soleMaster := by
          simp
        exact this.trans hsole
      obtain ⟨hsent, hnone⟩ := dequeueAndSendWith_leads hidle hused hmay
      rcases hdequeue : dequeueAndSendWith idle (counted.setState .useToken) now with ⟨_ | _, after⟩
      · rw [hdequeue] at hnone
        exact ((hcount.trans huse).trans (.of_eq (hnone rfl))).trans (ih (hused.congr (hnone rfl)))
      · rw [hdequeue] at hsent
        exact (hcount.trans huse).trans hsent
    · exact hpass _ _ rfl
    · exact hpoll _ rfl
    · exact hpass _ _ rfl
    · exact hpoll _ rfl

theorem driveTokenWith_leads [QueueStorage Q] (hidle : Plain idle) (h : core.AtWork now)
    (hstate : core.state.spends = true) : core.Leads (driveTokenWith idle core now) := by
  have hlicensed := h.sound.station.licensed
  have hwithin : core.station.Within core.frameCount :=
    hlicensed.spends (by simp [Station.spending, station, hstate])
  have husing : core.Using now := ⟨h, hlicensed.state (MasterState.holds_of_spends hstate)⟩
  have hdone : ∀ core' : MasterCore Q npdu, core'.station = core.station →
      core.Leads (doneWithTokenWith idle (core'.setState .doneWithToken) now) := by
    intro core' heq
    have hwithin' : core'.station.Within core'.frameCount := by
      show core'.station.Within core'.station.frameCount
      rw [heq]
      exact hwithin
    obtain ⟨hleads, hnext⟩ := @Using.setState Q npdu core' now (husing.congr heq) .doneWithToken rfl
      fun _ => hwithin'
    exact (Leads.trans (.of_eq heq) hleads).trans (doneWithTokenLoopWith_leads hidle _ hnext)
  unfold driveTokenWith
  split_ifs with hbusy hbudget
  · exact .refl _
  · obtain ⟨hsent, hnone⟩ := dequeueAndSendWith_leads hidle husing (.inr ⟨hwithin, hbudget⟩)
    rcases hdequeue : dequeueAndSendWith idle core now with ⟨_ | _, after⟩
    · rw [hdequeue] at hnone
      exact hdone after (hnone rfl)
    · rw [hdequeue] at hsent
      exact hsent
  · exact hdone core rfl

theorem useReceivedTokenWith_leads [QueueStorage Q] (hidle : Plain idle) (h : core.AtWork now) :
    core.Leads (useReceivedTokenWith idle core now) := by
  set taken : MasterCore Q npdu := { core.record .tokenTaken with
    soleMaster := false, frameCount := 0, retryTokenCount := 0 } with htaken
  have htake : core.Leads taken := .of_move .takeToken ⟨h.free.1, h.free.2.1⟩ rfl
  have husing : taken.Using now := ⟨⟨h.sound.leads htake, h.free, h.now⟩, .inl rfl⟩
  have hwithin : taken.station.Within taken.frameCount := by
    refine .inr ?_
    rw [Station.not_spends_of_none husing.free.1]
    exact Nat.le_refl _
  obtain ⟨huse, hused⟩ := @Using.setState Q npdu taken now husing .useToken rfl fun _ => hwithin
  refine (htake.trans huse).trans (driveTokenWith_leads hidle hused.toAtWork ?_)
  rw [setState_state]
  rfl

theorem takePendingTokenWith_leads [QueueStorage Q] (hidle : Plain idle) {start : MasterCore Q npdu}
    (hstart : start.Sound) (hmoves : start.station.Moves (core.station.next .clearToken))
    (hfree : core.station.Free) (hnow : core.lastNow = now) :
    start.Leads (takePendingTokenWith idle core now) := by
  unfold takePendingTokenWith
  split_ifs with htoken
  · set cleared : MasterCore Q npdu := { core with pendingToken := false }
    have hleads : start.Leads cleared := hmoves
    have hwork : cleared.AtWork now := ⟨hstart.leads hleads, hfree, hnow⟩
    exact hleads.trans (useReceivedTokenWith_leads hidle hwork)
  · have hnone : core.station.pendingToken = false := Bool.eq_false_iff.mpr htoken
    have hsame : core.station.next .clearToken = core.station := by
      rw [Station.next, ← hnone]
    rw [hsame] at hmoves
    exact hmoves

end Open

/-! ## Going idle -/

theorem goIdle_pendingToken (core : MasterCore Q npdu) :
    core.goIdle.pendingToken = core.pendingToken := by
  unfold goIdle wakeAt setState record
  split_ifs <;> rfl

theorem plain_enterIdleRounds [QueueStorage Q] (rounds : ℕ) :
    Plain (enterIdleRounds rounds : MasterCore Q npdu → Instant → MasterCore Q npdu) := by
  intro core now htoken
  cases rounds with
  | zero => rfl
  | succ rounds =>
    rw [enterIdleRounds, takePendingTokenWith, goIdle_pendingToken, htoken]
    rfl

section Idle

variable [QueueStorage Q]

theorem plain_enterIdle : Plain (enterIdle : MasterCore Q npdu → Instant → MasterCore Q npdu) :=
  plain_enterIdleRounds 2

theorem enterIdle_leads {start : MasterCore Q npdu} (hstart : start.Sound)
    (hmoves : start.station.Moves ((core.station.enter .idle).next .clearToken))
    (hfree : core.station.Free) (hnow : core.lastNow = now) : start.Leads (core.enterIdle now) := by
  refine takePendingTokenWith_leads (plain_enterIdleRounds 1) hstart ?_ ?_ ?_
  · rwa [station_goIdle]
  · simpa [Station.Free] using hfree
  · show core.goIdle.station.lastNow = now
    rw [station_goIdle, Station.enter_lastNow]
    exact hnow

end Idle

end MasterCore

namespace Station

variable {s : Station} {state : MasterState}

theorem enter_clearToken (s : Station) (state : MasterState) :
    (s.enter state).next .clearToken = (s.next .clearToken).enter state := by
  unfold enter Station.next
  split_ifs <;> rfl

theorem forget_clearToken (s : Station) :
    s.forget.next .clearToken = (s.next .clearToken).forget := by
  unfold forget Station.next
  split_ifs <;> rfl

theorem Ordered.withdraw_moves (h : s.Ordered) (hsend : s.send.isSome = true) :
    s.Moves (s.next .withdraw) := by
  cases hactive : s.active with
  | none =>
    have hsame : s.next .withdraw = s := by
      rw [Station.next, ← hactive, ← h.queued_none hactive]
    rw [hsame]
    exact Relation.ReflTransGen.refl
  | some tx =>
    refine moves_next .withdraw ⟨tx, hactive, Bool.eq_false_iff.mpr fun hstarted => ?_⟩
    rw [h.started tx hactive hstarted] at hsend
    exact absurd hsend (by simp)

theorem moves_forget (hsend : s.send.isSome = true) (hactive : s.active = none)
    (hanswer : s.send.any (·.origin.isAnswer) = false) : s.Moves s.forget := by
  have hmove := moves_next .giveUp
    (show s.Enabled .giveUp from ⟨hsend, hactive, fun h => absurd (hanswer.symm.trans h) (by simp)⟩)
  rwa [Station.next, hanswer, if_neg (by simp)] at hmove

theorem moves_forget_idle (hsend : s.send.isSome = true) (hactive : s.active = none)
    (hrequest : s.request = none) (htoken : s.pendingToken = false) :
    s.Moves (s.forget.enter .idle) := by
  cases hanswer : s.send.any (·.origin.isAnswer) with
  | true =>
    have hmove := moves_next .giveUp
      (show s.Enabled .giveUp from ⟨hsend, hactive, fun _ => htoken⟩)
    rwa [Station.next, hanswer, if_pos rfl] at hmove
  | false =>
    refine (moves_forget hsend hactive hanswer).trans (moves_enter_idle ⟨?_, ?_, ?_⟩)
    · exact forget_send s
    · rw [forget_active, hactive]
    · rw [forget_request, hrequest]

/-- A waiting frame may be dropped on the way to IDLE, with the remembered Token forgotten. -/
theorem Sound.drop_moves (h : s.Sound) (hsend : s.send.isSome = true) :
    s.Moves (((s.next .withdraw).forget.enter .idle).next .clearToken) := by
  have hcleared : s.Moves (s.next .clearToken) := moves_next .clearToken trivial
  have hwithdrawn := (h.moves hcleared).ordered.withdraw_moves hsend
  rw [enter_clearToken, forget_clearToken]
  refine (hcleared.trans hwithdrawn).trans (moves_forget_idle hsend rfl ?_ rfl)
  exact h.ordered.request_none (.inl hsend)

end Station

namespace MasterCore

variable {Q : Type} {npdu : ℕ} {core core' : MasterCore Q npdu} {now : Instant}

theorem station_withdrawTransmit (h : core.station.Ordered) {tx : ActiveTransmit}
    (hactive : core.activeTransmit = some tx) :
    (core.withdrawTransmit tx.id).station = core.station.next .withdraw := by
  have hpurged : (core.actions.purgeTransmit tx.id) = { core.actions with transmit := none } := by
    unfold ActionQueue.purgeTransmit ActionQueue.transmitQueued
    cases hqueued : core.actions.transmit with
    | none =>
      rw [Option.any_none, if_neg (by simp), ← hqueued]
    | some queued =>
      obtain ⟨tx', htx', -, hid⟩ := h.queued queued.id (by simp [station, hqueued])
      obtain rfl := Option.some.inj (hactive.symm.trans htx')
      rw [Option.any_some, hid, decide_eq_true rfl, if_pos rfl]
  unfold withdrawTransmit
  rw [hpurged]
  simp [station, Station.next, ActionQueue.queueReceive, ActionQueue.debugAssert,
    ActionQueue.encoded]

theorem discardPending_none (h : core.activeTransmit = none) :
    core.discardPending = core.forgetPending := by
  unfold discardPending
  rw [h]

theorem discardPending_some {tx : ActiveTransmit} (h : core.activeTransmit = some tx)
    (hunstarted : tx.started = false) :
    core.discardPending = (core.withdrawTransmit tx.id).forgetPending := by
  unfold discardPending
  rw [h]
  dsimp only
  rw [hunstarted, if_neg (by simp)]

theorem station_discardPending (h : core.station.Ordered) (hsend : core.pendingSend.isSome = true) :
    core.discardPending.station = (core.station.next .withdraw).forget := by
  cases hactive : core.activeTransmit with
  | none =>
    have hsame : core.station.next .withdraw = core.station := by
      have hnone : core.station.active = none := hactive
      rw [Station.next, ← hnone, ← h.queued_none hnone]
    rw [hsame, discardPending_none hactive]
    exact station_forgetPending core hsend
  | some tx =>
    have hunstarted : tx.started = false := by
      refine Bool.eq_false_iff.mpr fun hstarted => ?_
      have hnone : core.pendingSend = none := h.started tx hactive hstarted
      rw [hnone] at hsend
      exact absurd hsend (by simp)
    rw [discardPending_some hactive hunstarted, ← station_withdrawTransmit h hactive]
    exact station_forgetPending _ hsend

/-- A frame that answers nothing may be given up, and nothing else goes with it. -/
theorem discardPending_leads (h : core.Sound) {pending : PendingSend}
    (hsend : core.pendingSend = some pending) (hanswer : pending.origin.isAnswer = false) :
    core.Leads core.discardPending ∧ core.discardPending.station
      = { core.station with send := none, active := none, queued := none } := by
  have hwaits : core.station.send = some pending := hsend
  have hsome : core.station.send.isSome = true := by
    rw [hwaits]
    rfl
  have hnot : (core.station.next .withdraw).send.any (·.origin.isAnswer) = false := by
    show core.station.send.any _ = false
    rw [hwaits]
    exact hanswer
  unfold Leads
  rw [station_discardPending h.station.ordered hsome]
  refine ⟨(h.station.ordered.withdraw_moves hsome).trans (Station.moves_forget hsome rfl hnot), ?_⟩
  rw [Station.forget_of_not _ hnot]
  rfl

theorem Sound.pendingToken (h : core.Sound) {pending : PendingSend}
    (hsend : core.pendingSend = some pending) (hanswer : pending.origin.isAnswer = false) :
    core.pendingToken = false := by
  have hwaits : core.station.send = some pending := hsend
  have horder := h.station.ordered
  have hrequest := horder.request_none (.inl (by rw [hwaits]; rfl))
  refine Bool.eq_false_iff.mpr fun htoken => ?_
  have hanswering := horder.token htoken
  simp only [Station.answering, hrequest, hwaits, Option.isSome_none, Option.any_some, hanswer,
    Bool.false_or] at hanswering
  obtain ⟨tx, hactive, hstarted⟩ := (Option.any_eq_true _ _).mp hanswering
  rw [Bool.and_eq_true] at hstarted
  exact absurd (hwaits.symm.trans (horder.started tx hactive hstarted.1)) (by simp)

theorem dropPending_plain [QueueStorage Q] (h : core.Sound) {pending : PendingSend}
    (hsend : core.pendingSend = some pending) (hanswer : pending.origin.isAnswer = false) :
    core.dropPending now = core.discardPending.goIdle := by
  refine plain_enterIdle _ now ?_
  show core.discardPending.station.pendingToken = false
  rw [(discardPending_leads h hsend hanswer).2]
  exact h.pendingToken hsend hanswer

theorem dropPending_leads [QueueStorage Q] (h : core.Sound) (hsend : core.pendingSend.isSome = true)
    (hnow : core.lastNow = now) : core.Leads (core.dropPending now) := by
  have horder := h.station.ordered
  have hdiscard := station_discardPending horder hsend
  refine enterIdle_leads h ?_ ?_ ?_
  · rw [hdiscard]
    exact h.station.drop_moves hsend
  · rw [hdiscard]
    refine ⟨by simp, by rw [Station.forget_active]; rfl, ?_⟩
    rw [Station.forget_request]
    exact horder.request_none (.inl hsend)
  · show core.discardPending.station.lastNow = now
    rw [hdiscard, Station.forget_lastNow]
    exact hnow

/-! ## Timeouts and answers to polls -/

theorem AtWork.using (h : core.AtWork now) (hstate : core.state.holds = true) : core.Using now :=
  ⟨h, h.sound.station.licensed.state hstate⟩

theorem station_generated (core : MasterCore Q npdu) (start : Instant) :
    (core.generated start).station = core.station.next .generateToken := by
  unfold generated
  generalize hcount : (if start ≠ core.firstSlot then
    core.mapCounters .recordMissedGenerationSlot else core) = counted
  have hcounted : counted.station = core.station := by
    rw [← hcount]
    split_ifs
    · exact station_mapCounters core rfl rfl
    · rfl
  rw [Station.next, ← hcounted, ← station_mapCounters counted (f := .recordTokenRegeneration) rfl rfl]
  rfl

section Timeouts

variable [QueueStorage Q]

theorem queuePoll_leads (h : core.Using now) {polls : MasterCore Q npdu}
    (heq : polls.station = core.station) {origin : Origin} (hanswer : origin.isAnswer = false)
    (hpolls : origin = .nextPoll → core.state.spends = false) :
    core.Leads (polls.queuePoll origin now) := by
  have hstate : polls.state = core.state := congrArg Station.state heq
  exact .trans (.of_eq heq)
    (queuePollWith_leads plain_enterIdle (h.congr heq) hanswer (hstate ▸ hpolls))

theorem queueToken_leads (h : core.Using now) {passes : MasterCore Q npdu}
    (heq : passes.station = core.station) (destination : UInt8) {origin : Origin}
    (hanswer : origin.isAnswer = false) (hpolls : origin = .nextPoll → core.state.spends = false) :
    core.Leads (passes.queueToken destination origin now) := by
  have hstate : passes.state = core.state := congrArg Station.state heq
  exact .trans (.of_eq heq)
    (queueTokenWith_leads plain_enterIdle (h.congr heq) destination hanswer (hstate ▸ hpolls))

theorem generateTokenIfInSlot_leads (h : core.AtWork now) :
    core.Leads (core.generateTokenIfInSlot now) := by
  unfold generateTokenIfInSlot
  dsimp only
  split_ifs
  · exact .of_eq rfl
  · generalize hholder : core.generated (core.generationSlot now) = holder
    have hstation : holder.station = core.station.next .generateToken := by
      rw [← hholder, station_generated]
    have hleads : core.Leads holder := .of_move .generateToken trivial hstation
    have husing : holder.Using now := by
      refine ⟨⟨h.sound.leads hleads, ?_, ?_⟩, ?_⟩
      · rw [hstation]
        exact h.free
      · rw [hstation]
        exact h.now
      · rw [hstation]
        exact .inl rfl
    exact hleads.trans (queuePoll_leads husing rfl rfl (by simp))

theorem enterNoToken_leads (h : core.AtWork now) : core.Leads (core.enterNoToken now) := by
  set silent : MasterCore Q npdu :=
    { core.setState .noToken with retryTokenCount := 0, eventCount := 0 }
  have hstation : silent.station = core.station.enter .noToken := station_setState core .noToken
  have hleads : core.Leads silent := by
    unfold Leads
    rw [hstation]
    exact Station.moves_next (.enter .noToken) ⟨h.free.2.2, by decide, by simp,
      by simp [MasterState.holds], by simp [MasterState.spends]⟩
  have hwork : silent.AtWork now := by
    refine ⟨h.sound.leads hleads, ?_, ?_⟩
    · rw [hstation]
      simpa [Station.Free] using h.free
    · rw [hstation, Station.enter_lastNow]
      exact h.now
  exact hleads.trans (generateTokenIfInSlot_leads hwork)

theorem passTokenTimeout_leads (h : core.AtWork now) (hstate : core.state = .passToken) :
    core.Leads (core.passTokenTimeout now) := by
  have husing := h.using (by rw [hstate]; rfl)
  unfold passTokenTimeout
  by_cases hused : nMinOctets < core.eventCount
  · rw [if_pos hused]
    unfold Leads
    rw [station_wakeAt, station_setState]
    exact Station.moves_enter_idle h.free
  rw [if_neg hused]
  by_cases hretry : core.retryTokenCount < nRetryToken
  · rw [if_pos hretry]
    exact queueToken_leads husing (by rfl) _ rfl (by simp)
  · rw [if_neg hretry]
    exact queuePoll_leads husing (by rfl) rfl (by simp)

theorem pollTimeout_leads (h : core.AtWork now) (hstate : core.state = .pollForMaster) :
    core.Leads (core.pollTimeout now) := by
  have husing := h.using (by rw [hstate]; rfl)
  have hspends : core.state.spends = false := by
    rw [hstate]
    rfl
  have hdrive : ∀ sole : MasterCore Q npdu,
      sole.station = (core.station.next (.setSole true)).next (.countFrames 0) →
      core.Leads ((sole.setState .useToken).driveToken now) := by
    intro sole heq
    have hmoves : core.Leads sole := by
      unfold Leads
      rw [heq]
      exact (Station.moves_next (.setSole true) (.inl rfl)).trans
        (Station.moves_next (.countFrames 0) fun _ => .inl rfl)
    have hwork : sole.Using now := by
      refine ⟨⟨h.sound.leads hmoves, ?_, ?_⟩, ?_⟩
      · rw [heq]
        exact h.free
      · rw [heq]
        exact h.now
      · rw [heq]
        exact husing.token
    have hwithin : sole.station.Within sole.frameCount := by
      rw [heq]
      exact .inl rfl
    obtain ⟨huse, hused⟩ := @Using.setState Q npdu sole now hwork .useToken rfl fun _ => hwithin
    refine (hmoves.trans huse).trans (driveTokenWith_leads plain_enterIdle hused.toAtWork ?_)
    rw [setState_state]
    rfl
  unfold pollTimeout
  by_cases hsole : core.soleMaster = true
  · rw [if_pos hsole]
    refine hdrive { core with frameCount := 0 } ?_
    simp only [station, Station.next, hsole]
  rw [if_neg hsole]
  by_cases hnext : core.nextStation ≠ core.config.station
  · rw [if_pos hnext]
    exact queueToken_leads husing (by rfl) _ rfl (by simp)
  rw [if_neg hnext]
  by_cases hround : nextAddr core.pollStation core.config.maxMaster = core.config.station
  · rw [if_pos hround]
    exact hdrive { core with soleMaster := true, frameCount := 0 } rfl
  · rw [if_neg hround]
    exact queuePoll_leads husing (by rfl) rfl fun _ => hspends

/-- A core that has the token but no information frame to follow may give it to another. -/
theorem takeSuccessor_leads (h : core.Using now) (hstate : core.state.spends = false)
    (source : UInt8) : core.Leads (core.takeSuccessor source now) := by
  set successor : MasterCore Q npdu :=
    { core with
      nextStation := source
      pollStation := core.config.station
      tokenCount := 0
      retryTokenCount := 0
      soleMaster := false }
  have hspending : core.station.spending = false := by
    have hsend : core.station.send = none := h.free.1
    have hactive : core.station.active = none := h.free.2.1
    simp [Station.spending, Station.not_spends_of_none hsend, hactive,
      show core.station.state.spends = false from hstate]
  have hleads : core.Leads successor := .of_move (.setSole false) (.inr hspending) rfl
  have husing : successor.Using now := ⟨⟨h.sound.leads hleads, h.free, h.now⟩, h.token⟩
  exact hleads.trans (queueToken_leads husing (by rfl) source rfl (by simp))

theorem AtWork.resume (h : core.AtWork now) (hspends : core.state.spends = true)
    {state : MasterState} (hstate : state.spends = true) :
    core.Leads ((core.setState state).driveToken now) := by
  have hwithin : core.station.Within core.frameCount :=
    h.sound.station.licensed.spends (by simp [Station.spending, station, hspends])
  obtain ⟨hleads, hnext⟩ := (h.using (MasterState.holds_of_spends hspends)).setState
    (MasterState.holds_of_spends hstate) fun _ => hwithin
  refine hleads.trans (driveTokenWith_leads plain_enterIdle hnext.toAtWork ?_)
  rwa [setState_state]

end Timeouts

end MasterCore

end RustyBacnet.Mstp
