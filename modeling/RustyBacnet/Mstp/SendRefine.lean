import RustyBacnet.Mstp.StationLaws

/-!
# A core is a station: making frames

`MasterCore.station` forgets what the laws are not about, and `MasterCore.Leads` says that a core
came to another by moves of its station. `MasterCore.Sound` is what every core keeps: the laws of
its station, a valid configuration, and a frame buffer with room for the longest frame.

1. `encode_ok`: a frame the core builds passes the encoder's checks and fits.
2. `queueFrame_station`: making a frame leads to the station `made`, where the frame waits, is
   handed over, or was dropped at once.
3. `made_moves`: that is a move of a station that holds the token.
-/

namespace RustyBacnet.Mstp

/-- The wire length of the longest frame a station sends. -/
def MstpCoreConfig.longestFrame (c : MstpCoreConfig) : ℕ :=
  if c.extendedFrames then maxExtendedFrameLength else maxStandardFrameLength

namespace MasterCore

variable {Q : Type} {npdu : ℕ}

def station (core : MasterCore Q npdu) : Station where
  config := core.config
  state := core.state
  frameCount := core.frameCount
  soleMaster := core.soleMaster
  pendingToken := core.pendingToken
  request := core.pendingRequest
  send := core.pendingSend
  active := core.activeTransmit
  queued := core.actions.transmit.map (·.id)
  octets := core.actions.encoded
  room := core.actions.frame.length
  lastActivity := core.lastActivity
  lastNow := core.lastNow
  expiredRequests := core.counters.expiredRequests
  history := core.history
  faulty := core.tripped || core.actions.tripped || core.counters.internalErrors != 0

/-- What every core keeps. -/
structure Sound (core : MasterCore Q npdu) : Prop where
  station : core.station.Sound
  valid : core.config.Valid
  room : core.config.longestFrame ≤ core.actions.frame.length

/-- The core came to the other by moves. -/
def Leads (core core' : MasterCore Q npdu) : Prop := core.station.Moves core'.station

variable {core core' core'' : MasterCore Q npdu}

theorem Leads.refl (core : MasterCore Q npdu) : core.Leads core := Relation.ReflTransGen.refl

theorem Leads.trans (h : core.Leads core') (h' : core'.Leads core'') : core.Leads core'' :=
  Relation.ReflTransGen.trans h h'

theorem Leads.of_eq (h : core'.station = core.station) : core.Leads core' := by
  unfold Leads
  rw [h]
  exact Relation.ReflTransGen.refl

theorem Leads.of_move (move : Move) (henabled : core.station.Enabled move)
    (h : core'.station = core.station.next move) : core.Leads core' :=
  Relation.ReflTransGen.single ⟨move, henabled, h⟩

theorem Leads.config (h : core.Leads core') : core'.config = core.config :=
  (Station.Moves.fixed h).1

theorem Leads.lastNow (h : core.Leads core') : core'.lastNow = core.lastNow :=
  (Station.Moves.fixed h).2.2

/-- A sound station makes a sound core, on the same configuration and frame buffer. -/
theorem Sound.of_station (h : core.Sound) (hstation : core'.station.Sound)
    (hconfig : core'.config = core.config)
    (hroom : core'.actions.frame.length = core.actions.frame.length) : core'.Sound where
  station := hstation
  valid := hconfig ▸ h.valid
  room := by
    rw [hconfig, hroom]
    exact h.room

theorem Sound.leads (h : core.Sound) (hleads : core.Leads core') : core'.Sound :=
  h.of_station (h.station.moves hleads) hleads.config (Station.Moves.fixed hleads).2.1

@[simp] theorem station_wakeAt (core : MasterCore Q npdu) (deadline : Instant) :
    (core.wakeAt deadline).station = core.station := rfl

theorem station_mapCounters (core : MasterCore Q npdu) {f : MstpCounters → MstpCounters}
    (hexpired : (f core.counters).expiredRequests = core.counters.expiredRequests)
    (hinternal : (f core.counters).internalErrors = core.counters.internalErrors) :
    (core.mapCounters f).station = core.station := by
  simp only [station, mapCounters, hexpired, hinternal]

@[simp] theorem station_setState (core : MasterCore Q npdu) (state : MasterState) :
    (core.setState state).station = core.station.enter state := by
  unfold setState Station.enter
  split_ifs <;> first | rfl | contradiction

@[simp] theorem setState_state (core : MasterCore Q npdu) (state : MasterState) :
    (core.setState state).state = state := by
  show (core.setState state).station.state = state
  simp

@[simp] theorem station_goIdle (core : MasterCore Q npdu) :
    core.goIdle.station = core.station.enter .idle := by
  rw [goIdle, station_wakeAt, station_setState]

/-! ## Encoding -/

/-- The core with a frame's encoding in its frame buffer. -/
def withFrame (core : MasterCore Q npdu) (frame : Frame) : MasterCore Q npdu :=
  { core with actions := { core.actions with
      frame := frame.encoding ++ core.actions.frame.drop frame.encoding.length
      frameLength := frame.encoding.length } }

end MasterCore

/-- The frame passes the encoder's checks and is no longer than this station sends. -/
structure MstpCoreConfig.Sends (c : MstpCoreConfig) (frame : Frame) : Prop where
  checks : frame.checkedLength = .ok frame.lengthField
  fits : wireLength frame.lengthField ≤ c.longestFrame

variable {c : MstpCoreConfig}

theorem MstpCoreConfig.Valid.station_ne (h : c.Valid) : c.station ≠ broadcastMac := by
  have hle := UInt8.le_trans h.station h.maxMaster
  intro heq
  rw [heq] at hle
  exact absurd hle (by decide)

theorem standard_le_longestFrame (c : MstpCoreConfig) :
    maxStandardFrameLength ≤ c.longestFrame := by
  unfold MstpCoreConfig.longestFrame
  split_ifs <;> decide

variable {frameType : FrameType} {data : List UInt8}

theorem MstpCoreConfig.Valid.sends_standard (h : c.Valid) (hcobs : frameType.isCobs = false)
    (hproprietary : frameType.isProprietary = false) (destination : UInt8)
    (hdata : data.length ≤ maxStandardMpduData) (hallows : frameType.allowsData = true ∨ data = [])
    : c.Sends (Frame.new frameType destination c.station data) := by
  have hlength : (Frame.new frameType destination c.station data).lengthField = data.length := by
    simp [Frame.lengthField, Frame.new, hcobs]
  refine ⟨Frame.checkedLength_ok ?_ ?_ hproprietary, ?_⟩
  · rw [hlength, Frame.checkHeaderFields_ok]
    exact ⟨h.station_ne, by simpa [Frame.new, hcobs] using hdata⟩
  · rw [hlength]
    exact hallows.imp_right fun hnil => by rw [hnil]; rfl
  · rw [hlength]
    refine le_trans ?_ (standard_le_longestFrame c)
    unfold wireLength
    have : maxStandardMpduData = 501 := rfl
    split_ifs <;> simp only [dataOffset, trailerLength, maxStandardFrameLength] <;> omega

theorem MstpCoreConfig.Valid.sends_extended (h : c.Valid) (hextended : c.extendedFrames = true)
    (htype : frameType.isExtendedData = true) (destination : UInt8) (hpos : 0 < data.length)
    (hdata : data.length ≤ maxExtendedMpduData) :
    c.Sends (Frame.new frameType destination c.station data) := by
  have hraw : frameType.raw = 32 ∨ frameType.raw = 33 := by
    simpa [FrameType.isExtendedData] using htype
  have hcobs : frameType.isCobs = true := by
    rcases hraw with hraw | hraw <;> simp [FrameType.isCobs, hraw]
  have hallows : frameType.allowsData = true := by
    rcases hraw with hraw | hraw <;> simp [FrameType.allowsData, hraw]
  have hproprietary : frameType.isProprietary = false := by
    rcases hraw with hraw | hraw <;> simp [FrameType.isProprietary, hraw]
  have hlength : (Frame.new frameType destination c.station data).lengthField = frameLength data := by
    simp [Frame.lengthField, Frame.new, hcobs]
  have hle := (stuffed_stuffs data).length_le
  have hgt := (stuffed_stuffs data).length_gt
  have hbounds : minCobsLength ≤ frameLength data ∧ frameLength data ≤ 1506 := by
    rw [frameLength_eq]
    simp only [maxExtendedMpduData] at hdata
    simp only [minCobsLength, encodedCrcLength, lengthAdjustment]
    omega
  refine ⟨Frame.checkedLength_ok ?_ (.inl hallows) hproprietary, ?_⟩
  · rw [hlength, Frame.checkHeaderFields_ok]
    refine ⟨h.station_ne, ?_⟩
    rw [if_pos (show (Frame.new frameType destination c.station data).header.frameType.isCobs = true
      from hcobs)]
    exact ⟨hbounds.1, hbounds.2.trans (by decide), htype⟩
  · rw [hlength, MstpCoreConfig.longestFrame, if_pos hextended]
    unfold wireLength
    split_ifs <;> simp only [dataOffset, trailerLength, maxExtendedFrameLength] <;> omega

variable {frame : Frame}

namespace MasterCore

variable {Q : Type} {npdu : ℕ} {core : MasterCore Q npdu}

theorem encode_ok (hroom : core.config.longestFrame ≤ core.actions.frame.length)
    (htransmit : core.actions.transmit = none) (hsends : core.config.Sends frame) :
    core.encode frame = (true, core.withFrame frame) := by
  have hinto := Frame.encodeInto_ok hsends.checks (hsends.fits.trans hroom)
  unfold encode ActionQueue.encodeFrame ActionQueue.debugAssert
  simp only [htransmit, Option.isNone_none, Bool.not_true, Bool.or_false]
  rw [hinto]
  unfold withFrame
  rw [Frame.length_encoding]
  cases htr : core.actions
  simp_all

theorem station_withFrame (hroom : core.config.longestFrame ≤ core.actions.frame.length)
    (hsends : core.config.Sends frame) :
    (core.withFrame frame).station = { core.station with octets := frame.encoding } := by
  have hfits := hsends.fits.trans hroom
  rw [← Frame.length_encoding] at hfits
  simp [station, withFrame, ActionQueue.encoded, Nat.add_sub_cancel' hfits]

/-! ## Making a frame -/

end MasterCore

/-- A station that has just made a frame: it waits, was handed over, or was dropped at once. -/
def Station.made (s : Station) (send : PendingSend) (id : TransmitId) (now : Instant) : Station :=
  if send.limit ≤ now then (s.hold send).forget.enter .idle
  else if now < send.earliest then s.hold send
  else (s.hold send).next (.handOver id now)

namespace MasterCore

variable {Q : Type} {npdu : ℕ} {core : MasterCore Q npdu}

/-- The frame a transition names, as it waits to go out. -/
def waitingFrame (core : MasterCore Q npdu) (frame : Frame) (post : PostTransmit) (origin : Origin)
    (now : Instant) : PendingSend :=
  { post := post
    origin := origin
    earliest := satAdd core.lastActivity core.config.tTurnaround
    limit := core.sendLimit origin now
    frame := frame }

/-- Going idle without a remembered Token is only that. -/
def Plain (idle : MasterCore Q npdu → Instant → MasterCore Q npdu) : Prop :=
  ∀ core now, core.pendingToken = false → idle core now = core.goIdle

theorem station_forgetPending (core : MasterCore Q npdu) (h : core.pendingSend.isSome = true) :
    core.forgetPending.station = core.station.forget := by
  obtain ⟨pending, hp⟩ := Option.isSome_iff_exists.mp h
  have hsend : core.station.send = some pending := hp
  unfold forgetPending Station.forget
  rw [hp, hsend, Option.any_some]
  dsimp only
  split_ifs <;> rfl

theorem station_dispatchFrame {pending : PendingSend} (hsend : core.pendingSend = some pending)
    (hactive : core.activeTransmit = none) (htransmit : core.actions.transmit = none)
    (now : Instant) :
    (core.dispatchFrame pending.post now).station
      = core.station.next (.handOver ⟨core.nextTransmitGeneration⟩ now) := by
  unfold dispatchFrame debugAssert ActionQueue.queueTransmit ActionQueue.debugAssert station
  simp only [Station.next, hactive, htransmit, hsend]
  simp [ActionQueue.encoded]

theorem Sound.transmit_none (h : core.Sound) (hactive : core.activeTransmit = none) :
    core.actions.transmit = none := by
  have hqueued : core.actions.transmit.map (·.id) = none := h.station.ordered.queued_none hactive
  exact Option.map_eq_none_iff.mp hqueued

section Open

variable {idle : MasterCore Q npdu → Instant → MasterCore Q npdu}

theorem sendEncodedWith_station (hidle : Plain idle) (hsend : core.pendingSend = none)
    (hactive : core.activeTransmit = none) (htransmit : core.actions.transmit = none)
    {frame : Frame} (hoctets : core.actions.encoded = frame.encoding) {post : PostTransmit}
    {origin : Origin} {now : Instant}
    (htoken : core.pendingToken = false ∨ now < core.sendLimit origin now) :
    (sendEncodedWith idle core frame post origin now).station
      = core.station.made (core.waitingFrame frame post origin now) ⟨core.nextTransmitGeneration⟩
          now := by
  set pending := core.waitingFrame frame post origin now with hpending
  have hmade : sendEncodedWith idle core frame post origin now
      = dispatchPendingSendWith idle { core with pendingSend := some pending } now := by
    unfold sendEncodedWith debugAssert
    simp only [hsend, hactive, Option.isNone_none, Bool.and_self, Bool.not_true, Bool.or_false]
    rfl
  have hhold : station { core with pendingSend := some pending } = core.station.hold pending := by
    unfold station Station.hold
    simp only [hoctets]
    rfl
  rw [hmade]
  unfold dispatchPendingSendWith Station.made
  dsimp only
  split_ifs with hlimit hearly
  · -- Dropped: nothing was handed over, and no Token is remembered.
    have hforget : discardPending { core with pendingSend := some pending }
        = forgetPending { core with pendingSend := some pending } := by
      simp [discardPending, hactive]
    have hplain : core.pendingToken = false := by
      rcases htoken with ht | ht
      · exact ht
      · exact absurd hlimit (Nat.not_le.mpr ht)
    rw [dropPendingWith, hforget, hidle _ _ ?_, station_goIdle, station_forgetPending _ rfl, hhold]
    unfold forgetPending
    dsimp only
    split_ifs <;> exact hplain
  · exact hhold
  · rw [← hhold]
    exact @station_dispatchFrame Q npdu { core with pendingSend := some pending } pending rfl hactive
      htransmit now

theorem sendWithFrame_station (hidle : Plain idle)
    (hroom : core.config.longestFrame ≤ core.actions.frame.length)
    (htransmit : core.actions.transmit = none) (hsend : core.pendingSend = none)
    (hactive : core.activeTransmit = none) (hsends : core.config.Sends frame) {post : PostTransmit}
    {origin : Origin} {now : Instant}
    (htoken : core.pendingToken = false ∨ now < core.sendLimit origin now) :
    (sendEncodedWith idle (core.withFrame frame) frame post origin now).station
      = core.station.made (core.waitingFrame frame post origin now) ⟨core.nextTransmitGeneration⟩
          now := by
  have hoctets : (core.withFrame frame).actions.encoded = frame.encoding := by
    simp [withFrame, ActionQueue.encoded]
  have hmade := @sendEncodedWith_station Q npdu (core.withFrame frame) idle hidle hsend hactive
    htransmit frame hoctets post origin now htoken
  rw [hmade, station_withFrame hroom hsends]
  rfl

theorem queueFrameWith_station (hidle : Plain idle)
    (hroom : core.config.longestFrame ≤ core.actions.frame.length)
    (htransmit : core.actions.transmit = none) (hsend : core.pendingSend = none)
    (hactive : core.activeTransmit = none) {frameType : FrameType}
    {destination : UInt8} {data : List UInt8}
    (hsends : core.config.Sends (Frame.new frameType destination core.config.station data))
    {post : PostTransmit} {origin : Origin} {now : Instant}
    (htoken : core.pendingToken = false ∨ now < core.sendLimit origin now) :
    (queueFrameWith idle core frameType destination data post origin now).station
      = core.station.made (core.waitingFrame
          (Frame.new frameType destination core.config.station data) post origin now)
          ⟨core.nextTransmitGeneration⟩ now := by
  unfold queueFrameWith
  dsimp only
  rw [encode_ok hroom htransmit hsends]
  exact sendWithFrame_station hidle hroom htransmit hsend hactive hsends htoken

end Open

end MasterCore

namespace Station

variable {s : Station} {send : PendingSend}

theorem moves_enter_idle (hfree : s.Free) : s.Moves (s.enter .idle) :=
  moves_next (.enter .idle) ⟨hfree.2.2, by decide, fun _ => ⟨hfree.1, hfree.2.1⟩,
    fun h => absurd h (by decide), fun h => absurd h (by decide)⟩

/-- The frame was made now, and answers nothing. -/
structure Makes (s : Station) (send : PendingSend) : Prop where
  earliest : send.earliest = satAdd s.lastActivity s.config.tTurnaround
  limit : send.limit ≤ maxInstant
  later : s.lastNow < send.limit ∨ maxInstant ≤ s.lastNow
  answer : send.origin.isAnswer = false
  post : send.post ≠ .idle
  info : isInfo send.frame send.origin = send.post.spends
  polls : send.origin = .nextPoll → s.state.spends = false

theorem made_moves (hfree : s.Free) (hmakes : s.Makes send) (htoken : s.HasToken)
    (hbudget : send.post.spends = true → s.soleMaster = true ∨
      (spent s.history + 1 ≤ s.frameCount ∧ spent s.history + 1 ≤ s.config.frameLimit))
    (id : TransmitId) : s.Moves (s.made send id s.lastNow) := by
  unfold made
  split_ifs with hdropped hearly
  · have hgone : (s.hold send).forget = s.next (.scribble send.frame.encoding) := by
      unfold forget hold
      rw [Option.any_some, hmakes.answer, if_neg (by simp)]
      rw [← hfree.1]
      rfl
    rw [hgone]
    exact (moves_next (.scribble _) hfree.1).trans (moves_enter_idle hfree)
  all_goals
    have hheld : holdsToken s.history = true := by
      exact htoken.resolve_right fun hmax => hdropped (hmakes.limit.trans hmax)
    have hmake : s.Enabled (.make send) := ⟨hfree,
      ⟨hmakes.earliest, Nat.not_le.mp hdropped⟩, hmakes.answer, hmakes.post, hheld, hmakes.info,
      hbudget, hmakes.polls⟩
  · exact moves_next (.make send) hmake
  · exact (moves_next (.make send) hmake).trans
      (moves_next (.handOver id s.lastNow) ⟨rfl, hfree.2.1⟩)

end Station

end RustyBacnet.Mstp
