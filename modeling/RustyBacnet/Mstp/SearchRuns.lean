import RustyBacnet.Mstp.CoreLaws
import RustyBacnet.Mstp.Search

/-!
# A search over a run

What each call does to a search (`Stage.step`), and so a run without a reply (`Stage.run`): the
search goes on, or the station went idle, or it is sole master. Every poll that runs out leaves one
less, so the search is over with the `max_master`-th (`search_ends`).
-/

namespace RustyBacnet.Mstp.MasterCore

variable {Q : Type} {npdu : ℕ} {base core core' : MasterCore Q npdu} {ran : ℕ} {now : Instant}

theorem Stage.mono {ran' : ℕ} (h : Stage base ran' core) (hle : ran ≤ ran') : Stage base ran core := by
  cases h with
  | idled h => exact .idled h
  | sole h trail hran => exact .sole h trail (hle.trans hran)
  | searching h trail hran => exact .searching h trail ((Nat.add_le_add_right hle _).trans hran)

theorem Stage.idles_lt (h : Stage base ran core) {n : ℕ}
    (hidled : core.state ≠ .idle → idles core.history < n) (hle : idles core.history ≤ n) :
    idles base.history < n := by
  cases h with
  | idled h => exact h.trans_le hle
  | sole h trail _ => exact trail.idles.trans_lt (hidled h.state)
  | searching h trail _ => exact trail.idles.trans_lt (hidled (by rw [h.state]; decide))

variable {pending : PendingSend}

theorem Stage.origin (h : Stage base ran core) (hsend : core.pendingSend = some pending) :
    idles base.history < idles core.history ∨ pending.origin.isAnswer = false := by
  cases h with
  | idled h => exact .inl h
  | sole h =>
    obtain ⟨pending', hp, horigin⟩ := h.waits
    obtain rfl := Option.some.inj (hsend.symm.trans hp)
    exact .inr (by rw [horigin]; rfl)
  | searching h =>
    have hseeks := (h.waits pending hsend).2.1
    refine .inr ?_
    cases horigin : pending.origin with
    | answer window =>
      rw [horigin] at hseeks
      cases hseeks
    | _ => rfl

theorem Stage.state_of_none (h : Stage base ran core) (hsend : core.pendingSend = none) :
    idles base.history < idles core.history ∨ core.state = .pollForMaster := by
  cases h with
  | idled h => exact .inl h
  | sole h =>
    obtain ⟨pending, hp, -⟩ := h.waits
    exact absurd (hsend.symm.trans hp) (by simp)
  | searching h => exact .inr h.state

variable [QueueStorage Q]

/-! ## The line -/

theorem Stage.noteBusActivity (h : Stage base ran core) (now : Instant) (events : ℕ) :
    Stage base ran (core.noteBusActivity now events) := by
  have hnoted : Stage base ran (core.noted now events) := h.congr rfl
  unfold MasterCore.noteBusActivity
  generalize core.noted now events = noted at hnoted ⊢
  by_cases hsome : noted.pendingSend.isSome = true
  · rw [if_pos hsome]
    obtain ⟨pending, hp⟩ := Option.isSome_iff_exists.mp hsome
    unfold pendingActivity
    rw [hp]
    dsimp only
    split_ifs
    · exact .idled (hnoted.idles_lt (fun hstate => idles_dropPending hstate now)
        ((preserved_idles _).dropPending (Nat.le_refl _) now))
    · exact hnoted.retimed hp _ rfl
    · exact hnoted.retimed hp _ rfl
  · rw [if_neg hsome]
    have hnone : noted.pendingSend = none := Option.not_isSome_iff_eq_none.mp hsome
    rcases hnoted.state_of_none hnone with hidled | hstate
    · exact .idled (hidled.trans_le ((preserved_idles _).freeActivity (Nat.le_refl _) now))
    · unfold freeActivity
      rw [hstate]
      exact hnoted.congr rfl

omit [QueueStorage Q] in
/-- Nothing of this station's is under way, and it waits for the reply to a poll. -/
theorem Sound.atWork (h : core.Sound) (hnow : core.lastNow = now) (hsend : core.pendingSend = none)
    (hactive : core.activeTransmit = none) (hstate : core.state = .pollForMaster) :
    core.AtWork now :=
  ⟨h, ⟨hsend, hactive, h.request_none (by rw [hstate]; decide)⟩, hnow⟩

theorem Stage.invalidFrameEvent (h : Stage base ran core) (hsound : core.Sound)
    (hnow : core.lastNow = now) : Stage base ran (core.invalidFrameEvent now) := by
  unfold MasterCore.invalidFrameEvent
  by_cases hbusy : core.pendingSend.isSome ∨ core.activeTransmit.isSome
  · rw [if_pos hbusy]
    exact h
  have hleads := invalidFrameEvent_leads hsound hnow
  unfold MasterCore.invalidFrameEvent at hleads
  rw [if_neg hbusy] at hleads ⊢
  obtain ⟨hsend, hactive⟩ := not_or.mp hbusy
  rw [Option.not_isSome_iff_eq_none] at hsend hactive
  rcases h.state_of_none hsend with hidled | hstate
  · exact .idled (hidled.trans_le (Station.Moves.goesOn hleads).2)
  · rw [if_neg (by rw [hstate]; decide), if_pos hstate]
    exact (h.pollTimeout (hsound.atWork hnow hsend hactive hstate) hstate).mono (Nat.le_succ _)

omit [QueueStorage Q] in
theorem seeker_frameWhileBusy (core : MasterCore Q npdu) (frame : Frame) (keepToken : Bool) :
    (core.frameWhileBusy frame keepToken).seeker = core.seeker := by
  have hdeliver : (core.deliver frame none).2.seeker = core.seeker := by
    unfold deliver
    split <;> rfl
  unfold frameWhileBusy
  dsimp only
  split_ifs
  · exact hdeliver
  · exact hdeliver
  · exact hdeliver
  · rfl
  · rfl
  · rfl

variable {frame : Frame}

/-- A frame that does not answer the poll. -/
theorem Stage.processFrame (h : Stage base ran core) (hlistens : core.Listens now)
    (hreply : ¬ (frame.header.frameType = .replyToPollForMaster ∧ core.forUs frame = true)) :
    Stage base ran (core.processFrame frame now) := by
  have hidle : ∀ from_ : MasterCore Q npdu, idles base.history < idles from_.history →
      Stage base ran (from_.processFreeFrame frame now) := fun from_ hidled =>
    .idled (hidled.trans_le ((preserved_idles _).processFreeFrame (Nat.le_refl _) frame now))
  unfold MasterCore.processFrame
  dsimp only
  generalize hcount : (if frame.header.source
      = (core.mapCounters .recordFrameReceived).config.station
    then (core.mapCounters .recordFrameReceived).mapCounters .recordOwnAddressFrame
    else core.mapCounters .recordFrameReceived) = counted
  obtain ⟨hseeker, hrequest⟩ : counted.seeker = core.seeker ∧
      counted.pendingRequest = core.pendingRequest := by
    rw [← hcount]
    split_ifs
    · exact ⟨rfl, rfl⟩
    · exact ⟨rfl, rfl⟩
  have hstage := h.congr hseeker
  have hconfig : counted.config = core.config := congrArg Seeker.config hseeker
  have hreply' : ¬ (frame.header.frameType = .replyToPollForMaster ∧ counted.forUs frame = true) := by
    unfold forUs
    rw [hconfig]
    exact hreply
  by_cases hgoing : idles base.history < idles counted.history
  · have hafter := (preserved_idles _).frameWhilePending hgoing frame now
    generalize counted.frameWhilePending frame now = result at hafter ⊢
    rcases result with ⟨_ | _, after⟩
    · exact hidle after hafter
    · exact .idled hafter
  unfold frameWhilePending
  cases hsend : counted.pendingSend with
  | none =>
    dsimp only
    have hstate := (hstage.state_of_none hsend).resolve_left hgoing
    have hnone : counted.pendingRequest = none := by
      refine hrequest.trans (hlistens.sound.request_none ?_)
      rw [← show counted.state = core.state from congrArg Seeker.state hseeker, hstate]
      decide
    have hpass : ¬ counted.state = .passToken := by
      rw [hstate]
      decide
    have hwait : ¬ counted.state = .waitForReply := by
      rw [hstate]
      decide
    unfold processFreeFrame
    rw [if_neg (by rw [hnone, hstate]; simp)]
    rw [if_neg hpass, if_neg hwait, if_pos hstate, if_neg hreply']
    exact .idled (hstage.idles_lt (fun hne => idles_idleFrom hne now)
      ((preserved_idles _).idleFrom (Nat.le_refl _) now))
  | some pending =>
    dsimp only
    have horigin := (hstage.origin hsend).resolve_left hgoing
    cases hcase : pending.origin with
    | answer window =>
      rw [hcase] at horigin
      cases horigin
    | holder => exact hstage.congr (seeker_frameWhileBusy counted frame false)
    | nextPoll =>
      dsimp only
      rw [if_neg hreply']
      exact hstage.congr (seeker_frameWhileBusy counted frame false)
    | passToken | noToken =>
      exact hidle _ (hstage.idles_lt (fun hstate => idles_dropPending hstate now)
        ((preserved_idles _).dropPending (Nat.le_refl _) now))

/-! ## The decoder -/

def answersPoll (config : MstpCoreConfig) (frame : Frame) : Bool :=
  frame.header.frameType = .replyToPollForMaster ∧ frame.header.destination = config.station

omit [QueueStorage Q] in
theorem not_reply_of (hconfig : core.config = base.config)
    (h : answersPoll base.config frame = false) :
    ¬ (frame.header.frameType = .replyToPollForMaster ∧ core.forUs frame = true) := by
  intro hreply
  unfold forUs at hreply
  rw [decide_eq_true_eq, hconfig] at hreply
  unfold answersPoll at h
  rw [decide_eq_true hreply] at h
  cases h

theorem Stage.dropCandidate (h : Stage base ran core) (hsound : core.Sound)
    (hnow : core.lastNow = now) (error : FrameError) (destination : Option UInt8) :
    Stage base ran (core.dropCandidate error destination now) := by
  have hcounted : Stage base ran (core.mapCounters .recordParserError) := h.congr rfl
  have hleads : core.Leads (core.mapCounters .recordParserError) :=
    .of_eq (core.station_mapCounters rfl rfl)
  unfold MasterCore.dropCandidate
  split_ifs
  · exact hcounted.invalidFrameEvent (hsound.leads hleads) hnow
  · exact h

def decodedFrame : DecodeEvent → Option Frame
  | .frame frame _ => some frame
  | _ => none

theorem Stage.decodeEvent (h : Stage base ran core) (hlistens : core.Listens now)
    {event : DecodeEvent} (hevent : StreamDecoder.Bounded event)
    (hreply : (decodedFrame event).any (answersPoll core.config) = false) :
    Stage base ran (core.decodeEvent now event) := by
  cases event with
  | needMore | invalid => exact h
  | frame frame consumed =>
    unfold MasterCore.decodeEvent
    dsimp only
    split_ifs
    · exact h.dropCandidate hlistens.sound hlistens.now _ _
    · exact h.processFrame hlistens (not_reply_of rfl hreply)
  | malformed discard error destination =>
    exact h.dropCandidate hlistens.sound hlistens.now error destination
  | error error => exact h.dropCandidate hlistens.sound hlistens.now error none

theorem Stage.decodeOctet (h : Stage base ran core) (hlistens : core.Listens now) (byte : UInt8)
    (hreply : ∀ event ∈ (core.decoder.feedSlice [byte]).2,
      (decodedFrame event).any (answersPoll core.config) = false) :
    Stage base ran (core.decodeOctet byte now) := by
  have hevents : ∀ (events : List DecodeEvent), (∀ e ∈ events, StreamDecoder.Bounded e) →
      ∀ from_ : MasterCore Q npdu, from_.config = core.config → from_.Listens now →
        (∀ event ∈ events, (decodedFrame event).any (answersPoll core.config) = false) →
        Stage base ran from_ →
        Stage base ran (events.foldl (fun core event => core.decodeEvent now event) from_) := by
    intro events
    induction events with
    | nil => exact fun _ from_ _ _ _ h => h
    | cons event events ih =>
      intro hbounded from_ hconfig hlistens hnone h
      have hleads := decodeEvent_leads hlistens (hbounded event List.mem_cons_self)
      have hstage := h.decodeEvent hlistens (hbounded event List.mem_cons_self)
        (by rw [hconfig]; exact hnone event List.mem_cons_self)
      exact ih (fun e he => hbounded e (List.mem_cons_of_mem _ he)) _ (hleads.config.trans hconfig)
        (hlistens.leads hleads) (fun e he => hnone e (List.mem_cons_of_mem _ he)) hstage
  have hstage := hevents _ (core.decoder.feedSlice_bounded [byte]) core rfl hlistens hreply h
  unfold MasterCore.decodeOctet
  dsimp only
  generalize (core.decoder.feedSlice [byte]).2.foldl (fun core event => core.decodeEvent now event)
    core = after at hstage ⊢
  exact hstage.congr rfl

/-! ## The calls -/

omit [QueueStorage Q] in
theorem seeker_abortPartialIfLate (core : MasterCore Q npdu) (now : Instant) :
    (core.abortPartialIfLate now).2.seeker = core.seeker := by
  unfold abortPartialIfLate
  split_ifs
  · dsimp only
    split_ifs
    · rfl
    · rfl
  · rfl

/-- The call brings a frame that answers a poll of the station's. -/
def hearsReply (core : MasterCore Q npdu) : Call → Bool
  | .onValidatedFrame frame _ => answersPoll core.config frame
  | .onOctet byte now =>
    let observed := core.observeTime now
    ((observed.abortPartialIfLate observed.lastNow).2.decoder.feedSlice [byte]).2.any
      fun event => (decodedFrame event).any (answersPoll core.config)
  | _ => false

/-- The deadline is due while the core waits for the reply to a poll. -/
def unanswered (core : MasterCore Q npdu) (now : Instant) : Bool :=
  core.state = .pollForMaster && core.pendingSend.isNone && core.activeTransmit.isNone &&
    core.nextDeadline.any fun deadline => decide (deadline ≤ now)

/-- The call finds that nothing answered a poll in time. -/
def pollRunsOut (core : MasterCore Q npdu) : Call → Bool
  | .onDeadline now =>
    let observed := core.observeTime now
    (observed.abortLate observed.lastNow).unanswered observed.lastNow
  | _ => false

theorem Stage.onOctet (h : Stage base ran core) (hsound : core.Sound) (byte : UInt8) (now : Instant)
    (hreply : core.hearsReply (.onOctet byte now) = false) :
    Stage base ran (core.onOctet byte now) := by
  have hconfig : (core.observeTime now).config = core.config := rfl
  have hobserved : Stage base ran (core.observeTime now) := h.congr rfl
  have hsound := hsound.observeTime now
  unfold hearsReply at hreply
  unfold MasterCore.onOctet
  dsimp only at hreply ⊢
  rw [← hconfig] at hreply
  generalize core.observeTime now = observed at hsound hobserved hreply ⊢
  by_cases hquiet : observed.transmitting = true
  · rw [if_pos hquiet]
    exact hobserved
  rw [if_neg hquiet]
  have hlistens := hsound.listens rfl hquiet
  have habort : observed.Leads (observed.abortPartialIfLate observed.lastNow).2 :=
    .of_eq (station_abortPartialIfLate _ _)
  have haborted : Stage base ran (observed.abortPartialIfLate observed.lastNow).2 :=
    hobserved.congr (seeker_abortPartialIfLate _ _)
  generalize observed.abortPartialIfLate observed.lastNow = aborted at habort haborted hreply ⊢
  have hheard := hlistens.leads habort
  have hnoted := haborted.noteBusActivity observed.lastNow 1
  have hleads := noteBusActivity_leads hheard 1
  have hline := noteBusActivity_line aborted.2 observed.lastNow 1
  generalize aborted.2.noteBusActivity observed.lastNow 1 = noted at hnoted hleads hline ⊢
  have hready := hheard.leads hleads
  have hdecoder : noted.decoder = aborted.2.decoder := congrArg Line.decoder hline
  generalize hsettle : (if aborted.1 then noted.invalidFrameEvent observed.lastNow else noted)
    = settled
  obtain ⟨hsettled, hled, hkept⟩ : Stage base ran settled ∧ noted.Leads settled ∧
      settled.decoder = noted.decoder := by
    rw [← hsettle]
    split_ifs
    · exact ⟨hnoted.invalidFrameEvent hready.sound hready.now,
        invalidFrameEvent_leads hready.sound hready.now,
        congrArg Line.decoder (invalidFrameEvent_line noted observed.lastNow)⟩
    · exact ⟨hnoted, .refl _, rfl⟩
  generalize hstamp : ({ settled with lastOctet := some observed.lastNow } : MasterCore Q npdu)
    = stamped
  have hstamped : Stage base ran stamped := hsettled.congr (hstamp ▸ rfl)
  have hstation : stamped.station = settled.station := hstamp ▸ rfl
  have hsame : stamped.decoder = aborted.2.decoder := hstamp ▸ hkept.trans hdecoder
  have hdecoding := (hready.leads hled).leads (.of_eq hstation)
  have hsameConfig : stamped.config = observed.config :=
    ((habort.trans hleads).trans (hled.trans (.of_eq hstation))).config
  have hdecoded := hstamped.decodeOctet hdecoding byte (by
    intro event hevent
    rw [hsame] at hevent
    rw [hsameConfig]
    exact Bool.eq_false_iff.mpr fun hany =>
      absurd hreply (by rw [List.any_eq_true.mpr ⟨event, hevent, hany⟩]; decide))
  generalize stamped.decodeOctet byte observed.lastNow = decoded at hdecoded ⊢
  exact hdecoded.congr rfl

theorem Stage.onValidatedFrame (h : Stage base ran core) (hsound : core.Sound) (frame : Frame)
    (now : Instant) (hreply : answersPoll core.config frame = false) :
    Stage base ran (core.onValidatedFrame frame now) := by
  have hconfig : (core.observeTime now).config = core.config := rfl
  have hobserved : Stage base ran (core.observeTime now) := h.congr rfl
  have hsound := hsound.observeTime now
  unfold MasterCore.onValidatedFrame
  by_cases hrefused : core.undecodable frame = true
  · rw [if_pos hrefused]
    exact h.congr rfl
  rw [if_neg hrefused]
  rw [← hconfig] at hreply
  generalize core.observeTime now = observed at hsound hobserved hreply ⊢
  by_cases hquiet : observed.transmitting = true
  · rw [if_pos hquiet]
    exact hobserved
  rw [if_neg hquiet]
  have hlistens := hsound.listens rfl hquiet
  have hleads := noteBusActivity_leads hlistens 1
  have hnoted := hobserved.noteBusActivity observed.lastNow 1
  exact hnoted.processFrame (hlistens.leads hleads) (not_reply_of hleads.config hreply)

theorem Stage.onInvalidFrame (h : Stage base ran core) (hsound : core.Sound) (now : Instant) :
    Stage base ran (core.onInvalidFrame now) := by
  have hobserved : Stage base ran (core.observeTime now) := h.congr rfl
  have hsound := hsound.observeTime now
  unfold MasterCore.onInvalidFrame
  generalize core.observeTime now = observed at hsound hobserved ⊢
  by_cases hquiet : observed.transmitting = true
  · rw [if_pos hquiet]
    exact hobserved
  rw [if_neg hquiet]
  have hlistens := hsound.listens rfl hquiet
  have hleads := noteBusActivity_leads hlistens 1
  have hnoted := hobserved.noteBusActivity observed.lastNow 1
  generalize observed.noteBusActivity observed.lastNow 1 = noted at hnoted hleads ⊢
  have hcounted : noted.Leads (noted.mapCounters .recordParserError) :=
    .of_eq (noted.station_mapCounters rfl rfl)
  have hready := (hlistens.leads hleads).leads hcounted
  exact @Stage.invalidFrameEvent Q npdu base (noted.mapCounters .recordParserError) ran
    observed.lastNow _ (hnoted.congr rfl) hready.sound hready.now

theorem Stage.onHostActivity (h : Stage base ran core) (octets : ℕ) (now : Instant) :
    Stage base ran (core.onHostActivity octets now) := by
  have hobserved : Stage base ran (core.observeTime now) := h.congr rfl
  unfold MasterCore.onHostActivity
  dsimp only
  generalize core.observeTime now = observed at hobserved ⊢
  split_ifs
  · exact hobserved
  · exact hobserved.noteBusActivity _ _

theorem Stage.onReceiveError (h : Stage base ran core) (hsound : core.Sound) (error : ReceiveError)
    (now : Instant) : Stage base ran (core.onReceiveError error now) := by
  have hobserved : Stage base ran (core.observeTime now) := h.congr rfl
  have hsound := hsound.observeTime now
  unfold MasterCore.onReceiveError
  dsimp only
  generalize core.observeTime now = observed at hsound hobserved ⊢
  by_cases hquiet : observed.transmitting = true
  · rw [if_pos hquiet]
    exact hobserved
  rw [if_neg hquiet]
  have hlistens := hsound.listens rfl hquiet
  have hcounted : observed.Leads (observed.mapCounters (·.recordReceiveError error)) :=
    .of_eq (observed.station_mapCounters (by cases error <;> rfl) (by cases error <;> rfl))
  have hstage : Stage base ran (observed.mapCounters (·.recordReceiveError error)) :=
    hobserved.congr rfl
  generalize observed.mapCounters (·.recordReceiveError error) = counted at hcounted hstage ⊢
  have hlistens := hlistens.leads hcounted
  have hleads := noteBusActivity_leads hlistens 1
  have hnoted := hstage.noteBusActivity observed.lastNow 1
  generalize counted.noteBusActivity observed.lastNow 1 = noted at hnoted hleads ⊢
  have hreset : noted.Leads { noted with decoder := noted.decoder.reset, parserPartial := false } :=
    .of_eq rfl
  have hafter : Stage base ran
    { noted with decoder := noted.decoder.reset, parserPartial := false } := hnoted.congr rfl
  generalize ({ noted with decoder := noted.decoder.reset, parserPartial := false } :
    MasterCore Q npdu) = reset at hreset hafter ⊢
  split_ifs
  · have hparsed : reset.Leads (reset.mapCounters .recordParserError) :=
      .of_eq (reset.station_mapCounters rfl rfl)
    have hready := ((hlistens.leads hleads).leads hreset).leads hparsed
    exact @Stage.invalidFrameEvent Q npdu base (reset.mapCounters .recordParserError) ran
      observed.lastNow _ (hafter.congr rfl) hready.sound hready.now
  · exact hafter

theorem Stage.abortLate (h : Stage base ran core) (hsound : core.Sound) (hnow : core.lastNow = now) :
    Stage base ran (core.abortLate now) := by
  have habort : core.Leads (core.abortPartialIfLate now).2 := .of_eq (station_abortPartialIfLate _ _)
  have haborted : Stage base ran (core.abortPartialIfLate now).2 :=
    h.congr (seeker_abortPartialIfLate _ _)
  unfold MasterCore.abortLate
  generalize core.abortPartialIfLate now = aborted at habort haborted ⊢
  rcases aborted with ⟨_ | _, after⟩
  · exact haborted
  · exact haborted.invalidFrameEvent (hsound.leads habort) (habort.lastNow.trans hnow)

/-! ## The adapter -/

omit [QueueStorage Q] in
theorem seeker_confirmStart (core : MasterCore Q npdu) (tx : ActiveTransmit) (pending : PendingSend)
    (now : Instant) : (core.confirmStart tx pending now).seeker
      = { core.seeker with
          send := none
          active := some { tx with started := true, assertedAt := now }
          history := .started pending.frame pending.origin core.soleMaster now :: core.history } := by
  have habort := seeker_abortPartialIfLate core now
  unfold confirmStart
  dsimp only
  generalize (core.abortPartialIfLate now).2 = aborted at habort ⊢
  generalize heq : (if aborted.parserPartial then
    { aborted with decoder := aborted.decoder.reset, parserPartial := false }.mapCounters
      .recordFrameAbort
    else aborted) = reset
  have hreset : reset.seeker = core.seeker := by
    rw [← heq]
    split_ifs
    · exact habort
    · exact habort
  have hsole : reset.soleMaster = core.soleMaster := congrArg Seeker.soleMaster hreset
  have hhistory : reset.history = core.history := congrArg Seeker.history hreset
  rw [← hreset, ← hsole, ← hhistory]
  rfl

omit [QueueStorage Q] in
/-- The search's poll starts. -/
theorem Searching.confirmed (h : core.Searching) (trail : Trail base core core.bound)
    (hran : ran + core.pollsLeft ≤ core.config.maxMaster.toNat)
    (hsend : core.pendingSend = some pending) {tx : ActiveTransmit}
    (hactive : core.activeTransmit = some tx) (now : Instant) :
    Stage base ran (core.confirmStart tx pending now) := by
  have heq := seeker_confirmStart core tx pending now
  generalize core.confirmStart tx pending now = after at heq ⊢
  simp only [seeker, Seeker.mk.injEq] at heq
  obtain ⟨hconfig, hstate, hsole, hnext, hpoll, hsend', hactive', hhistory⟩ := heq
  have hleft : after.pollsLeft = core.pollsLeft := by
    unfold pollsLeft
    rw [hconfig, hpoll]
  have hbound : core.bound = core.pollsLeft + 1 := by
    unfold MasterCore.bound
    rw [hsend]
    rfl
  have hbound' : after.bound = core.pollsLeft := by
    unfold MasterCore.bound
    rw [hsend', hleft]
    rfl
  have hframe := (h.waits pending hsend).1
  refine .searching ⟨hstate ▸ h.state, hsole ▸ h.sole, by rw [hnext, hconfig]; exact h.alone,
    by rw [hpoll, hconfig]; exact h.range, ?_, ?_⟩ ⟨?_, ?_⟩ ?_
  · intro pending' hp
    rw [hsend'] at hp
    cases hp
  · intro tx' htx
    obtain rfl := Option.some.inj (hactive'.symm.trans htx)
    exact h.active tx hactive
  · rw [hhistory]
    exact trail.idles.trans (idles_cons_le _ _)
  · obtain ⟨path, hpolls, hpath⟩ := trail.polls
    rw [hbound] at hpath
    refine ⟨core.pollStation :: path, ?_, ?_⟩
    · rw [hhistory, List.cons_append, ← hpolls]
      refine List.filterMap_cons_some ?_
      rw [CoreEvent.polled, hframe]
      rfl
    · rw [hbound', hconfig]
      exact hpath.cons h.range.1 h.range.2
  · rw [hleft, hconfig]
    exact hran

omit [QueueStorage Q] in
theorem Searching.window (h : core.Searching) (hsend : core.pendingSend = some pending) :
    pending.origin.window = none := by
  have hseeks := (h.waits pending hsend).2.1
  cases horigin : pending.origin with
  | answer window =>
    rw [horigin] at hseeks
    cases hseeks
  | _ => rfl

theorem Stage.onTransmitStarted (h : Stage base ran core) (hsole : core.soleMaster = false)
    (id : TransmitId) (now : Instant) : Stage base ran (core.onTransmitStarted id now).2 := by
  by_cases hgoing : idles base.history < idles core.history
  · exact .idled (hgoing.trans_le ((preserved_idles _).onTransmitStarted (Nat.le_refl _) id now))
  have hobserved : Stage base ran (core.observeTime now) := h.congr rfl
  have hsole' : (core.observeTime now).soleMaster = false := hsole
  have hgoing' : ¬ idles base.history < idles (core.observeTime now).history := hgoing
  unfold MasterCore.onTransmitStarted
  dsimp only
  generalize core.observeTime now = observed at hobserved hsole' hgoing' ⊢
  cases hactive : observed.activeTransmit with
  | none => exact hobserved
  | some tx =>
    dsimp only
    by_cases hid : tx.id ≠ id
    · rw [if_pos hid]
      exact hobserved
    rw [if_neg hid]
    by_cases hstarted : tx.started = true
    · rw [if_pos hstarted]
      exact hobserved.congr rfl
    rw [if_neg hstarted]
    by_cases hqueued : observed.actions.transmitQueued id = true
    · rw [if_pos hqueued]
      exact hobserved.congr rfl
    rw [if_neg hqueued]
    cases hsend : observed.pendingSend with
    | none => exact hobserved
    | some pending =>
      cases hobserved with
      | idled hidled => exact absurd hidled hgoing'
      | sole h => exact absurd (h.sole.symm.trans hsole') (by decide)
      | searching h trail hran =>
        have hstage : Stage base ran observed := .searching h trail hran
        have hwindow := h.window hsend
        dsimp only
        rw [hwindow, Option.any_none, Option.any_none, if_neg Bool.false_ne_true]
        by_cases hearly : observed.lastNow < pending.earliest
        · rw [if_pos hearly]
          have hwithdrawn : Stage base ran
              ((observed.withdrawTransmit id).mapCounters .recordDeferredStart) :=
            @Stage.handed Q npdu base observed _ ran hstage none rfl fun _ tx htx => by cases htx
          generalize (observed.withdrawTransmit id).mapCounters .recordDeferredStart = withdrawn
            at hwithdrawn ⊢
          by_cases hlimit : pending.limit ≤ observed.lastNow
          · rw [if_pos hlimit]
            exact .idled (hwithdrawn.idles_lt (fun hstate => idles_dropPending hstate _)
              ((preserved_idles _).dropPending (Nat.le_refl _) _))
          · rw [if_neg hlimit]
            exact hwithdrawn.congr rfl
        · rw [if_neg hearly, if_neg Bool.false_ne_true]
          exact h.confirmed trail hran hsend hactive _

theorem Stage.onTransmitComplete (h : Stage base ran core) (hsole : core.soleMaster = false)
    (id : TransmitId) (now : Instant) : Stage base ran (core.onTransmitComplete id now) := by
  by_cases hgoing : idles base.history < idles core.history
  · exact .idled (hgoing.trans_le ((preserved_idles _).onTransmitComplete (Nat.le_refl _) id now))
  have hobserved : Stage base ran (core.observeTime now) := h.congr rfl
  have hsole' : (core.observeTime now).soleMaster = false := hsole
  have hgoing' : ¬ idles base.history < idles (core.observeTime now).history := hgoing
  unfold MasterCore.onTransmitComplete
  dsimp only
  generalize core.observeTime now = observed at hobserved hsole' hgoing' ⊢
  cases hactive : observed.activeTransmit with
  | none => exact hobserved
  | some tx =>
    dsimp only
    by_cases hid : tx.id ≠ id
    · rw [if_pos hid]
      exact hobserved
    rw [if_neg hid]
    by_cases hstarted : (!tx.started) = true
    · rw [if_pos hstarted]
      exact hobserved.congr rfl
    rw [if_neg hstarted]
    cases hobserved with
    | idled hidled => exact absurd hidled hgoing'
    | sole h => exact absurd (h.sole.symm.trans hsole') (by decide)
    | searching h trail hran =>
      have hstage : Stage base ran observed := .searching h trail hran
      rw [h.active tx hactive]
      refine @Stage.handed Q npdu base observed _ ran hstage none ?_ fun _ tx htx => by cases htx
      have hset : ∀ core' : MasterCore Q npdu, core'.state = .pollForMaster →
          (core'.setState .pollForMaster).seeker = core'.seeker := fun core' hstate => by
        rw [seeker_setState core' (by decide), ← hstate]
        rfl
      exact hset _ h.state

theorem Stage.onTransmitAborted (h : Stage base ran core) (id : TransmitId)
    (reason : TransmitFailure) (now : Instant) :
    Stage base ran (core.onTransmitAborted id reason now) := by
  have hobserved : Stage base ran (core.observeTime now) := h.congr rfl
  unfold MasterCore.onTransmitAborted
  dsimp only
  generalize core.observeTime now = observed at hobserved ⊢
  cases hactive : observed.activeTransmit with
  | none => exact hobserved
  | some tx =>
    dsimp only
    by_cases hid : tx.id ≠ id
    · rw [if_pos hid]
      exact hobserved
    rw [if_neg hid]
    obtain ⟨hstate, hle⟩ :=
      forgetPending_state ((observed.mapCounters (·.recordTransmitFailure reason)).withdrawTransmit id)
    generalize ((observed.mapCounters (·.recordTransmitFailure reason)).withdrawTransmit
      id).forgetPending = forgotten at hstate hle ⊢
    generalize hend : (if tx.started then
      { forgotten with lastActivity := observed.lastNow }.mapCounters
        (·.recordDeAssertion (observed.lastNow - tx.assertedAt))
      else forgotten) = ended
    have hended : ended.state = observed.state ∧ idles observed.history ≤ idles ended.history := by
      rw [← hend]
      split_ifs
      · exact ⟨hstate, hle⟩
      · exact ⟨hstate, hle⟩
    have hidled : idles base.history < idles (ended.idleFrom observed.lastNow).history :=
      hobserved.idles_lt
        (fun hne => hended.2.trans_lt (idles_idleFrom (hended.1.symm ▸ hne) _))
        (hended.2.trans ((preserved_idles _).idleFrom (Nat.le_refl _) _))
    exact .idled (hidled.trans_le ((preserved_idles _).takePendingToken (Nat.le_refl _) _))

/-! ## The deadline -/

theorem Stage.dispatchPendingSend (h : Stage base ran core) (now : Instant) :
    Stage base ran (core.dispatchPendingSend now) := by
  unfold MasterCore.dispatchPendingSend dispatchPendingSendWith
  cases hsend : core.pendingSend with
  | none => exact h
  | some pending =>
    dsimp only
    split_ifs
    · exact .idled (h.idles_lt (fun hstate => idles_dropPending hstate now)
        ((preserved_idles _).dropPending (Nat.le_refl _) now))
    · exact h.congr rfl
    · refine @Stage.handed Q npdu base core (core.dispatchFrame pending.post now) ran h
        (some ⟨⟨core.nextTransmitGeneration⟩, now, false, pending.post⟩) rfl ?_
      intro hsearching tx htx
      obtain rfl := Option.some.inj htx
      exact (hsearching.waits pending hsend).2.2

theorem Stage.serviceDeadline (h : Stage base ran core) (hsound : core.Sound)
    (hnow : core.lastNow = now) :
    Stage base (ran + if core.state = .pollForMaster ∧ core.pendingSend = none ∧
      core.activeTransmit = none then 1 else 0) (core.serviceDeadline now) := by
  by_cases hgoing : idles base.history < idles core.history
  · exact .idled (hgoing.trans_le ((preserved_idles _).serviceDeadline (Nat.le_refl _) now))
  unfold MasterCore.serviceDeadline
  cases hactive : core.activeTransmit with
  | some tx =>
    rw [if_neg (fun hall => absurd hall.2.2 (by simp)), Nat.add_zero]
    dsimp only
    split_ifs
    · exact h.onTransmitAborted _ _ _
    · exact h
  | none =>
    by_cases hsend : core.pendingSend.isSome = true
    · obtain ⟨pending, hp⟩ := Option.isSome_iff_exists.mp hsend
      rw [if_pos hsend, if_neg (by rw [hp]; exact fun hall => absurd hall.2.1 (by simp)),
        Nat.add_zero]
      exact h.dispatchPendingSend now
    · rw [Option.not_isSome_iff_eq_none] at hsend
      have hstate := (h.state_of_none hsend).resolve_left hgoing
      rw [if_pos ⟨hstate, hsend, rfl⟩, hsend, hstate]
      exact h.pollTimeout (hsound.atWork hnow hsend hactive hstate) hstate

omit [QueueStorage Q] in
theorem station_recordDeadline (core : MasterCore Q npdu) (lateness : Duration) :
    (core.mapCounters (·.recordDeadline lateness core.config.lateDeadline)).station
      = core.station := by
  refine core.station_mapCounters ?_ ?_
  · unfold MstpCounters.recordDeadline
    split_ifs <;> rfl
  · unfold MstpCounters.recordDeadline
    split_ifs <;> rfl

theorem Stage.serviceIfDue (h : Stage base ran core) (hsound : core.Sound)
    (hnow : core.lastNow = now) :
    Stage base (ran + if core.unanswered now then 1 else 0) (core.serviceIfDue now) := by
  unfold MasterCore.serviceIfDue unanswered
  cases hdeadline : core.nextDeadline with
  | none =>
    rw [Option.any_none, Bool.and_false]
    exact h
  | some deadline =>
    dsimp only
    by_cases hdue : now < deadline
    · rw [if_pos hdue, Option.any_some, decide_eq_false (Nat.not_le.mpr hdue), Bool.and_false]
      exact h
    rw [if_neg hdue, Option.any_some, decide_eq_true (Nat.not_lt.mp hdue), Bool.and_true]
    have hcounted : core.Leads (core.mapCounters
        (·.recordDeadline (now - deadline) core.config.lateDeadline)) :=
      .of_eq (station_recordDeadline core _)
    have hstage : Stage base ran (core.mapCounters
        (·.recordDeadline (now - deadline) core.config.lateDeadline)) := h.congr rfl
    have hserviced := hstage.serviceDeadline (hsound.leads hcounted) hnow
    have hsame : (decide (core.state = .pollForMaster) && core.pendingSend.isNone &&
        core.activeTransmit.isNone) = true ↔ core.state = .pollForMaster ∧ core.pendingSend = none ∧
          core.activeTransmit = none := by
      rw [Bool.and_eq_true, Bool.and_eq_true, decide_eq_true_eq, Option.isNone_iff_eq_none,
        Option.isNone_iff_eq_none, and_assoc]
    rw [if_congr hsame rfl rfl]
    exact hserviced

theorem Stage.onDeadline (h : Stage base ran core) (hsound : core.Sound) (now : Instant) :
    Stage base (ran + if core.pollRunsOut (.onDeadline now) then 1 else 0) (core.onDeadline now) := by
  have hobserved : Stage base ran (core.observeTime now) := h.congr rfl
  have hsound := hsound.observeTime now
  have hleads : (core.observeTime now).Leads
      ((core.observeTime now).abortLate (core.observeTime now).lastNow) := abortLate_leads hsound rfl
  exact (hobserved.abortLate hsound rfl).serviceIfDue (hsound.leads hleads) hleads.lastNow

/-! ## Runs -/

/-- What a call that brings no reply does to a search. -/
theorem Stage.step (h : Stage base ran core) (hsound : core.Sound) (hsole : core.soleMaster = false)
    (call : Call) (hreply : core.hearsReply call = false) :
    Stage base (ran + if core.pollRunsOut call then 1 else 0) (core.step call) := by
  by_cases hgoing : idles base.history < idles core.history
  · exact .idled (hgoing.trans_le ((preserved_idles _).step (Nat.le_refl _) call))
  cases call with
  | onOctet byte now => exact h.onOctet hsound byte now hreply
  | onValidatedFrame frame now => exact h.onValidatedFrame hsound frame now hreply
  | onInvalidFrame now => exact h.onInvalidFrame hsound now
  | onHostActivity octets now => exact h.onHostActivity octets now
  | onReceiveError error now => exact h.onReceiveError hsound error now
  | onSilence now =>
    have hobserved : Stage base ran (core.observeTime now) := h.congr rfl
    exact hobserved.abortLate (hsound.observeTime now) rfl
  | onDeadline now => exact h.onDeadline hsound now
  | onTransmitStarted id now => exact h.onTransmitStarted hsole id now
  | onTransmitComplete id now => exact h.onTransmitComplete hsole id now
  | onTransmitAborted id reason now => exact h.onTransmitAborted id reason now
  | completeRequest id decision now =>
    have hnone : (core.observeTime now).pendingRequest = none := by
      refine hsound.request_none ?_
      cases h with
      | idled h => exact absurd h hgoing
      | sole h => exact absurd (h.sole.symm.trans hsole) (by decide)
      | searching h =>
        rw [h.state]
        decide
    show Stage base ran (core.completeRequest id decision now).2
    unfold completeRequest
    dsimp only
    rw [hnone]
    exact h.congr rfl
  | enqueueNpdu destination octets priority now =>
    show Stage base ran (core.enqueueNpdu destination octets priority now).2
    unfold enqueueNpdu
    split_ifs
    · exact h.congr rfl
    · exact h.congr rfl
  | pollAction => exact h.congr rfl
  | takeCounters =>
    refine h.leads (takeCounters_leads hsound) (fun h => .inl ⟨h.sole, h.state, h.waits⟩)
      fun h => .inl ⟨⟨h.state, h.sole, h.alone, h.range, h.waits, h.active⟩, ?_, ?_⟩
    · exact Nat.le_refl _
    · exact Nat.le_refl _

/-- A run of calls without a reply to a poll, made before this station is sole master. -/
def Unanswered (core : MasterCore Q npdu) : List Call → Prop
  | [] => True
  | call :: calls =>
    core.soleMaster = false ∧ core.hearsReply call = false ∧ Unanswered (core.step call) calls

instance decidableUnanswered : (core : MasterCore Q npdu) → (calls : List Call) →
    Decidable (core.Unanswered calls)
  | _, [] => isTrue trivial
  | core, call :: calls =>
    have := decidableUnanswered (core.step call) calls
    inferInstanceAs (Decidable (_ = false ∧ _ = false ∧ _))

def runOut (core : MasterCore Q npdu) : List Call → ℕ
  | [] => 0
  | call :: calls =>
    (if core.pollRunsOut call then 1 else 0) + runOut (core.step call) calls

theorem Stage.run (h : Stage base ran core) (hsound : core.Sound) {calls : List Call}
    (hcalls : core.Unanswered calls) : Stage base (ran + core.runOut calls) (core.run calls) := by
  induction calls generalizing core ran with
  | nil => exact h
  | cons call calls ih =>
    obtain ⟨hsole, hreply, hrest⟩ := hcalls
    have hnext := ih (h.step hsound hsole call hreply) (hsound.step call) hrest
    rwa [Nat.add_assoc] at hnext

/-! ## Where a search begins -/

omit [QueueStorage Q] in
theorem generationSlot_congr (hquiet : core'.lastActivity = core.lastActivity)
    (hconfig : core'.config = core.config) (now : Instant) :
    core'.generationSlot now = core.generationSlot now := by
  unfold generationSlot firstSlot
  rw [hquiet, hconfig]

/-- At its deadline the core generates a token, or finds that its token pass failed, and isn't sole
master. -/
structure Begins (core : MasterCore Q npdu) (now : Instant) : Prop where
  due : ∃ deadline, core.nextDeadline = some deadline ∧ deadline ≤ now
  send : core.pendingSend = none
  active : core.activeTransmit = none
  sole : core.soleMaster = false
  loses : ((core.state = .idle ∨ core.state = .noToken) ∧ core.generationSlot now ≤ now) ∨
    (core.state = .passToken ∧ core.eventCount ≤ nMinOctets ∧ nRetryToken ≤ core.retryTokenCount)

theorem Stage.begins (hleads : base.Leads core) (hwork : core.AtWork now) (hstate : core.state ≠ .idle)
    (hsole : core.soleMaster = false) (halone : core.nextStation = core.config.station)
    (hrange : core.pollStation ≤ core.config.maxMaster ∧ core.pollStation ≠ core.config.station)
    {origin : Origin} (hseeks : origin.seeks = true)
    (hpolled : core.Leads (core.queuePoll origin now)) :
    Stage base 0 (core.queuePoll origin now) := by
  obtain ⟨hpolls, hidles⟩ := Station.Moves.goesOn (hleads.trans hpolled)
  rcases queuePoll_searching hwork hstate hsole halone hrange hseeks with
    hidled | ⟨hsearching, hleft, -⟩
  · exact .idled ((Station.Moves.goesOn hleads).2.trans_lt hidled)
  · refine .searching hsearching ⟨hidles, [], hpolls, .nil _ _⟩ ?_
    rw [Nat.zero_add, hleft, hpolled.config]
    exact Ring.left_le (UInt8.le_iff_toNat_le.mp hwork.sound.valid.station)
      (UInt8.le_iff_toNat_le.mp hrange.1) fun heq => hrange.2 (UInt8.toNat_inj.mp heq)

theorem Stage.holds {holder : MasterCore Q npdu} (hleads : base.Leads core)
    (hwork : core.AtWork now) (hstate : core.state ≠ .idle) (hsole : core.soleMaster = false)
    (hmax : 1 ≤ core.config.maxMaster)
    (hstation : holder.station = core.station.next .generateToken)
    (hpoll : holder.pollStation = nextAddr core.config.station core.config.maxMaster)
    (hnext : holder.nextStation = core.config.station) :
    Stage base 0 (holder.queuePoll .noToken now) := by
  have hmoves : core.Leads holder := .of_move .generateToken trivial hstation
  have hconfig := hmoves.config
  have husing : holder.Using now := by
    refine ⟨⟨hwork.sound.leads hmoves, ?_, ?_⟩, ?_⟩
    · rw [hstation]
      exact hwork.free
    · rw [hstation]
      exact hwork.now
    · rw [hstation]
      exact .inl rfl
  obtain ⟨hkept, hkeptSole⟩ := core.station.next_generateToken
  rw [← hstation] at hkept hkeptSole
  have hstate' : holder.state ≠ .idle := fun hidle => hstate (hkept.symm.trans hidle)
  have hrange : holder.pollStation ≤ holder.config.maxMaster ∧
      holder.pollStation ≠ holder.config.station := by
    rw [hpoll, hconfig]
    exact ⟨nextAddr_le _ _, nextAddr_ne hwork.sound.valid.station hmax⟩
  exact Stage.begins (hleads.trans hmoves) husing.toAtWork hstate' (hkeptSole.trans hsole)
    (by rw [hnext, hconfig]) hrange rfl (queuePoll_leads husing rfl rfl (by simp))

theorem Stage.generates (hleads : base.Leads core) (hwork : core.AtWork now)
    (hstate : core.state ≠ .idle) (hsole : core.soleMaster = false)
    (hmax : 1 ≤ core.config.maxMaster) (hslot : core.generationSlot now ≤ now) :
    Stage base 0 (core.generateTokenIfInSlot now) := by
  unfold generateTokenIfInSlot
  generalize core.generationSlot now = start at hslot ⊢
  rw [if_neg (Nat.not_lt.mpr hslot)]
  have hnext : (core.generated start).nextStation = core.config.station := by
    unfold generated
    split_ifs <;> rfl
  exact Stage.holds hleads hwork hstate hsole hmax (station_generated core start)
    (core.shown_generated start).2 hnext

/-- The silence begins a search. -/
theorem Stage.entersNoToken (hleads : base.Leads core) (hwork : core.AtWork now)
    (hsole : core.soleMaster = false) (hmax : 1 ≤ core.config.maxMaster)
    (hslot : core.generationSlot now ≤ now) : Stage base 0 (core.enterNoToken now) := by
  unfold enterNoToken
  have hsilent := station_setState core .noToken
  have hline := line_setState core .noToken
  generalize core.setState .noToken = silent at hsilent hline ⊢
  have hmoves : core.Leads { silent with retryTokenCount := 0, eventCount := 0 } := by
    unfold Leads
    rw [show station { silent with retryTokenCount := 0, eventCount := 0 }
      = core.station.enter .noToken from hsilent]
    exact Station.moves_next (.enter .noToken) ⟨hwork.free.2.2, by decide, by simp,
      by simp [MasterState.holds], by simp [MasterState.spends]⟩
  have hfree : silent.station.Free := by
    rw [hsilent]
    simpa [Station.Free] using hwork.free
  have hnow : silent.station.lastNow = now := by
    rw [hsilent, Station.enter_lastNow]
    exact hwork.now
  have hstate : silent.station.state ≠ .idle := by
    rw [hsilent, Station.enter_state]
    decide
  have hsole' : silent.station.soleMaster = false := by
    rw [hsilent, Station.enter_soleMaster]
    exact hsole
  have hslot' : silent.generationSlot now = core.generationSlot now :=
    generationSlot_congr (congrArg Line.lastActivity hline) (congrArg Line.config hline) now
  have hstart : generationSlot { silent with retryTokenCount := 0, eventCount := 0 } now ≤ now :=
    (generationSlot_congr rfl rfl now).trans_le (hslot'.trans_le hslot)
  exact Stage.generates (hleads.trans hmoves) ⟨hwork.sound.leads hmoves, hfree, hnow⟩ hstate hsole'
    (hmoves.config ▸ hmax) hstart

/-- A failed token pass begins a search. -/
theorem Stage.passFails (hleads : base.Leads core) (hwork : core.AtWork now)
    (hstate : core.state = .passToken) (hsole : core.soleMaster = false)
    (hmax : 1 ≤ core.config.maxMaster) (hunused : core.eventCount ≤ nMinOctets)
    (hretried : nRetryToken ≤ core.retryTokenCount) : Stage base 0 (core.passTokenTimeout now) := by
  have husing := hwork.using (by rw [hstate]; rfl)
  unfold passTokenTimeout
  dsimp only
  rw [if_neg (Nat.not_lt.mpr hunused), if_neg (Nat.not_lt.mpr hretried)]
  generalize hfirst : (if nextAddr core.nextStation core.config.maxMaster = core.config.station then
    nextAddr core.config.station core.config.maxMaster
    else nextAddr core.nextStation core.config.maxMaster) = first
  have hrange : first ≤ core.config.maxMaster ∧ first ≠ core.config.station := by
    rw [← hfirst]
    split_ifs with hown
    · exact ⟨nextAddr_le _ _, nextAddr_ne hwork.sound.valid.station hmax⟩
    · exact ⟨nextAddr_le _ _, hown⟩
  set failed : MasterCore Q npdu :=
    { core with
      nextStation := core.config.station, pollStation := first, retryTokenCount := 0
      tokenCount := 0 }
  have hsame : failed.station = core.station := rfl
  have hstate' : failed.state ≠ .idle := by
    show core.state ≠ .idle
    rw [hstate]
    decide
  exact Stage.begins (hleads.trans (.of_eq hsame)) (hwork.congr hsame) hstate' hsole rfl hrange rfl
    (queuePoll_leads (husing.congr hsame) rfl rfl (by simp))

/-- The call that begins a search. -/
theorem Begins.stage (h : core.Begins now) (hsound : core.Sound) (hnow : core.lastNow = now)
    (hmax : 1 ≤ core.config.maxMaster) : Stage core 0 (core.serviceIfDue now) := by
  obtain ⟨deadline, hdeadline, hdue⟩ := h.due
  unfold serviceIfDue
  rw [hdeadline]
  dsimp only
  rw [if_neg (Nat.not_lt.mpr hdue)]
  have hstation := station_recordDeadline core (now - deadline)
  generalize hcount : core.mapCounters (·.recordDeadline (now - deadline) core.config.lateDeadline)
    = counted at hstation ⊢
  have hslot : counted.generationSlot now = core.generationSlot now :=
    hcount ▸ generationSlot_congr rfl rfl now
  have hevents : counted.eventCount = core.eventCount := hcount ▸ rfl
  have hretries : counted.retryTokenCount = core.retryTokenCount := hcount ▸ rfl
  have hleads : core.Leads counted := .of_eq hstation
  have hstate : counted.state = core.state := congrArg Station.state hstation
  have hsend : counted.pendingSend = none := (congrArg Station.send hstation).trans h.send
  have hactive : counted.activeTransmit = none := (congrArg Station.active hstation).trans h.active
  have hsole : counted.soleMaster = false := (congrArg Station.soleMaster hstation).trans h.sole
  have hmax' : 1 ≤ counted.config.maxMaster := hleads.config ▸ hmax
  have hrequest : counted.pendingRequest = none := by
    refine (congrArg Station.request hstation).trans (hsound.request_none ?_)
    rcases h.loses with ⟨hidle | hsilent, -⟩ | ⟨hpass, -⟩
    · rw [hidle]
      decide
    · rw [hsilent]
      decide
    · rw [hpass]
      decide
  have hwork : counted.AtWork now :=
    ⟨hsound.leads hleads, ⟨hsend, hactive, hrequest⟩, hleads.lastNow.trans hnow⟩
  unfold serviceDeadline
  rw [hactive, hsend]
  dsimp only [Option.isSome_none]
  rw [if_neg Bool.false_ne_true, hstate]
  rcases h.loses with ⟨hidle | hsilent, hstart⟩ | ⟨hpass, hunused, hretried⟩
  · rw [hidle]
    exact Stage.entersNoToken hleads hwork hsole hmax' (by rw [hslot]; exact hstart)
  · rw [hsilent]
    exact Stage.generates hleads hwork (by rw [hstate, hsilent]; decide) hsole hmax'
      (by rw [hslot]; exact hstart)
  · rw [hpass]
    exact Stage.passFails hleads hwork (hstate.trans hpass) hsole hmax' (hevents.symm ▸ hunused)
      (hretries.symm ▸ hretried)

/-! ## What a core makes -/

/-- The frame waits, or was started. -/
def Makes (core : MasterCore Q npdu) (frame : Frame) : Prop :=
  (∃ pending, core.pendingSend = some pending ∧ pending.frame = frame) ∨
    ∃ origin sole now, .started frame origin sole now ∈ core.history

omit [QueueStorage Q] in
theorem Makes.of_started {event : CoreEvent} (hevent : event.startsNothing = true)
    (h : (core.record event).Makes frame) : core.Makes frame := by
  rcases h with hwaits | ⟨origin, sole, now, hmem⟩
  · exact .inl hwaits
  · rcases List.mem_cons.mp hmem with rfl | hmem
    · cases hevent
    · exact .inr ⟨origin, sole, now, hmem⟩

/-- Every frame made goes where it may. -/
theorem preserved_addresses (config : MstpCoreConfig) : Preserved fun core : MasterCore Q npdu =>
    core.config = config ∧ ∀ frame, core.Makes frame → Addresses config frame where
  congr h heq := by
    have hconfig := congrArg Shown.config heq
    have hsend := congrArg Shown.pendingSend heq
    refine ⟨hconfig.trans h.1, fun frame hmakes => h.2 frame ?_⟩
    rcases hmakes with ⟨pending, hp, hframe⟩ | ⟨origin, sole, now, hmem⟩
    · exact .inl ⟨pending, hsend.symm.trans hp, hframe⟩
    · refine .inr ⟨origin, sole, now, (congrArg (fun shown => _ ∈ Shown.history shown) heq).mp hmem⟩
  record h hevent := ⟨h.1, fun frame hmakes => h.2 frame (hmakes.of_started hevent)⟩
  forget h := by
    refine ⟨h.1, fun frame hmakes => h.2 frame ?_⟩
    rcases hmakes with ⟨pending, hp, -⟩ | hstarted
    · cases hp
    · exact .inr hstarted
  make h hframe := by
    refine ⟨h.1, fun frame hmakes => ?_⟩
    rcases hmakes with ⟨pending, hp, rfl⟩ | hstarted
    · obtain rfl := Option.some.inj hp
      exact h.1 ▸ hframe
    · exact h.2 frame (.inr hstarted)
  retime earliest h hsend := by
    refine ⟨h.1, fun frame hmakes => h.2 frame ?_⟩
    rcases hmakes with ⟨pending, hp, rfl⟩ | hstarted
    · obtain rfl := Option.some.inj hp
      exact .inl ⟨_, hsend, rfl⟩
    · exact .inr hstarted
  confirm sole now h hsend := by
    refine ⟨h.1, fun frame hmakes => h.2 frame ?_⟩
    rcases hmakes with ⟨pending, hp, -⟩ | ⟨origin, sole', now', hmem⟩
    · cases hp
    · rcases List.mem_cons.mp hmem with heq | hmem
      · obtain ⟨rfl, -, -, -⟩ := CoreEvent.started.inj heq
        exact .inl ⟨_, hsend, rfl⟩
      · exact .inr ⟨origin, sole', now', hmem⟩
  expire _ h := h
  taken h _ _ _ := h
  served h _ _ _ := h
  enqueue _ _ _ _ _ h := h
  takeCounters _ h := h

theorem makes_addresses (h : core.Reachable) (hmakes : core.Makes frame) :
    Addresses core.config frame := by
  obtain ⟨config, queues, rxStorage, buffers, now, first, calls, hparts, rfl⟩ := h
  obtain ⟨-, rfl⟩ := fromParts_ok hparts
  have hstart : (start config queues rxStorage buffers now).config = config ∧
      ∀ frame, (start config queues rxStorage buffers now).Makes frame → Addresses config frame := by
    refine ⟨rfl, fun frame hmakes => ?_⟩
    rcases hmakes with ⟨pending, hp, -⟩ | ⟨origin, sole, now, hmem⟩
    · cases hp
    · cases hmem
  obtain ⟨hconfig, hall⟩ := (preserved_addresses config).run hstart calls
  rw [hconfig]
  exact hall frame hmakes

/-! ## The successor search -/

/-- When the deadline at `now` is serviced, after a late partial receive was given up. -/
def atDeadline (core : MasterCore Q npdu) (now : Instant) : MasterCore Q npdu :=
  (core.observeTime now).abortLate (core.observeTime now).lastNow

/-- Polls go to other addresses of the range and Tokens to other stations, `done_with_token`'s loop
ends, and a search that nothing answers polls each address once and is over with the `max_master`-th
poll at the latest, unless the station goes idle before. -/
theorem successor_search (h : core.Reachable) (hmax : 1 ≤ core.config.maxMaster) :
    (∀ frame, core.Makes frame →
      (frame.header.frameType = .pollForMaster →
        frame.header.destination ≤ core.config.maxMaster ∧
          frame.header.destination ≠ core.config.station) ∧
      (frame.header.frameType = .token → frame.header.destination ≠ core.config.station)) ∧
    (∀ (turn : MasterCore Q npdu) (now : Instant),
      Ends enterIdle now turn (doneWithTokenWith enterIdle turn now)) ∧
    ∀ now calls, (core.atDeadline now).Begins (core.observeTime now).lastNow →
      (core.step (.onDeadline now)).Unanswered calls →
      idles ((core.step (.onDeadline now)).run calls).history = idles (core.atDeadline now).history →
      ∃ path, polls ((core.step (.onDeadline now)).run calls).history
          = path ++ polls (core.atDeadline now).history ∧
        path.Nodup ∧ path.length ≤ core.config.maxMaster.toNat ∧
        (∀ a ∈ path, a ≤ core.config.maxMaster ∧ a ≠ core.config.station) ∧
        (core.step (.onDeadline now)).runOut calls ≤ core.config.maxMaster.toNat ∧
        (((core.step (.onDeadline now)).run calls).soleMaster = true ∨
          (core.step (.onDeadline now)).runOut calls < core.config.maxMaster.toNat) := by
  have hsound := h.sound
  refine ⟨fun frame hmakes => ?_, fun turn now => ends_doneWithTokenWith turn now, ?_⟩
  · obtain ⟨hpoll, htoken⟩ := makes_addresses h hmakes
    exact ⟨fun htype => hpoll htype hsound.valid.station hmax, htoken⟩
  intro now calls hbegins hunanswered hnoIdle
  have hleads : (core.observeTime now).Leads (core.atDeadline now) :=
    abortLate_leads (hsound.observeTime now) rfl
  have hconfig : (core.atDeadline now).config = core.config := hleads.config
  have hlate := (hsound.observeTime now).leads hleads
  have hbegun : Stage (core.atDeadline now) 0 (core.step (.onDeadline now)) :=
    hbegins.stage hlate hleads.lastNow (hconfig.symm ▸ hmax)
  have hstage := hbegun.run (hsound.step _) hunanswered
  have hkept := ((hsound.step (.onDeadline now)).run_keeps calls).2.trans
    (hsound.step_keeps (.onDeadline now)).2
  rw [Nat.zero_add] at hstage
  generalize (core.step (.onDeadline now)).run calls = found at hstage hkept hnoIdle ⊢
  generalize (core.step (.onDeadline now)).runOut calls = ran at hstage ⊢
  have hpath : ∀ {bound path}, 1 ≤ bound → Ring.Path found.config bound path →
      path.Nodup ∧ path.length ≤ core.config.maxMaster.toNat ∧
        ∀ a ∈ path, a ≤ core.config.maxMaster ∧ a ≠ core.config.station := by
    intro bound path hbound hpath
    rw [hkept] at hpath
    refine ⟨hpath.nodup, ?_, hpath.range⟩
    rcases hpath.length_le hsound.valid.station with hlength | rfl
    · omega
    · exact Nat.zero_le _
  cases hstage with
  | idled hidled => exact absurd hnoIdle (Nat.ne_of_gt hidled)
  | sole hsole trail hran =>
    obtain ⟨path, hpolls, hfalls⟩ := trail.polls
    obtain ⟨hnodup, hlength, hrange⟩ := hpath (Nat.le_refl 1) hfalls
    rw [hkept] at hran
    exact ⟨path, hpolls, hnodup, hlength, hrange, hran, .inl hsole.sole⟩
  | searching hsearching trail hran =>
    obtain ⟨path, hpolls, hfalls⟩ := trail.polls
    obtain ⟨hnodup, hlength, hrange⟩ := hpath hsearching.bound_pos hfalls
    have hleft := hsearching.left_pos
    rw [hkept] at hran
    exact ⟨path, hpolls, hnodup, hlength, hrange, by omega, .inr (by omega)⟩

/-- Station 0, with three addresses to search. -/
def searchBench : MasterCore (FixedQueues 1 1 501) 501 :=
  start { MstpCoreConfig.standard with maxMaster := 3 } FixedQueues.new (List.replicate 511 0)
    benchBuffers 0

/-- Each poll goes out and times out. -/
def noReplies : List Call :=
  (List.range 3).flatMap fun i =>
    [.pollAction, .pollAction, .onTransmitStarted ⟨i⟩ (500000000 + 100000000 * i),
      .onTransmitComplete ⟨i⟩ (501000000 + 100000000 * i), .pollAction,
      .onDeadline (600000000 + 100000000 * i)]

theorem successor_search_bench :
    let begun := searchBench.step (.onDeadline 500000000)
    (polls (begun.run noReplies).history = [3, 2, 1] ∧ begun.runOut noReplies = 3) ∧
      ∃ path, polls (begun.run noReplies).history
          = path ++ polls (searchBench.atDeadline 500000000).history ∧
        path.Nodup ∧ path.length ≤ searchBench.config.maxMaster.toNat ∧
        (∀ a ∈ path, a ≤ searchBench.config.maxMaster ∧ a ≠ searchBench.config.station) ∧
        begun.runOut noReplies ≤ searchBench.config.maxMaster.toNat ∧
        ((begun.run noReplies).soleMaster = true ∨
          begun.runOut noReplies < searchBench.config.maxMaster.toNat) := by
  have hreachable : searchBench.Reachable :=
    ⟨_, _, _, _, 0, searchBench, [], fromParts_eq (by decide +kernel)
      (by rw [List.length_replicate]; decide) (by decide +kernel) 0, rfl⟩
  have hbegins : (searchBench.atDeadline 500000000).Begins
      (searchBench.observeTime 500000000).lastNow :=
    { due := ⟨500000000, by decide +kernel, by decide +kernel⟩
      send := by decide +kernel
      active := by decide +kernel
      sole := by decide +kernel
      loses := .inl ⟨.inl (by decide +kernel), by decide +kernel⟩ }
  exact ⟨by decide +kernel, (successor_search hreachable (by decide)).2.2 500000000 noReplies hbegins
    (by decide +kernel) (by decide +kernel)⟩

end RustyBacnet.Mstp.MasterCore
