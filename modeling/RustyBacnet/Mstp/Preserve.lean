import Mathlib.Tactic.SplitIfs
import RustyBacnet.Mstp.Input

/-!
# What every call preserves

Of the frames a core makes, the frames it starts and what it takes from its queues, each is done in
few places: a frame is made in `sendEncodedWith`, its start recorded in `confirmStart`, an item taken
in `dequeueLoopWith`. A property of these alone (`shown`) that holds over each such place
(`Preserved`) holds over every call (`Preserved.step`) and so over every run.

A Poll For Master is made for another address of the range and a Token for another station
(`Addresses`), wherever the address came from: each place that makes one excludes the others itself.
-/

namespace RustyBacnet.Mstp

/-- A Poll For Master goes to another address up to Max_Master, and a Token to another station. -/
structure Addresses (config : MstpCoreConfig) (frame : Frame) : Prop where
  poll : frame.header.frameType = .pollForMaster → config.station ≤ config.maxMaster →
    1 ≤ config.maxMaster →
    frame.header.destination ≤ config.maxMaster ∧ frame.header.destination ≠ config.station
  token : frame.header.frameType = .token → frame.header.destination ≠ config.station

variable {frame : Frame}

theorem Addresses.other (config : MstpCoreConfig) (hpoll : frame.header.frameType ≠ .pollForMaster)
    (htoken : frame.header.frameType ≠ .token) : Addresses config frame :=
  ⟨fun h => absurd h hpoll, fun h => absurd h htoken⟩

theorem toNat_nextAddr (current maxMaster : UInt8) :
    (nextAddr current maxMaster).toNat = if current.toNat < maxMaster.toNat then current.toNat + 1
      else (current.toNat + 1) % (maxMaster.toNat + 1) := by
  have hc := current.toNat_lt
  have hm := maxMaster.toNat_lt
  have hcompare : compare current maxMaster = if current.toNat < maxMaster.toNat then .lt
      else if current.toNat = maxMaster.toNat then .eq else .gt := by
    show compareOfLessAndEq current maxMaster = _
    unfold compareOfLessAndEq
    simp only [UInt8.lt_iff_toNat_lt, ← UInt8.toNat_inj]
  unfold nextAddr
  rw [hcompare]
  split_ifs with hlt heq
  · show (current + 1).toNat = _
    rw [UInt8.toNat_add]
    show (current.toNat + 1) % 256 = _
    omega
  · rw [heq, Nat.mod_self]
    rfl
  · have hmod : (current.toNat + 1) % (maxMaster.toNat + 1) < maxMaster.toNat + 1 :=
      Nat.mod_lt _ (Nat.succ_pos _)
    show (UInt8.ofNat _).toNat = _
    rw [UInt8.toNat_ofNat']
    omega

theorem nextAddr_le (current maxMaster : UInt8) : nextAddr current maxMaster ≤ maxMaster := by
  have hmod : (current.toNat + 1) % (maxMaster.toNat + 1) < maxMaster.toNat + 1 :=
    Nat.mod_lt _ (Nat.succ_pos _)
  rw [UInt8.le_iff_toNat_le, toNat_nextAddr]
  split_ifs
  · omega
  · omega

theorem nextAddr_ne {current maxMaster : UInt8} (h : current ≤ maxMaster) (hmax : 1 ≤ maxMaster) :
    nextAddr current maxMaster ≠ current := by
  rw [UInt8.le_iff_toNat_le] at h hmax
  change 1 ≤ maxMaster.toNat at hmax
  intro heq
  rw [← UInt8.toNat_inj, toNat_nextAddr] at heq
  split_ifs at heq with hlt
  · omega
  · rw [show current.toNat = maxMaster.toNat by omega, Nat.mod_self] at heq
    omega

/-- The parts of a core that making, starting and taking change. -/
structure Shown (Q : Type) where
  config : MstpCoreConfig
  queues : Q
  consecutiveBroadcast : ℕ
  pendingSend : Option PendingSend
  history : List CoreEvent

def CoreEvent.startsNothing : CoreEvent → Bool
  | .started _ _ _ _ => false
  | _ => true

namespace MasterCore

variable {Q : Type} {npdu : ℕ}

def shown (core : MasterCore Q npdu) : Shown Q :=
  ⟨core.config, core.queues, core.consecutiveBroadcast, core.pendingSend, core.history⟩

theorem config_encode (core : MasterCore Q npdu) (frame : Frame) :
    (core.encode frame).2.config = core.config := by
  unfold MasterCore.encode
  split <;> rfl

theorem shown_generated (core : MasterCore Q npdu) (start : Instant) :
    (core.generated start).shown = (core.record .tokenGenerated).shown ∧
      (core.generated start).pollStation = nextAddr core.config.station core.config.maxMaster := by
  unfold generated shown record mapCounters
  by_cases hlate : start ≠ core.firstSlot
  · rw [if_pos hlate]
    exact ⟨rfl, rfl⟩
  · rw [if_neg hlate]
    exact ⟨rfl, rfl⟩

theorem dataFrameType_other (expecting extended : Bool) :
    (dataFrameType expecting extended).1 ≠ .pollForMaster ∧
      (dataFrameType expecting extended).1 ≠ .token := by
  cases expecting <;> cases extended <;> exact ⟨by decide, by decide⟩

variable [QueueStorage Q]

/-- A property of what is shown that holds over every place that changes it. -/
structure Preserved (P : MasterCore Q npdu → Prop) : Prop where
  congr : ∀ {core core' : MasterCore Q npdu}, P core → core'.shown = core.shown → P core'
  record : ∀ {core : MasterCore Q npdu} {event : CoreEvent}, P core → event.startsNothing = true →
    P (core.record event)
  forget : ∀ {core : MasterCore Q npdu}, P core → P { core with pendingSend := none }
  make : ∀ {core : MasterCore Q npdu} {pending : PendingSend}, P core →
    Addresses core.config pending.frame → P { core with pendingSend := some pending }
  retime : ∀ {core : MasterCore Q npdu} {pending : PendingSend} (earliest : Instant), P core →
    core.pendingSend = some pending →
    P { core with pendingSend := some { pending with earliest := earliest } }
  confirm : ∀ {core : MasterCore Q npdu} {pending : PendingSend} (soleMaster : Bool) (now : Instant),
    P core → core.pendingSend = some pending →
    P { core.record (.started pending.frame pending.origin soleMaster now) with pendingSend := none }
  expire : ∀ {core : MasterCore Q npdu} (now : Instant), P core →
    P { core with queues := (QueueStorage.expire core.queues now).2 }
  /-- A dequeue that gives nothing to send. -/
  taken : ∀ {core : MasterCore Q npdu} {now : Instant} {kind : QueueKind}
    {result : Except QueueRefusal (Option DequeuedNpdu)} {queues : Q}, P core →
    core.nextQueueKind now = some kind →
    QueueStorage.dequeueKind core.queues kind now npdu = (result, queues) →
    (∀ item, result = .ok (some item) →
      npdu < item.npdu.length ∨ core.config.maxNpdu < item.npdu.length) →
    P { core with queues := queues }
  /-- A dequeue whose item is sent. -/
  served : ∀ {core : MasterCore Q npdu} {now : Instant} {kind : QueueKind} {item : DequeuedNpdu}
    {queues : Q}, P core → core.nextQueueKind now = some kind →
    QueueStorage.dequeueKind core.queues kind now npdu = (.ok (some item), queues) →
    ¬ (npdu < item.npdu.length ∨ core.config.maxNpdu < item.npdu.length) →
    P (counted { core with queues := queues } kind)
  enqueue : ∀ {core : MasterCore Q npdu} (destination : UInt8) (octets : List UInt8)
    (priority : NetworkPriority) (now : Instant) (expires : Option Instant), P core →
    P { core with
      queues := (QueueStorage.enqueueNpdu core.queues destination octets priority now expires).2 }
  takeCounters : ∀ {core : MasterCore Q npdu} (kind : QueueKind), P core →
    P { core with queues := (QueueStorage.takeCounters core.queues kind).2 }

namespace Preserved

variable {P : MasterCore Q npdu → Prop} (h : Preserved P) {core : MasterCore Q npdu} {now : Instant}
include h

theorem setState (hcore : P core) (state : MasterState) : P (core.setState state) := by
  unfold MasterCore.setState
  split_ifs
  · exact hcore
  · exact h.record (h.congr hcore rfl) rfl
  · exact h.congr hcore rfl

theorem goIdle (hcore : P core) : P core.goIdle :=
  h.congr (h.setState hcore .idle) rfl

theorem idleFrom (hcore : P core) (now : Instant) : P (core.idleFrom now) :=
  h.congr (h.setState hcore .idle) rfl

theorem recordExpiredRequest (hcore : P core) : P core.recordExpiredRequest :=
  h.record (h.congr hcore rfl) rfl

theorem forgetPending (hcore : P core) : P core.forgetPending := by
  unfold MasterCore.forgetPending
  split
  · exact hcore
  · split_ifs
    · exact h.recordExpiredRequest (h.forget hcore)
    · exact h.congr (h.forget hcore) rfl

theorem discardPending (hcore : P core) : P core.discardPending := by
  apply h.forgetPending
  split
  · split_ifs
    · exact hcore
    · exact h.congr hcore rfl
  · exact hcore

theorem encode (hcore : P core) (frame : Frame) : P (core.encode frame).2 := by
  unfold MasterCore.encode
  split
  · exact h.congr hcore rfl
  · exact h.congr hcore rfl

/-! ## Using the token -/

variable {frameType : FrameType} {destination : UInt8} {data : List UInt8}

section Open

variable {idle : MasterCore Q npdu → Instant → MasterCore Q npdu}
  (hidle : ∀ (core : MasterCore Q npdu) (now : Instant), P core → P (idle core now))
include hidle

theorem dropPendingWith (hcore : P core) (now : Instant) : P (MasterCore.dropPendingWith idle core now) :=
  hidle _ now (h.discardPending hcore)

theorem dispatchPendingSendWith (hcore : P core) (now : Instant) :
    P (MasterCore.dispatchPendingSendWith idle core now) := by
  unfold MasterCore.dispatchPendingSendWith
  split
  · exact hcore
  · split_ifs
    · exact h.dropPendingWith hidle hcore now
    · exact h.congr hcore rfl
    · exact h.congr hcore rfl

theorem sendEncodedWith (hcore : P core) (hframe : Addresses core.config frame)
    (post : PostTransmit) (origin : Origin) (now : Instant) :
    P (MasterCore.sendEncodedWith idle core frame post origin now) := by
  have hasserted : P (core.debugAssert (core.pendingSend.isNone && core.activeTransmit.isNone)) :=
    h.congr hcore rfl
  unfold MasterCore.sendEncodedWith
  apply h.dispatchPendingSendWith hidle
  exact h.make hasserted hframe

theorem queueFrameWith (hcore : P core)
    (hframe : Addresses core.config (Frame.new frameType destination core.config.station data))
    (post : PostTransmit) (origin : Origin) (now : Instant) :
    P (MasterCore.queueFrameWith idle core frameType destination data post origin now) := by
  have hencoded := h.encode hcore (Frame.new frameType destination core.config.station data)
  have hconfig := core.config_encode (Frame.new frameType destination core.config.station data)
  unfold MasterCore.queueFrameWith
  dsimp only
  generalize core.encode (Frame.new frameType destination core.config.station data) = result
    at hencoded hconfig ⊢
  rcases result with ⟨_ | _, after⟩
  · exact hencoded
  · exact h.sendEncodedWith hidle hencoded (hconfig ▸ hframe) post origin now

theorem queuePollWith (hcore : P core) (hpoll : core.config.station ≤ core.config.maxMaster →
    1 ≤ core.config.maxMaster → core.pollStation ≤ core.config.maxMaster ∧
      core.pollStation ≠ core.config.station) (origin : Origin) (now : Instant) :
    P (MasterCore.queuePollWith idle core origin now) := by
  refine h.setState (h.queueFrameWith hidle hcore ⟨fun _ => hpoll, fun htoken => ?_⟩ _ _ now) _
  cases htoken

theorem queuePollWith_next (hcore : P core)
    (hnext : core.pollStation = nextAddr core.config.station core.config.maxMaster)
    (origin : Origin) (now : Instant) : P (MasterCore.queuePollWith idle core origin now) := by
  refine h.queuePollWith hidle hcore (fun hstation hmax => ?_) origin now
  rw [hnext]
  exact ⟨nextAddr_le _ _, nextAddr_ne hstation hmax⟩

theorem queueTokenWith (hcore : P core) (destination : UInt8) (origin : Origin) (now : Instant) :
    P (MasterCore.queueTokenWith idle core destination origin now) := by
  unfold MasterCore.queueTokenWith
  split_ifs with hown
  · refine h.queuePollWith_next hidle ?_ rfl origin now
    exact h.congr hcore rfl
  · have hframe : Addresses core.config (Frame.new .token destination core.config.station []) :=
      ⟨fun hpoll => (by cases hpoll), fun _ => hown⟩
    have hpassed := h.setState (h.queueFrameWith hidle hcore hframe .passToken origin now)
      .passToken
    generalize (MasterCore.queueFrameWith idle core .token destination [] .passToken origin
      now).setState .passToken = passed at hpassed ⊢
    exact h.congr hpassed rfl

theorem dequeueLoopWith (attempts : ℕ) (hcore : P core) (now : Instant) :
    P (MasterCore.dequeueLoopWith idle now attempts core).2 := by
  induction attempts generalizing core with
  | zero => exact hcore
  | succ attempts ih =>
    unfold MasterCore.dequeueLoopWith
    cases hkind : core.nextQueueKind now with
    | none => exact hcore
    | some kind =>
      dsimp only
      rcases hcall : QueueStorage.dequeueKind core.queues kind now npdu with ⟨result, queues⟩
      rcases result with refusal | _ | item
      · dsimp only
        exact ih (h.taken hcore hkind hcall fun item hitem => by cases hitem)
      · dsimp only
        exact h.taken hcore hkind hcall fun item hitem => by cases hitem
      · dsimp only
        by_cases hlong : npdu < item.npdu.length ∨ core.config.maxNpdu < item.npdu.length
        · rw [if_pos hlong]
          refine ih (h.congr (h.taken hcore hkind hcall fun other hother => ?_) rfl)
          obtain rfl := Option.some.inj (Except.ok.inj hother)
          exact hlong
        · rw [if_neg hlong]
          have hserved := h.served hcore hkind hcall hlong
          generalize hdata : dataFrameType _ _ = data
          obtain ⟨frameType, post⟩ := data
          have htype : frameType ≠ .pollForMaster ∧ frameType ≠ .token := by
            have hother := dataFrameType_other (decide (kind = .unicast ∧ 2 ≤ item.npdu.length ∧
              item.npdu.getD 1 0 &&& 4 ≠ 0)) (decide (maxStandardMpduData < item.npdu.length))
            rw [hdata] at hother
            exact hother
          have hframe : Addresses core.config (Frame.new frameType item.destination
              (counted { core with queues := queues } kind).config.station item.npdu) :=
            Addresses.other _ htype.1 htype.2
          generalize Frame.new frameType item.destination
            (counted { core with queues := queues } kind).config.station item.npdu = frame at hframe ⊢
          have hencoded := h.encode hserved frame
          have hconfig : (MasterCore.encode (counted { core with queues := queues } kind)
              frame).2.config = core.config := config_encode _ frame
          generalize counted { core with queues := queues } kind = served at hserved hencoded hconfig ⊢
          split
          · rename_i after hencode
            rw [hencode] at hencoded
            exact ih hencoded
          · rename_i after hencode
            rw [hencode] at hencoded hconfig
            have hframe' : Addresses after.config frame := hconfig ▸ hframe
            dsimp only
            exact h.sendEncodedWith hidle hencoded hframe' post .holder now

theorem dequeueAndSendWith (hcore : P core) (now : Instant) :
    P (MasterCore.dequeueAndSendWith idle core now).2 :=
  h.dequeueLoopWith hidle _ (h.expire now hcore) now

theorem doneWithTokenLoopWith (rounds : ℕ) (hcore : P core) (now : Instant) :
    P (MasterCore.doneWithTokenLoopWith idle now rounds core) := by
  induction rounds generalizing core with
  | zero => exact hcore
  | succ rounds ih =>
    unfold MasterCore.doneWithTokenLoopWith
    by_cases halone : !core.soleMaster ∧ core.nextStation = core.config.station
    · rw [if_pos halone]
      refine h.queuePollWith_next hidle ?_ rfl .holder now
      exact h.congr hcore rfl
    rw [if_neg halone]
    by_cases hcount : core.tokenCount < nPoll
    · rw [if_pos hcount]
      by_cases hsole : core.soleMaster = true
      · rw [if_pos hsole]
        have huse : P ({ core with tokenCount := increment8 core.tokenCount, frameCount := 0 }.setState
            .useToken) := by
          apply h.setState
          exact h.congr hcore rfl
        have hsent := h.dequeueAndSendWith hidle huse now
        generalize MasterCore.dequeueAndSendWith idle _ now = result at hsent ⊢
        rcases result with ⟨_ | _, after⟩
        · exact ih hsent
        · exact hsent
      · rw [if_neg hsole]
        apply h.queueTokenWith hidle
        exact h.congr hcore rfl
    rw [if_neg hcount]
    by_cases hround : nextAddr core.pollStation core.config.maxMaster = core.nextStation ∨
        nextAddr core.pollStation core.config.maxMaster = core.config.station
    · rw [if_pos hround]
      by_cases hsole : core.soleMaster = true
      · rw [if_pos hsole]
        refine h.queuePollWith_next hidle ?_ rfl .holder now
        exact h.congr hcore rfl
      · rw [if_neg hsole]
        apply h.queueTokenWith hidle
        exact h.congr hcore rfl
    · rw [if_neg hround]
      rw [not_or] at hround
      refine h.queuePollWith hidle ?_ (fun _ _ => ⟨nextAddr_le _ _, hround.2⟩) .holder now
      exact h.congr hcore rfl

theorem driveTokenWith (hcore : P core) (now : Instant) : P (MasterCore.driveTokenWith idle core now) := by
  unfold MasterCore.driveTokenWith
  by_cases hbusy : core.activeTransmit.isSome ∨ core.pendingSend.isSome
  · rw [if_pos hbusy]
    exact hcore
  rw [if_neg hbusy]
  by_cases hframes : core.frameCount < core.config.frameLimit
  · rw [if_pos hframes]
    have hsent := h.dequeueAndSendWith hidle hcore now
    generalize MasterCore.dequeueAndSendWith idle core now = result at hsent ⊢
    rcases result with ⟨_ | _, after⟩
    · exact h.doneWithTokenLoopWith hidle _ (h.setState hsent .doneWithToken) now
    · exact hsent
  · rw [if_neg hframes]
    exact h.doneWithTokenLoopWith hidle _ (h.setState hcore .doneWithToken) now

theorem useReceivedTokenWith (hcore : P core) (now : Instant) :
    P (MasterCore.useReceivedTokenWith idle core now) := by
  have hrecorded : P (core.record .tokenTaken) := h.record hcore rfl
  apply h.driveTokenWith hidle
  apply h.setState
  exact h.congr hrecorded rfl

theorem takePendingTokenWith (hcore : P core) (now : Instant) :
    P (MasterCore.takePendingTokenWith idle core now) := by
  unfold MasterCore.takePendingTokenWith
  split_ifs
  · apply h.useReceivedTokenWith hidle
    exact h.congr hcore rfl
  · exact hcore

end Open

theorem enterIdleRounds (rounds : ℕ) (hcore : P core) (now : Instant) :
    P (MasterCore.enterIdleRounds rounds core now) := by
  induction rounds generalizing core now with
  | zero => exact h.goIdle hcore
  | succ rounds ih =>
    exact h.takePendingTokenWith (fun core now hcore => ih hcore now) (h.goIdle hcore) now

theorem enterIdle (core : MasterCore Q npdu) (now : Instant) (hcore : P core) :
    P (core.enterIdle now) := h.enterIdleRounds 2 hcore now

theorem dropPending (hcore : P core) (now : Instant) : P (core.dropPending now) :=
  h.dropPendingWith h.enterIdle hcore now

theorem dispatchPendingSend (hcore : P core) (now : Instant) : P (core.dispatchPendingSend now) :=
  h.dispatchPendingSendWith h.enterIdle hcore now

theorem queueFrame (hcore : P core) {post : PostTransmit} {origin : Origin}
    (hpoll : frameType ≠ .pollForMaster) (htoken : frameType ≠ .token) (now : Instant) :
    P (core.queueFrame frameType destination data post origin now) :=
  h.queueFrameWith h.enterIdle hcore (Addresses.other _ hpoll htoken) _ _ now

theorem queueToken (hcore : P core) (destination : UInt8) (origin : Origin) (now : Instant) :
    P (core.queueToken destination origin now) :=
  h.queueTokenWith h.enterIdle hcore destination origin now

theorem driveToken (hcore : P core) (now : Instant) : P (core.driveToken now) :=
  h.driveTokenWith h.enterIdle hcore now

theorem useReceivedToken (hcore : P core) (now : Instant) : P (core.useReceivedToken now) :=
  h.useReceivedTokenWith h.enterIdle hcore now

theorem takePendingToken (hcore : P core) (now : Instant) : P (core.takePendingToken now) :=
  h.takePendingTokenWith h.enterIdle hcore now

theorem queueGenerated (hcore : P core) (start now : Instant) :
    P ((core.generated start).queuePoll .noToken now) := by
  have hrecorded : P (core.record .tokenGenerated) := h.record hcore rfl
  obtain ⟨hshown, hpoll⟩ := core.shown_generated start
  generalize core.generated start = generated at hshown hpoll ⊢
  have hconfig : generated.config = core.config := congrArg Shown.config hshown
  refine h.queuePollWith_next h.enterIdle (h.congr hrecorded hshown) ?_ .noToken now
  rw [hpoll, hconfig]

theorem wakeAt (hcore : P core) (deadline : Instant) : P (core.wakeAt deadline) :=
  h.congr hcore rfl

theorem generateTokenIfInSlot (hcore : P core) (now : Instant) :
    P (core.generateTokenIfInSlot now) := by
  unfold MasterCore.generateTokenIfInSlot
  dsimp only
  split_ifs
  · exact h.wakeAt hcore _
  · exact h.queueGenerated hcore _ now

theorem enterNoToken (hcore : P core) (now : Instant) : P (core.enterNoToken now) := by
  apply h.generateTokenIfInSlot
  exact h.congr (h.setState hcore .noToken) rfl

theorem passTokenTimeout (hcore : P core) (now : Instant) : P (core.passTokenTimeout now) := by
  unfold MasterCore.passTokenTimeout
  by_cases hheard : nMinOctets < core.eventCount
  · rw [if_pos hheard]
    exact h.congr (h.setState hcore .idle) rfl
  rw [if_neg hheard]
  by_cases hretry : core.retryTokenCount < nRetryToken
  · rw [if_pos hretry]
    apply h.queueToken
    exact h.congr hcore rfl
  rw [if_neg hretry]
  refine h.queuePollWith h.enterIdle ?_ (fun hstation hmax => ?_) .passToken now
  · exact h.congr hcore rfl
  · split_ifs with hself
    · exact ⟨nextAddr_le _ _, nextAddr_ne hstation hmax⟩
    · exact ⟨nextAddr_le _ _, hself⟩

theorem pollTimeout (hcore : P core) (now : Instant) : P (core.pollTimeout now) := by
  unfold MasterCore.pollTimeout
  by_cases hsole : core.soleMaster = true
  · rw [if_pos hsole]
    apply h.driveToken
    apply h.setState
    exact h.congr hcore rfl
  rw [if_neg hsole]
  by_cases hknown : core.nextStation ≠ core.config.station
  · rw [if_pos hknown]
    apply h.queueToken
    exact h.congr hcore rfl
  rw [if_neg hknown]
  by_cases hlast : nextAddr core.pollStation core.config.maxMaster = core.config.station
  · rw [if_pos hlast]
    apply h.driveToken
    apply h.setState
    exact h.congr hcore rfl
  · rw [if_neg hlast]
    refine h.queuePollWith h.enterIdle ?_ (fun _ _ => ⟨nextAddr_le _ _, hlast⟩) .nextPoll now
    exact h.congr hcore rfl

theorem takeSuccessor (hcore : P core) (source : UInt8) (now : Instant) :
    P (core.takeSuccessor source now) := by
  apply h.queueToken
  exact h.congr hcore rfl

/-! ## Received frames -/

theorem deliver (hcore : P core) (frame : Frame) (requestId : Option RequestId) :
    P (core.deliver frame requestId).2 := by
  unfold MasterCore.deliver
  split
  · exact h.congr hcore rfl
  · exact h.congr hcore rfl

theorem frameWhileBusy (hcore : P core) (frame : Frame) (keepToken : Bool) :
    P (core.frameWhileBusy frame keepToken) := by
  unfold MasterCore.frameWhileBusy
  dsimp only
  split_ifs
  · exact h.deliver hcore frame none
  · exact h.deliver hcore frame none
  · exact h.deliver hcore frame none
  · exact h.congr hcore rfl
  · exact h.congr hcore rfl
  · exact h.congr hcore rfl

theorem pendingActivity (hcore : P core) (now : Instant) : P (core.pendingActivity now) := by
  unfold MasterCore.pendingActivity
  cases hsend : core.pendingSend with
  | none => exact hcore
  | some pending =>
    dsimp only
    have hretimed := h.retime (satAdd core.lastActivity core.config.tTurnaround) hcore hsend
    split_ifs
    · exact h.dropPending hcore now
    · exact h.congr hretimed rfl
    · exact hretimed

theorem frameWhilePending (hcore : P core) (frame : Frame) (now : Instant) :
    P (core.frameWhilePending frame now).2 := by
  unfold MasterCore.frameWhilePending
  split
  · exact hcore
  · dsimp only
    split
    · exact h.frameWhileBusy hcore frame true
    · split_ifs
      · exact h.takeSuccessor (h.discardPending hcore) _ now
      · exact h.frameWhileBusy hcore frame false
    · exact h.frameWhileBusy hcore frame false
    · exact h.dropPending hcore now
    · exact h.dropPending hcore now

theorem freeActivity (hcore : P core) (now : Instant) : P (core.freeActivity now) := by
  unfold MasterCore.freeActivity
  split
  · exact h.idleFrom hcore now
  · exact h.congr hcore rfl
  · split_ifs
    · exact h.idleFrom hcore now
    · exact h.congr hcore rfl
  · exact h.congr hcore rfl
  · exact h.congr hcore rfl
  · exact hcore
  · exact hcore
  · exact hcore

theorem noteBusActivity (hcore : P core) (now : Instant) (events : ℕ) :
    P (core.noteBusActivity now events) := by
  have hnoted : P (core.noted now events) := h.congr hcore rfl
  unfold MasterCore.noteBusActivity
  dsimp only
  split_ifs
  · exact h.pendingActivity hnoted now
  · exact h.freeActivity hnoted now

theorem answerRequest (hcore : P core) (request : PendingRequest)
    (hpoll : frameType ≠ .pollForMaster) (htoken : frameType ≠ .token) (payload : List UInt8)
    (now : Instant) : P (core.answerRequest request frameType payload now).2 :=
  h.congr (h.queueFrame hcore hpoll htoken now) rfl

theorem completeRequest (hcore : P core) (id : RequestId) (decision : ReplyDecision)
    (now : Instant) : P (core.completeRequest id decision now).2 := by
  have hobserved : P (core.observeTime now) := h.congr hcore rfl
  unfold MasterCore.completeRequest
  dsimp only
  generalize core.observeTime now = core at hobserved ⊢
  split
  · exact hobserved
  · rename_i request _
    by_cases hstale : request.id ≠ id
    · rw [if_pos hstale]
      exact hobserved
    rw [if_neg hstale]
    by_cases hlate : request.window.giveUp ≤ core.lastNow
    · rw [if_pos hlate]
      refine h.enterIdle _ _ (h.recordExpiredRequest ?_)
      exact h.congr hobserved rfl
    rw [if_neg hlate]
    cases decision with
    | data data =>
      dsimp only
      split_ifs
      · exact hobserved
      · exact hobserved
      · exact h.answerRequest hobserved _ (by decide) (by decide) _ _
      · exact h.answerRequest hobserved _ (by decide) (by decide) _ _
    | postponed => exact h.answerRequest hobserved _ (by decide) (by decide) _ _
    | abandoned =>
      refine h.enterIdle _ _ (h.record ?_ rfl)
      exact h.congr hobserved rfl

theorem openRequest (hcore : P core) (request : PendingRequest) : P (core.openRequest request) := by
  have hrecorded : P (core.record (.owed request.source true)) := h.record hcore rfl
  refine h.congr (h.setState (h.congr hrecorded ?_) .answerDataRequest) rfl
  rfl

theorem beginRequest (hcore : P core) (frame : Frame) (now : Instant) :
    P (core.beginRequest frame now) := by
  have hdelivered := h.deliver (h.openRequest hcore (core.requestOf frame now)) frame
    (some (core.requestOf frame now).id)
  unfold MasterCore.beginRequest
  dsimp only
  generalize MasterCore.deliver _ frame _ = result at hdelivered ⊢
  rcases result with ⟨_ | _, after⟩
  · exact h.completeRequest hdelivered _ .postponed now
  · exact hdelivered

theorem replyDeadline (hcore : P core) (now : Instant) : P (core.replyDeadline now) := by
  unfold MasterCore.replyDeadline
  split
  · exact h.enterIdle core now hcore
  · exact h.completeRequest hcore _ .postponed now

theorem processWaitForReply (hcore : P core) (frame : Frame) (now : Instant) :
    P (core.processWaitForReply frame now) := by
  unfold MasterCore.processWaitForReply
  dsimp only
  split_ifs
  · exact h.idleFrom hcore now
  · exact h.driveToken (h.setState (h.deliver hcore frame none) _) now
  · exact h.driveToken (h.setState hcore _) now

theorem invalidFrameEvent (hcore : P core) (now : Instant) : P (core.invalidFrameEvent now) := by
  unfold MasterCore.invalidFrameEvent
  split_ifs
  · exact hcore
  · exact h.driveToken (h.setState hcore _) now
  · exact h.pollTimeout hcore now
  · exact hcore

theorem receiveFrame (hcore : P core) (frame : Frame) (now : Instant) :
    P (core.receiveFrame frame now) := by
  unfold MasterCore.receiveFrame
  dsimp only
  split_ifs
  · exact h.useReceivedToken hcore now
  · exact h.queueFrame (h.record hcore rfl) (by decide) (by decide) now
  · exact h.deliver hcore frame none
  · exact h.deliver hcore frame none
  · exact h.beginRequest hcore frame now
  · exact h.queueFrame (h.record hcore rfl) (by decide) (by decide) now
  · exact h.deliver hcore frame none
  · exact hcore

theorem processFreeFrame (hcore : P core) (frame : Frame) (now : Instant) :
    P (core.processFreeFrame frame now) := by
  unfold MasterCore.processFreeFrame
  by_cases hbusy : core.pendingRequest.isSome ∨ core.state = .answerDataRequest
  · rw [if_pos hbusy]
    exact h.frameWhileBusy hcore frame true
  rw [if_neg hbusy]
  have hheard : P (if core.state = .passToken then core.idleFrom now else core) := by
    split_ifs
    · exact h.idleFrom hcore now
    · exact hcore
  dsimp only
  generalize (if core.state = .passToken then core.idleFrom now else core) = core at hheard ⊢
  split_ifs
  · exact h.processWaitForReply hheard frame now
  · exact h.takeSuccessor hheard _ now
  · exact h.idleFrom hheard now
  · exact h.receiveFrame hheard frame now

theorem processFrame (hcore : P core) (frame : Frame) (now : Instant) :
    P (core.processFrame frame now) := by
  unfold MasterCore.processFrame
  have hcounted : P (if frame.header.source = (core.mapCounters .recordFrameReceived).config.station
      then (core.mapCounters .recordFrameReceived).mapCounters .recordOwnAddressFrame
      else core.mapCounters .recordFrameReceived) := by
    split_ifs
    · exact h.congr hcore rfl
    · exact h.congr hcore rfl
  have hpending := h.frameWhilePending hcounted frame now
  dsimp only
  split
  · rename_i after hresult
    rw [hresult] at hpending
    exact hpending
  · rename_i after hresult
    rw [hresult] at hpending
    exact h.processFreeFrame hpending frame now

theorem abortPartialIfLate (hcore : P core) (now : Instant) :
    P (core.abortPartialIfLate now).2 := by
  unfold MasterCore.abortPartialIfLate
  split_ifs with hlate
  · dsimp only
    split_ifs
    · exact h.congr hcore rfl
    · exact h.congr hcore rfl
  · exact hcore

theorem dropCandidate (hcore : P core) (error : FrameError) (destination : Option UInt8)
    (now : Instant) : P (core.dropCandidate error destination now) := by
  unfold MasterCore.dropCandidate
  split_ifs
  · apply h.invalidFrameEvent
    exact h.congr hcore rfl
  · exact hcore

theorem decodeEvent (hcore : P core) (now : Instant) (event : DecodeEvent) :
    P (core.decodeEvent now event) := by
  unfold MasterCore.decodeEvent
  split
  · exact hcore
  · exact hcore
  · split_ifs
    · exact h.dropCandidate hcore _ _ now
    · exact h.processFrame hcore _ now
  · exact h.dropCandidate hcore _ _ now
  · exact h.dropCandidate hcore _ _ now

theorem decodeOctet (hcore : P core) (byte : UInt8) (now : Instant) :
    P (core.decodeOctet byte now) := by
  unfold MasterCore.decodeOctet
  generalize core.decoder.feedSlice [byte] = result
  obtain ⟨decoder, events⟩ := result
  have hevents : P (events.foldl (fun core event => core.decodeEvent now event) core) := by
    induction events generalizing core with
    | nil => exact hcore
    | cons event events ih => exact ih (h.decodeEvent hcore now event)
  exact h.congr hevents rfl

/-! ## Calls -/

theorem observeTime (hcore : P core) (now : Instant) : P (core.observeTime now) :=
  h.congr hcore rfl

theorem mapCounters (hcore : P core) (f : MstpCounters → MstpCounters) : P (core.mapCounters f) :=
  h.congr hcore rfl

theorem withdrawTransmit (hcore : P core) (id : TransmitId) : P (core.withdrawTransmit id) :=
  h.congr hcore rfl

theorem octetTaken (hcore : P core) (byte : UInt8) (last : Option Instant) (now : Instant) :
    P { { core with lastOctet := last }.decodeOctet byte now with
      parserPartial := ({ core with lastOctet := last }.decodeOctet byte now).decoder.phase ≠ .sync } := by
  have hfed : P { core with lastOctet := last } := h.congr hcore rfl
  have hdecoded := h.decodeOctet hfed byte now
  generalize MasterCore.decodeOctet { core with lastOctet := last } byte now = decoded
    at hdecoded ⊢
  exact h.congr hdecoded rfl

theorem onOctet (hcore : P core) (byte : UInt8) (now : Instant) : P (core.onOctet byte now) := by
  have hobserved := h.observeTime hcore now
  unfold MasterCore.onOctet
  dsimp only
  generalize core.observeTime now = core at hobserved ⊢
  by_cases htransmitting : core.transmitting = true
  · rw [if_pos htransmitting]
    exact hobserved
  rw [if_neg htransmitting]
  have hnoted := h.noteBusActivity (h.abortPartialIfLate hobserved core.lastNow) core.lastNow 1
  split_ifs
  · exact h.octetTaken (h.invalidFrameEvent hnoted core.lastNow) byte _ core.lastNow
  · exact h.octetTaken hnoted byte _ core.lastNow

theorem onValidatedFrame (hcore : P core) (frame : Frame) (now : Instant) :
    P (core.onValidatedFrame frame now) := by
  have hobserved := h.observeTime hcore now
  unfold MasterCore.onValidatedFrame
  dsimp only
  split_ifs
  · exact h.mapCounters hcore _
  · exact hobserved
  · exact h.processFrame (h.noteBusActivity hobserved _ 1) frame _

theorem onInvalidFrame (hcore : P core) (now : Instant) : P (core.onInvalidFrame now) := by
  have hobserved := h.observeTime hcore now
  unfold MasterCore.onInvalidFrame
  dsimp only
  split_ifs
  · exact hobserved
  · exact h.invalidFrameEvent (h.mapCounters (h.noteBusActivity hobserved _ 1) _) _

theorem onHostActivity (hcore : P core) (octets : ℕ) (now : Instant) :
    P (core.onHostActivity octets now) := by
  have hobserved := h.observeTime hcore now
  unfold MasterCore.onHostActivity
  dsimp only
  split_ifs
  · exact hobserved
  · exact h.noteBusActivity hobserved _ _

theorem onReceiveError (hcore : P core) (error : ReceiveError) (now : Instant) :
    P (core.onReceiveError error now) := by
  have hobserved := h.observeTime hcore now
  unfold MasterCore.onReceiveError
  dsimp only
  generalize core.observeTime now = core at hobserved ⊢
  by_cases htransmitting : core.transmitting = true
  · rw [if_pos htransmitting]
    exact hobserved
  rw [if_neg htransmitting]
  have hnoted := h.noteBusActivity (h.mapCounters hobserved (·.recordReceiveError error))
    core.lastNow 1
  generalize MasterCore.noteBusActivity (core.mapCounters (·.recordReceiveError error)) core.lastNow 1
    = noted at hnoted ⊢
  have hreset : P { noted with decoder := noted.decoder.reset, parserPartial := false } :=
    h.congr hnoted rfl
  split_ifs
  · exact h.invalidFrameEvent (h.mapCounters hreset _) _
  · exact hreset

theorem abortLate (hcore : P core) (now : Instant) : P (core.abortLate now) := by
  have haborted := h.abortPartialIfLate hcore now
  unfold MasterCore.abortLate
  generalize core.abortPartialIfLate now = result at haborted ⊢
  rcases result with ⟨_ | _, after⟩
  · exact haborted
  · exact h.invalidFrameEvent haborted now

theorem onSilence (hcore : P core) (now : Instant) : P (core.onSilence now) :=
  h.abortLate (h.observeTime hcore now) _

theorem confirmStart (hcore : P core) (tx : ActiveTransmit) {pending : PendingSend}
    (hsend : core.pendingSend = some pending) (now : Instant) :
    P (core.confirmStart tx pending now) := by
  have haborted := h.abortPartialIfLate hcore now
  have hkept : (core.abortPartialIfLate now).2.pendingSend = some pending := by
    rw [← hsend]
    unfold MasterCore.abortPartialIfLate
    split_ifs
    · dsimp only
      split_ifs <;> rfl
    · rfl
  unfold MasterCore.confirmStart
  dsimp only
  generalize (core.abortPartialIfLate now).2 = core at haborted hkept ⊢
  split_ifs
  · have hreset : P ({ core with decoder := core.decoder.reset, parserPartial := false }.mapCounters
        .recordFrameAbort) := h.congr haborted rfl
    exact h.congr (h.confirm core.soleMaster now hreset hkept) rfl
  · exact h.congr (h.confirm core.soleMaster now haborted hkept) rfl

theorem onTransmitStarted (hcore : P core) (id : TransmitId) (now : Instant) :
    P (core.onTransmitStarted id now).2 := by
  have hobserved := h.observeTime hcore now
  unfold MasterCore.onTransmitStarted
  dsimp only
  generalize core.observeTime now = core at hobserved ⊢
  cases hactive : core.activeTransmit with
  | none => exact hobserved
  | some tx =>
    dsimp only
    by_cases hid : tx.id ≠ id
    · rw [if_pos hid]
      exact hobserved
    rw [if_neg hid]
    by_cases hstarted : tx.started = true
    · rw [if_pos hstarted]
      exact h.mapCounters hobserved _
    rw [if_neg hstarted]
    by_cases hqueued : core.actions.transmitQueued id = true
    · rw [if_pos hqueued]
      exact h.mapCounters hobserved _
    rw [if_neg hqueued]
    cases hsend : core.pendingSend with
    | none => exact hobserved
    | some pending =>
      dsimp only
      by_cases hlate : (pending.origin.window.any fun window =>
          decide (window.giveUp ≤ core.lastNow)) = true
      · rw [if_pos hlate]
        exact h.dropPending hobserved _
      rw [if_neg hlate]
      by_cases hearly : core.lastNow < pending.earliest
      · rw [if_pos hearly]
        have hwithdrawn := h.mapCounters (h.withdrawTransmit hobserved id) .recordDeferredStart
        split_ifs
        · exact h.dropPending hwithdrawn _
        · exact h.wakeAt hwithdrawn _
      rw [if_neg hearly]
      split_ifs
      · exact h.confirmStart (h.mapCounters hobserved _) tx hsend _
      · exact h.confirmStart hobserved tx hsend _

theorem afterTransmit (hcore : P core) (post : PostTransmit) (now : Instant) :
    P (core.afterTransmit post now) := by
  cases post with
  | idle => exact h.enterIdle core now hcore
  | continueToken => exact h.driveToken (h.setState hcore _) now
  | waitForReply => exact h.wakeAt (h.setState hcore _) _
  | passToken =>
    apply h.mapCounters
    apply h.wakeAt
    exact h.congr (h.setState hcore .passToken) rfl
  | pollForMaster => exact h.wakeAt (h.setState hcore _) _

theorem onTransmitComplete (hcore : P core) (id : TransmitId) (now : Instant) :
    P (core.onTransmitComplete id now) := by
  have hobserved := h.observeTime hcore now
  unfold MasterCore.onTransmitComplete
  dsimp only
  generalize core.observeTime now = core at hobserved ⊢
  split
  · exact hobserved
  · split_ifs
    · exact hobserved
    · exact h.mapCounters hobserved _
    · apply h.afterTransmit
      exact h.congr hobserved rfl

theorem onTransmitAborted (hcore : P core) (id : TransmitId) (reason : TransmitFailure)
    (now : Instant) : P (core.onTransmitAborted id reason now) := by
  have hobserved := h.observeTime hcore now
  unfold MasterCore.onTransmitAborted
  dsimp only
  generalize core.observeTime now = core at hobserved ⊢
  split
  · exact hobserved
  · have hforgot := h.forgetPending (h.withdrawTransmit
      (h.mapCounters hobserved (·.recordTransmitFailure reason)) id)
    split_ifs
    · exact hobserved
    · refine h.takePendingToken (h.idleFrom ?_ _) _
      exact h.congr hforgot rfl
    · exact h.takePendingToken (h.idleFrom hforgot _) _

theorem serviceDeadline (hcore : P core) (now : Instant) : P (core.serviceDeadline now) := by
  unfold MasterCore.serviceDeadline
  split
  · split_ifs
    · exact h.onTransmitAborted hcore _ _ now
    · exact hcore
  · split_ifs
    · exact h.dispatchPendingSend hcore now
    · split
      · exact h.enterNoToken hcore now
      · exact h.generateTokenIfInSlot hcore now
      · apply h.driveToken
        apply h.setState
        exact h.congr hcore rfl
      · exact h.replyDeadline hcore now
      · exact h.passTokenTimeout hcore now
      · exact h.pollTimeout hcore now
      · exact h.driveToken hcore now
      · exact h.driveToken hcore now

theorem serviceIfDue (hcore : P core) (now : Instant) : P (core.serviceIfDue now) := by
  unfold MasterCore.serviceIfDue
  split
  · exact hcore
  · split_ifs
    · exact hcore
    · exact h.serviceDeadline (h.mapCounters hcore _) now

theorem onDeadline (hcore : P core) (now : Instant) : P (core.onDeadline now) :=
  h.serviceIfDue (h.abortLate (h.observeTime hcore now) _) _

theorem enqueueNpdu (hcore : P core) (destination : UInt8) (octets : List UInt8)
    (priority : NetworkPriority) (now : Instant) :
    P (core.enqueueNpdu destination octets priority now).2 := by
  unfold MasterCore.enqueueNpdu
  split_ifs
  · exact h.congr hcore rfl
  · exact h.enqueue destination octets priority _ _ hcore

theorem takeCountersCall (hcore : P core) : P core.takeCounters.2 := by
  have hrecorded : P (core.record .countersTaken) := h.record hcore rfl
  exact h.congr (h.takeCounters .broadcast (h.takeCounters .unicast hrecorded)) rfl

theorem step (hcore : P core) (call : Call) : P (core.step call) := by
  cases call with
  | onOctet byte now => exact h.onOctet hcore byte now
  | onValidatedFrame frame now => exact h.onValidatedFrame hcore frame now
  | onInvalidFrame now => exact h.onInvalidFrame hcore now
  | onHostActivity octets now => exact h.onHostActivity hcore octets now
  | onReceiveError error now => exact h.onReceiveError hcore error now
  | onSilence now => exact h.onSilence hcore now
  | onDeadline now => exact h.onDeadline hcore now
  | onTransmitStarted id now => exact h.onTransmitStarted hcore id now
  | onTransmitComplete id now => exact h.onTransmitComplete hcore id now
  | onTransmitAborted id reason now => exact h.onTransmitAborted hcore id reason now
  | completeRequest id decision now => exact h.completeRequest hcore id decision now
  | enqueueNpdu destination npdu priority now => exact h.enqueueNpdu hcore destination npdu priority now
  | pollAction => exact h.congr hcore rfl
  | takeCounters => exact h.takeCountersCall hcore

theorem run (hcore : P core) (calls : List Call) : P (core.run calls) := by
  induction calls generalizing core with
  | nil => exact hcore
  | cons call calls ih => exact ih (h.step hcore call)

end Preserved

end MasterCore

end RustyBacnet.Mstp
