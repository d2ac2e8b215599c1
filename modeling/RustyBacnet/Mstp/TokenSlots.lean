import RustyBacnet.Lib.CyclicWindows
import RustyBacnet.Mstp.CoreLaws
import RustyBacnet.Time.Divide

/-!
# When a station generates a token

After T_no_token of silence each station has a slot of its own in which it may generate a token, and
another each cycle after it. `generate_token_if_in_slot` finds the slot `now` falls in, or the next
one, with saturating arithmetic and a software remainder; away from the end of time it is exact
(`generationSlot_eq`). So a Poll For Master is queued in the station's slots and at no other time
(`token_generated_in_slots`), and never by two stations that saw the line fall silent together.
-/

namespace RustyBacnet.Mstp

open CyclicWindows

/-- No time the station works out from `now` saturates. -/
def FarFromEnd (now : Instant) : Prop := now + fromSecs 2 ≤ maxInstant

namespace MasterCore

variable {Q : Type} {npdu : ℕ} {core : MasterCore Q npdu} {now : Instant}

def slotCycle (core : MasterCore Q npdu) : Duration := tSlot * (core.config.maxMaster.toNat + 1)

/-- The start of the silence's first slot of this station, without saturation. -/
def firstWindow (core : MasterCore Q npdu) : Instant :=
  core.lastActivity + tNoToken + tSlot * core.config.station.toNat

/-- One of this station's slots of the silence is open. -/
def InSlot (core : MasterCore Q npdu) (now : Instant) : Prop :=
  InWindow core.firstWindow core.slotCycle tSlot now

/-- The addresses of a core, as validation leaves them. -/
structure Addressed (core : MasterCore Q npdu) : Prop where
  station : core.config.station ≤ core.config.maxMaster
  maxMaster : core.config.maxMaster ≤ Mstp.maxMaster

theorem Addressed.bounds (h : core.Addressed) :
    core.config.station.toNat ≤ core.config.maxMaster.toNat ∧
      core.config.maxMaster.toNat ≤ 127 :=
  ⟨UInt8.le_iff_toNat_le.mp h.station, UInt8.le_iff_toNat_le.mp h.maxMaster⟩

/-- The slot the source finds, with its remainder by binary division. -/
def generationSlotByDivision (core : MasterCore Q npdu) (now : Instant) : Instant :=
  let cycle := satMul tSlot (core.config.maxMaster.toNat + 1)
  if satAdd core.firstSlot tSlot ≤ now then
    match checkedRem (now - core.firstSlot) cycle with
    | some offset => if tSlot ≤ offset then satAdd (now - offset) cycle else now - offset
    | none => core.firstSlot
  else core.firstSlot

/-! ## Times far from the end -/

section Times

variable {activity station members time : ℕ}

theorem cycle_le (h : members ≤ 128) : tSlot * members ≤ 1280000000 :=
  Nat.mul_le_mul_left tSlot h

theorem satMul_tSlot (h : members ≤ 128) : satMul tSlot members = tSlot * members :=
  min_eq_left (Nat.le_trans (cycle_le h) (by decide))

theorem firstSlot_sum {slots : ℕ} (hslots : slots ≤ 1280000000) (hpast : activity ≤ time) :
    activity + 500000000 + slots + 10000000 ≤ time + 2000000000 := by
  omega

/-- The first slot of a silence not after `time`, and its end. -/
theorem firstSlot_lt (hstation : station ≤ 127) (hfar : FarFromEnd time) (hpast : activity ≤ time) :
    satAdd (satAdd activity tNoToken) (satMul tSlot station) = activity + tNoToken + tSlot * station ∧
      activity + tNoToken + tSlot * station + tSlot ≤ maxInstant := by
  have hslots := cycle_le (Nat.le_succ_of_le hstation)
  have hend : activity + tNoToken + tSlot * station + tSlot ≤ maxInstant :=
    Nat.le_trans (firstSlot_sum hslots hpast) hfar
  have hfirst := Nat.le_of_add_right_le hend
  refine ⟨?_, hend⟩
  rw [satMul_tSlot (Nat.le_succ_of_le hstation), satAdd_eq (Nat.le_of_add_right_le hfirst),
    satAdd_eq hfirst]

theorem lt_satAdd_noToken (hfar : FarFromEnd time) : time < satAdd time tNoToken := by
  have hshort : tNoToken ≤ fromSecs 2 := by decide
  have hpos : 0 < tNoToken := by decide
  rw [satAdd_eq (Nat.le_trans (Nat.add_le_add_left hshort time) hfar)]
  exact Nat.lt_add_of_pos_right hpos

/-- In a slot, the one found has opened; outside them, it is the next to open. -/
theorem slot_spec {first cycle : ℕ} (hslot : tSlot ≤ cycle) (hfirst : first + tSlot ≤ maxInstant)
    (hlate : time + cycle ≤ maxInstant) :
    ∀ found, found = (if satAdd first tSlot ≤ time then
        let offset := (time - first) % cycle
        if tSlot ≤ offset then satAdd (time - offset) cycle else time - offset
      else first) →
    (InWindow first cycle tSlot time → found ≤ time) ∧
    (¬ InWindow first cycle tSlot time → time < found ∧
      IsLeast (LaterStarts first cycle time) found) := by
  intro found hfound
  rw [satAdd_eq hfirst] at hfound
  by_cases hclosed : first + tSlot ≤ time
  · have hopened : first ≤ time := Nat.le_of_add_right_le hclosed
    have hle := Nat.mod_le (time - first) cycle
    rw [if_pos hclosed] at hfound
    rw [inWindow_iff hslot hopened]
    by_cases hoffset : tSlot ≤ (time - first) % cycle
    · rw [if_pos hoffset, satAdd_eq (by omega)] at hfound
      have hcycle : 0 < cycle := Nat.lt_of_lt_of_le (by decide) hslot
      have hnext := isLeast_next hcycle hopened
      rw [← hfound] at hnext
      exact ⟨fun hin => absurd hin (Nat.not_lt.mpr hoffset), fun _ => ⟨hnext.1.1, hnext⟩⟩
    · rw [if_neg hoffset] at hfound
      exact ⟨fun _ => by omega, fun hout => absurd (Nat.not_le.mp hoffset) hout⟩
  · rw [if_neg hclosed] at hfound
    rw [hfound]
    by_cases hopened : first ≤ time
    · refine ⟨fun _ => hopened, fun hout => absurd ⟨0, ?_⟩ hout⟩
      omega
    · have hbefore : time < first := Nat.not_le.mp hopened
      exact ⟨fun hin => absurd hin (not_inWindow hbefore),
        fun _ => ⟨hbefore, isLeast_first hbefore⟩⟩

end Times

theorem Addressed.satMul_cycle (h : core.Addressed) :
    satMul tSlot (core.config.maxMaster.toNat + 1) = core.slotCycle :=
  satMul_tSlot (Nat.succ_le_succ h.bounds.2)

theorem Addressed.firstSlot_eq (h : core.Addressed) (hfar : FarFromEnd now)
    (hpast : core.lastActivity ≤ now) :
    core.firstSlot = core.firstWindow ∧ core.firstWindow + tSlot ≤ maxInstant :=
  firstSlot_lt (h.bounds.1.trans h.bounds.2) hfar hpast

theorem generationSlot_eq_division (h : core.Addressed) (hnow : now ≤ maxInstant) :
    core.generationSlot now = core.generationSlotByDivision now := by
  have hrem : checkedRem (now - core.firstSlot) (satMul tSlot (core.config.maxMaster.toNat + 1))
      = some ((now - core.firstSlot) % satMul tSlot (core.config.maxMaster.toNat + 1)) := by
    apply checkedRem_eq
    · exact Nat.lt_of_le_of_lt (Nat.le_trans (Nat.sub_le _ _) hnow) (by decide)
    · rw [h.satMul_cycle]
      exact Nat.ne_of_gt (Nat.mul_pos (by decide) (Nat.succ_pos _))
  unfold generationSlot generationSlotByDivision
  dsimp only
  rw [hrem]

theorem generationSlot_spec (h : core.Addressed) (hfar : FarFromEnd now)
    (hpast : core.lastActivity ≤ now) :
    (core.InSlot now → core.generationSlot now ≤ now) ∧
    (¬ core.InSlot now → now < core.generationSlot now ∧
      IsLeast (LaterStarts core.firstWindow core.slotCycle now) (core.generationSlot now)) := by
  obtain ⟨hfirst, hwindow⟩ := h.firstSlot_eq hfar hpast
  have hcycle : core.slotCycle ≤ 1280000000 := cycle_le (Nat.succ_le_succ h.bounds.2)
  have hlate : now + core.slotCycle ≤ maxInstant :=
    Nat.le_trans (Nat.add_le_add_left (Nat.le_trans hcycle (by decide)) now) hfar
  refine slot_spec (Nat.le_mul_of_pos_right _ (Nat.succ_pos _)) hwindow hlate _ ?_
  unfold generationSlot
  rw [hfirst, h.satMul_cycle]
  rfl

/-! ## The poll that generates a token -/

theorem Addressed.station_ne (h : core.Addressed) : core.config.station ≠ broadcastMac := by
  intro heq
  have hle := h.bounds.1.trans h.bounds.2
  rw [heq] at hle
  exact absurd hle (by decide)

theorem frameRoom_pos (npdu : ℕ) : dataOffset ≤ frameRoom npdu := by
  unfold frameRoom
  have hoffset : dataOffset = 8 := rfl
  have hstandard : maxStandardFrameLength = 511 := rfl
  have hpreamble : preamble.length + headerLength = 8 := rfl
  split_ifs <;> omega

theorem sendLimit_noToken (core : MasterCore Q npdu) (now : Instant) :
    core.sendLimit .noToken now = satAdd now tNoToken := rfl

theorem setState_keeps (core : MasterCore Q npdu) {state : MasterState} (h : state ≠ .idle) :
    (core.setState state).history = core.history ∧
      (core.setState state).pendingSend = core.pendingSend := by
  unfold setState
  rw [if_neg h]
  split_ifs
  · exact ⟨rfl, rfl⟩
  · exact ⟨rfl, rfl⟩

theorem Addressed.encode_poll (h : core.Addressed)
    (hroom : frameRoom npdu ≤ core.actions.frame.length) (destination : UInt8) :
    ∃ actions, core.encode (Frame.new .pollForMaster destination core.config.station [])
      = (true, { core with actions := actions }) := by
  set poll := Frame.new .pollForMaster destination core.config.station []
  have hheader : checkHeaderFields poll.header.frameType poll.header.source poll.lengthField
      = .ok () :=
    Frame.checkHeaderFields_ok.mpr ⟨h.station_ne, Nat.zero_le _⟩
  have hchecked : poll.checkedLength = .ok 0 := Frame.checkedLength_ok hheader (.inr rfl) rfl
  have hinto := Frame.encodeInto_ok hchecked ((frameRoom_pos npdu).trans hroom)
  unfold encode ActionQueue.encodeFrame ActionQueue.debugAssert
  dsimp only
  rw [hinto]
  exact ⟨_, rfl⟩

section Open

variable {idle : MasterCore Q npdu → Instant → MasterCore Q npdu}

theorem dispatchPendingSendWith_waits {pending : PendingSend}
    (hpending : core.pendingSend = some pending) (hlimit : now < pending.limit) :
    (dispatchPendingSendWith idle core now).pendingSend = some pending ∧
      (dispatchPendingSendWith idle core now).history = core.history := by
  unfold dispatchPendingSendWith
  rw [hpending]
  dsimp only
  rw [if_neg (Nat.not_le.mpr hlimit)]
  split_ifs
  · exact ⟨hpending, rfl⟩
  · exact ⟨hpending, rfl⟩

theorem sendEncodedWith_waits {frame : Frame} {post : PostTransmit} {origin : Origin}
    (hlimit : now < core.sendLimit origin now) :
    (sendEncodedWith idle core frame post origin now).history = core.history ∧
      ∃ pending, (sendEncodedWith idle core frame post origin now).pendingSend = some pending ∧
        pending.origin = origin ∧ pending.post = post ∧ pending.frame = frame := by
  set waiting := { core.debugAssert (core.pendingSend.isNone && core.activeTransmit.isNone) with
    pendingSend := some (⟨post, origin, satAdd core.lastActivity core.config.tTurnaround,
      core.sendLimit origin now, frame⟩ : PendingSend) }
  have hwaits : (dispatchPendingSendWith idle waiting now).pendingSend = some _ ∧
      (dispatchPendingSendWith idle waiting now).history = waiting.history :=
    dispatchPendingSendWith_waits rfl hlimit
  exact ⟨hwaits.2, _, hwaits.1, rfl, rfl, rfl⟩

/-- A Poll For Master queued after the token was lost waits, and nothing else happens. -/
theorem Addressed.queuePollWith_waits (h : core.Addressed)
    (hroom : frameRoom npdu ≤ core.actions.frame.length) (hfar : FarFromEnd now) :
    (queuePollWith idle core .noToken now).history = core.history ∧
      (queuePollWith idle core .noToken now).state = .pollForMaster ∧
      ∃ pending, (queuePollWith idle core .noToken now).pendingSend = some pending ∧
        pending.origin = .noToken ∧ pending.post = .pollForMaster ∧
        pending.frame = Frame.new .pollForMaster core.pollStation core.config.station [] := by
  obtain ⟨actions, hencode⟩ := h.encode_poll hroom core.pollStation
  have hlimit := lt_satAdd_noToken hfar
  rw [← sendLimit_noToken { core with actions := actions }] at hlimit
  unfold queuePollWith queueFrameWith
  dsimp only
  rw [hencode]
  dsimp only
  have hwaits := @sendEncodedWith_waits Q npdu { core with actions := actions } now idle
    (Frame.new .pollForMaster core.pollStation core.config.station []) .pollForMaster .noToken hlimit
  generalize sendEncodedWith idle _ _ _ _ now = sent at hwaits ⊢
  obtain ⟨hhistory, pending, hkept, horigin, hpost, hframe⟩ := hwaits
  obtain ⟨hsameHistory, hsameSend⟩ := setState_keeps sent (by decide : MasterState.pollForMaster ≠ .idle)
  rw [hsameHistory, hsameSend, setState_state]
  exact ⟨hhistory, rfl, pending, hkept, horigin, hpost, hframe⟩

end Open

/-! ## Slots and polls -/

/-- A station in a silence that began at its last activity. -/
structure Listening (core : MasterCore Q npdu) (now : Instant) : Prop where
  addressed : core.Addressed
  room : frameRoom npdu ≤ core.actions.frame.length
  past : core.lastActivity ≤ now
  far : FarFromEnd now

theorem generated_eq (core : MasterCore Q npdu) (start : Instant) :
    (core.generated start).history = .tokenGenerated :: core.history ∧
      (core.generated start).config = core.config ∧
      (core.generated start).actions = core.actions ∧
      (core.generated start).pollStation = nextAddr core.config.station core.config.maxMaster := by
  unfold generated
  split_ifs
  · exact ⟨rfl, rfl, rfl, rfl⟩
  · exact ⟨rfl, rfl, rfl, rfl⟩

theorem Addressed.slot_eq (h : core.Addressed) (hin : core.InSlot now) :
    (now - (core.lastActivity + tNoToken)) / tSlot % (core.config.maxMaster.toNat + 1)
      = core.config.station.toNat :=
  InWindow.slot_eq (Nat.lt_succ_of_le h.bounds.1) hin

variable [QueueStorage Q]

/-- A token is generated at `now`: the poll for a first successor waits to go out. -/
structure GeneratesToken (core : MasterCore Q npdu) (now : Instant) : Prop where
  recorded : (core.generateTokenIfInSlot now).history = .tokenGenerated :: core.history
  state : (core.generateTokenIfInSlot now).state = .pollForMaster
  polls : ∃ pending, (core.generateTokenIfInSlot now).pendingSend = some pending ∧
    pending.origin = .noToken ∧ pending.post = .pollForMaster ∧
    pending.frame = Frame.new .pollForMaster
      (nextAddr core.config.station core.config.maxMaster) core.config.station []

theorem Listening.generates (h : core.Listening now) (hin : core.InSlot now) :
    core.GeneratesToken now := by
  have hopen := (generationSlot_spec h.addressed h.far h.past).1 hin
  have hpolled : core.generateTokenIfInSlot now
      = queuePollWith enterIdle (core.generated (core.generationSlot now)) .noToken now := by
    unfold generateTokenIfInSlot
    rw [if_neg (Nat.not_lt.mpr hopen)]
    rfl
  obtain ⟨hhistory, hconfig, hactions, hstation⟩ := core.generated_eq (core.generationSlot now)
  generalize core.generated (core.generationSlot now) = made at *
  have haddressed : made.Addressed := by
    constructor
    · rw [hconfig]
      exact h.addressed.station
    · rw [hconfig]
      exact h.addressed.maxMaster
  have hroom : frameRoom npdu ≤ made.actions.frame.length := by
    rw [hactions]
    exact h.room
  obtain ⟨hkept, hstate, hpending⟩ : (queuePollWith enterIdle made .noToken now).history = _ ∧
      (queuePollWith enterIdle made .noToken now).state = _ ∧ _ :=
    haddressed.queuePollWith_waits hroom h.far
  rw [hhistory] at hkept
  rw [hstation, hconfig] at hpending
  rw [← hpolled] at hkept hstate hpending
  exact ⟨hkept, hstate, hpending⟩

theorem Listening.waits (h : core.Listening now) (hout : ¬ core.InSlot now) :
    core.generateTokenIfInSlot now = core.wakeAt (core.generationSlot now) ∧
      IsLeast (LaterStarts core.firstWindow core.slotCycle now) (core.generationSlot now) := by
  obtain ⟨hlater, hleast⟩ := (generationSlot_spec h.addressed h.far h.past).2 hout
  refine ⟨?_, hleast⟩
  unfold generateTokenIfInSlot
  rw [if_pos hlater]

theorem Listening.generates_iff (h : core.Listening now) :
    core.GeneratesToken now ↔ core.InSlot now := by
  constructor
  · intro hgenerates
    by_contra hout
    have hrecorded := hgenerates.recorded
    rw [(h.waits hout).1] at hrecorded
    exact List.cons_ne_self _ _ hrecorded.symm
  · exact h.generates

/-- A token is generated exactly in the station's slots of a silence; outside them the station waits
for the next to open. The slot is the one the software division finds, and no other station that
heard the line fall silent at the same time generates a token at the same time. -/
theorem token_generated_in_slots (h : core.Listening now) :
    (core.GeneratesToken now ↔ core.InSlot now) ∧
    (¬ core.InSlot now → ∃ deadline, core.generateTokenIfInSlot now = core.wakeAt deadline ∧
      IsLeast (LaterStarts core.firstWindow core.slotCycle now) deadline) ∧
    core.generationSlot now = core.generationSlotByDivision now ∧
    ∀ (Q' : Type) [QueueStorage Q'] (npdu' : ℕ) (other : MasterCore Q' npdu'),
      other.Listening now → other.config.station ≠ core.config.station →
      other.config.maxMaster = core.config.maxMaster → other.lastActivity = core.lastActivity →
      ¬ (core.GeneratesToken now ∧ other.GeneratesToken now) := by
  refine ⟨h.generates_iff, fun hout => ⟨_, h.waits hout⟩,
    generationSlot_eq_division h.addressed (Nat.le_of_add_right_le h.far), ?_⟩
  rintro Q' _ npdu' other hother hstation hmax hactivity ⟨hgenerates, hothers⟩
  have hmine := h.addressed.slot_eq (h.generates_iff.mp hgenerates)
  have htheirs := hother.addressed.slot_eq (hother.generates_iff.mp hothers)
  rw [hmax, hactivity, hmine] at htheirs
  exact hstation (UInt8.toNat_inj.mp htheirs.symm)

def benchNeighbour : MasterCore (FixedQueues 1 1 501) 501 :=
  { bench 0 with config := { (bench 0).config with station := 1 } }

/-- In station 0's slot of the second cycle station 1 does not generate a token as well. -/
theorem token_generated_in_slots_second :
    (bench 0).GeneratesToken 1785000000 ∧ ¬ benchNeighbour.GeneratesToken 1785000000 := by
  have hbench : (bench 0).Listening 1785000000 :=
    ⟨⟨by decide, by decide⟩, by decide +kernel, Nat.zero_le _, by unfold FarFromEnd; decide⟩
  have hneighbour : benchNeighbour.Listening 1785000000 :=
    ⟨⟨by decide, by decide⟩, by decide +kernel, Nat.zero_le _, by unfold FarFromEnd; decide⟩
  have hboth := token_generated_in_slots hbench
  have hgenerates := hboth.1.mpr ⟨1, by decide, by decide⟩
  exact ⟨hgenerates, fun hother => hboth.2.2.2 _ _ benchNeighbour hneighbour (by decide) rfl rfl
    ⟨hgenerates, hother⟩⟩

end MasterCore

end RustyBacnet.Mstp
