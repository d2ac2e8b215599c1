import RustyBacnet.Mstp.InputRefine
import RustyBacnet.Mstp.Preserve
import RustyBacnet.Mstp.TokenRounds

/-!
# Searching for a successor

A station that generated a token, or whose successor did not use the token passed to it, polls one
address after another until a station answers or it is back at its own address, and then is sole
master. `Ring.left` counts the polls left on that way round; it falls by one with each poll that goes
unanswered (`Ring.left_next`), so the addresses polled differ and there are no more than Max_Master.

`Searching` is what holds while the search goes on, before and after its current poll was started.
Over each function that a call runs, the search goes on, or the station has gone idle, or it has
become sole master (`Goes`).
-/

namespace RustyBacnet.Mstp

/-! ## The way round -/

variable {bound' : ℕ}

namespace Ring

/-- How many polls from address `a` lead back to `station`, with Max_Master `m`. -/
def left (station m a : ℕ) : ℕ := if a < station then station - a else station + m + 1 - a

variable {station m a : ℕ}

theorem left_pos (ha : a ≤ m) : 0 < left station m a := by
  unfold left
  split_ifs
  · omega
  · omega

theorem left_le (hstation : station ≤ m) (ha : a ≤ m) (hne : a ≠ station) :
    left station m a ≤ m := by
  unfold left
  split_ifs
  · omega
  · omega

theorem left_next {a b station m : UInt8} (ha : a ≤ m) (hb : b = nextAddr a m)
    (hnext : b ≠ station) (hstation : station ≤ m) :
    left station.toNat m.toNat b.toNat + 1 = left station.toNat m.toNat a.toNat := by
  rw [UInt8.le_iff_toNat_le] at ha hstation
  rw [ne_eq, ← UInt8.toNat_inj] at hnext
  rw [hb, toNat_nextAddr] at hnext ⊢
  by_cases hlt : a.toNat < m.toNat
  · rw [if_pos hlt] at hnext ⊢
    unfold left
    split_ifs <;> omega
  · rw [if_neg hlt, show a.toNat = m.toNat by omega, Nat.mod_self] at hnext ⊢
    unfold left
    split_ifs <;> omega

theorem left_last {a station m : UInt8} (ha : a ≤ m) (hlast : nextAddr a m = station) : left station.toNat m.toNat a.toNat = 1 := by
  rw [UInt8.le_iff_toNat_le] at ha
  rw [← UInt8.toNat_inj, toNat_nextAddr] at hlast
  by_cases hlt : a.toNat < m.toNat
  · rw [if_pos hlt] at hlast
    unfold left
    split_ifs <;> omega
  · have heq : a.toNat = m.toNat := by omega
    rw [if_neg hlt, heq, Nat.mod_self] at hlast
    rw [← hlast]
    unfold left
    split_ifs <;> omega

/-- Addresses polled, the newest first, each of another station in the range and each with fewer
polls left than the one before; the newest has `bound` left at least. -/
structure Path (config : MstpCoreConfig) (bound : ℕ) (path : List UInt8) : Prop where
  range : ∀ a ∈ path, a ≤ config.maxMaster ∧ a ≠ config.station
  bound : ∀ a ∈ path, bound ≤ left config.station.toNat config.maxMaster.toNat a.toNat
  falls : path.Pairwise fun newer older =>
    left config.station.toNat config.maxMaster.toNat newer.toNat
      < left config.station.toNat config.maxMaster.toNat older.toNat

theorem Path.nil (config : MstpCoreConfig) (bound : ℕ) : Path config bound [] :=
  ⟨fun _ h => absurd h List.not_mem_nil, fun _ h => absurd h List.not_mem_nil, .nil⟩

variable {config : MstpCoreConfig} {path : List UInt8}

theorem Path.weaken {bound : ℕ} (h : Path config bound path) (hle : bound' ≤ bound) :
    Path config bound' path :=
  ⟨h.range, fun a ha => hle.trans (h.bound a ha), h.falls⟩

theorem Path.cons {config : MstpCoreConfig} {path : List UInt8} {a : UInt8}
    (h : Path config (left config.station.toNat config.maxMaster.toNat a.toNat + 1) path)
    (hle : a ≤ config.maxMaster) (hne : a ≠ config.station) :
    Path config (left config.station.toNat config.maxMaster.toNat a.toNat) (a :: path) where
  range := List.forall_mem_cons.mpr ⟨⟨hle, hne⟩, h.range⟩
  bound := List.forall_mem_cons.mpr ⟨Nat.le_refl _, fun b hb => (Nat.le_succ _).trans (h.bound b hb)⟩
  falls := List.pairwise_cons.mpr ⟨fun b hb => h.bound b hb, h.falls⟩

theorem Path.nodup {bound : ℕ} (h : Path config bound path) : path.Nodup := by
  refine h.falls.imp fun hlt heq => ?_
  rw [heq] at hlt
  exact Nat.lt_irrefl _ hlt

theorem Path.length_le {bound : ℕ} (h : Path config bound path)
    (hstation : config.station ≤ config.maxMaster) :
    path.length + bound ≤ config.maxMaster.toNat + 1 ∨ path = [] := by
  induction path generalizing bound with
  | nil => exact .inr rfl
  | cons a path ih =>
    rw [UInt8.le_iff_toNat_le] at hstation
    have hfalls := List.pairwise_cons.mp h.falls
    have hrange := List.forall_mem_cons.mp h.range
    have hle := left_le hstation (UInt8.le_iff_toNat_le.mp hrange.1.1)
      fun heq => hrange.1.2 (UInt8.toNat_inj.mp heq)
    have hbound := h.bound a List.mem_cons_self
    have hrest : Path config (left config.station.toNat config.maxMaster.toNat a.toNat + 1) path :=
      ⟨hrange.2, fun b hb => hfalls.1 b hb, hfalls.2⟩
    rw [List.length_cons]
    rcases ih hrest with hlength | rfl
    · exact .inl (by omega)
    · exact .inl (by rw [List.length_nil]; omega)

end Ring

/-! ## What a history says of a search -/

/-- The address of a Poll For Master that was started. -/
def CoreEvent.polled : CoreEvent → Option UInt8
  | .started frame _ _ _ =>
    if frame.header.frameType = .pollForMaster then some frame.header.destination else none
  | _ => none

def polls (history : List CoreEvent) : List UInt8 := history.filterMap CoreEvent.polled

def idles (history : List CoreEvent) : ℕ := history.count .enteredIdle

theorem polls_cons {event : CoreEvent} (h : event.polled = none) (history : List CoreEvent) :
    polls (event :: history) = polls history := List.filterMap_cons_none h

theorem idles_cons_le (event : CoreEvent) (history : List CoreEvent) :
    idles history ≤ idles (event :: history) := List.count_le_count_cons

theorem idles_enteredIdle (history : List CoreEvent) :
    idles history < idles (.enteredIdle :: history) := by
  unfold idles
  rw [List.count_cons_self]
  exact Nat.lt_succ_self _

namespace Station

variable {s t : Station}

/-- The second history goes on from the first, and starts nothing. -/
def GoesOn (s t : Station) : Prop :=
  polls t.history = polls s.history ∧ idles s.history ≤ idles t.history

theorem GoesOn.refl (s : Station) : s.GoesOn s := ⟨rfl, Nat.le_refl _⟩

theorem GoesOn.trans {u : Station} (h : s.GoesOn t) (h' : t.GoesOn u) : s.GoesOn u :=
  ⟨h'.1.trans h.1, h.2.trans h'.2⟩

theorem GoesOn.record {event : CoreEvent} (h : s.GoesOn t) (hevent : event.polled = none) :
    s.GoesOn (t.record event) :=
  ⟨(polls_cons hevent _).trans h.1, h.2.trans (idles_cons_le event _)⟩

theorem GoesOn.enter (h : s.GoesOn t) (state : MasterState) : s.GoesOn (t.enter state) := by
  unfold Station.enter
  split_ifs
  · exact h
  · exact h.record rfl
  · exact h

theorem GoesOn.forget (h : s.GoesOn t) : s.GoesOn t.forget := by
  unfold Station.forget
  split_ifs
  · exact h.record rfl
  · exact h

theorem goesOn_next (s : Station) (move : Move) : s.GoesOn (s.next move) := by
  have h := GoesOn.refl s
  cases move with
  | enter state => exact h.enter state
  | takeToken | generateToken | beginRequest | oweAnswer | takeCounters => exact h.record rfl
  | oweExpired asker => exact GoesOn.record (@GoesOn.record s s (.owed asker false) h rfl) rfl
  | giveUp =>
    rw [Station.next]
    split_ifs
    · exact h.forget.enter .idle
    · exact h.forget
  | finish =>
    rw [Station.next]
    split_ifs
    · exact @GoesOn.enter s s.ended h .idle
    · exact h
  | abandon =>
    exact @GoesOn.enter s { s.record .abandoned with request := none }
      (@GoesOn.record s s .abandoned h rfl) .idle
  | expireRequest =>
    exact @GoesOn.enter s { s with request := none }.expire (@GoesOn.record s s .expired h rfl) .idle
  | _ => exact h

theorem next_generateToken (s : Station) : (s.next .generateToken).state = s.state ∧
    (s.next .generateToken).soleMaster = s.soleMaster := ⟨rfl, rfl⟩

theorem Moves.goesOn (h : s.Moves t) : s.GoesOn t := by
  induction h with
  | refl => exact .refl s
  | tail _ hstep ih =>
    obtain ⟨move, -, rfl⟩ := hstep
    exact ih.trans (goesOn_next _ move)

end Station

/-! ## The stages of a search -/

def Origin.seeks : Origin → Bool
  | .noToken | .passToken | .nextPoll => true
  | .answer _ | .holder => false

namespace MasterCore

variable {Q : Type} {npdu : ℕ}

/-- The core polls one address after another. -/
structure Searching (core : MasterCore Q npdu) : Prop where
  state : core.state = .pollForMaster
  sole : core.soleMaster = false
  alone : core.nextStation = core.config.station
  range : core.pollStation ≤ core.config.maxMaster ∧ core.pollStation ≠ core.config.station
  waits : ∀ pending, core.pendingSend = some pending →
    pending.frame = Frame.new .pollForMaster core.pollStation core.config.station [] ∧
      pending.origin.seeks = true ∧ pending.post = .pollForMaster
  active : ∀ tx, core.activeTransmit = some tx → tx.post = .pollForMaster

/-- The core found no other station, and has a frame of its own to send. -/
structure Sole (core : MasterCore Q npdu) : Prop where
  sole : core.soleMaster = true
  state : core.state ≠ .idle
  waits : ∃ pending, core.pendingSend = some pending ∧ pending.origin = .holder

/-- How many polls of the search are left, with the current one. -/
def pollsLeft (core : MasterCore Q npdu) : ℕ :=
  Ring.left core.config.station.toNat core.config.maxMaster.toNat core.pollStation.toNat

/-- The polls that were started have more polls left than this. -/
def bound (core : MasterCore Q npdu) : ℕ :=
  if core.pendingSend.isSome then core.pollsLeft + 1 else core.pollsLeft

/-- What was polled since `base`, none of it twice. -/
structure Trail (base core : MasterCore Q npdu) (bound : ℕ) : Prop where
  idles : idles base.history ≤ idles core.history
  polls : ∃ path, polls core.history = path ++ polls base.history ∧ Ring.Path core.config bound path

/-- Where a search that began after `base` is, `ran` of its polls having run out: given up, over with
this station sole master, or still going on. -/
inductive Stage (base : MasterCore Q npdu) (ran : ℕ) (core : MasterCore Q npdu) : Prop
  | idled (h : idles base.history < idles core.history)
  | sole (h : core.Sole) (trail : Trail base core 1) (hran : ran ≤ core.config.maxMaster.toNat)
  | searching (h : core.Searching) (trail : Trail base core core.bound)
    (hran : ran + core.pollsLeft ≤ core.config.maxMaster.toNat)

variable {base core core' : MasterCore Q npdu} {ran : ℕ} {now : Instant}

theorem Searching.left_pos (h : core.Searching) : 0 < core.pollsLeft :=
  Ring.left_pos (UInt8.le_iff_toNat_le.mp h.range.1)

theorem Searching.bound_pos (h : core.Searching) : 1 ≤ core.bound := by
  have := h.left_pos
  unfold bound
  split_ifs
  · omega
  · exact this

theorem Trail.leads {bound : ℕ} (h : Trail base core bound) (hleads : core.Leads core')
    (hle : bound' ≤ bound) : Trail base core' bound' := by
  obtain ⟨hpolls, hidles⟩ := Station.Moves.goesOn hleads
  obtain ⟨path, hpath, hfalls⟩ := h.polls
  refine ⟨h.idles.trans hidles, path, hpolls.trans hpath, ?_⟩
  rw [hleads.config]
  exact hfalls.weaken hle

theorem Stage.leads (h : Stage base ran core) (hleads : core.Leads core')
    (hsole : core.Sole → core'.Sole ∨ idles core.history < idles core'.history)
    (hsearching : core.Searching → (core'.Searching ∧ core'.bound ≤ core.bound ∧
      core'.pollsLeft ≤ core.pollsLeft) ∨ core'.Sole ∨ idles core.history < idles core'.history) :
    Stage base ran core' := by
  have hconfig := hleads.config
  cases h with
  | idled hidled => exact .idled (hidled.trans_le (Station.Moves.goesOn hleads).2)
  | sole h trail hran =>
    rcases hsole h with h' | hidled
    · exact .sole h' (trail.leads hleads (Nat.le_refl _)) (hconfig ▸ hran)
    · exact .idled (trail.idles.trans_lt hidled)
  | searching h trail hran =>
    rcases hsearching h with ⟨h', hbound, hleft⟩ | h' | hidled
    · refine .searching h' (trail.leads hleads hbound) ?_
      rw [hconfig]
      exact (Nat.add_le_add_left hleft ran).trans hran
    · refine .sole h' (trail.leads hleads h.bound_pos) ?_
      rw [hconfig]
      exact (Nat.le_add_right _ _).trans hran
    · exact .idled (trail.idles.trans_lt hidled)

/-- What a search is about. -/
structure Seeker where
  config : MstpCoreConfig
  state : MasterState
  soleMaster : Bool
  nextStation : UInt8
  pollStation : UInt8
  send : Option PendingSend
  active : Option ActiveTransmit
  history : List CoreEvent

def seeker (core : MasterCore Q npdu) : Seeker where
  config := core.config
  state := core.state
  soleMaster := core.soleMaster
  nextStation := core.nextStation
  pollStation := core.pollStation
  send := core.pendingSend
  active := core.activeTransmit
  history := core.history

/-- The waiting frame is the one it was but for its start, and the frame under way may change. -/
theorem Stage.passes (h : Stage base ran core) {f : PendingSend → PendingSend}
    {active : Option ActiveTransmit} (hf : ∀ pending, (f pending).frame = pending.frame ∧
      (f pending).origin = pending.origin ∧ (f pending).post = pending.post)
    (heq : core'.seeker
      = { core.seeker with send := core.pendingSend.map f, active := active })
    (hpost : core.Searching → ∀ tx, active = some tx → tx.post = .pollForMaster) :
    Stage base ran core' := by
  simp only [seeker, Seeker.mk.injEq] at heq
  obtain ⟨hconfig, hstate, hsole, hnext, hpoll, hsend, hactive, hhistory⟩ := heq
  have htrail : ∀ bound, Trail base core bound → Trail base core' bound := fun bound trail =>
    ⟨hhistory ▸ trail.idles, by rw [hhistory, hconfig]; exact trail.polls⟩
  cases h with
  | idled hidled => exact .idled (hhistory ▸ hidled)
  | sole h trail hran =>
    obtain ⟨pending, hp, horigin⟩ := h.waits
    exact .sole ⟨hsole ▸ h.sole, hstate ▸ h.state, f pending, by rw [hsend, hp]; rfl,
      (hf pending).2.1.trans horigin⟩ (htrail 1 trail) (hconfig ▸ hran)
  | searching h trail hran =>
    have hleft : core'.pollsLeft = core.pollsLeft := by
      unfold pollsLeft
      rw [hconfig, hpoll]
    have hbound : core'.bound = core.bound := by
      unfold bound
      rw [hleft, hsend, Option.isSome_map]
    refine .searching ⟨hstate ▸ h.state, hsole ▸ h.sole, by rw [hnext, hconfig]; exact h.alone,
      by rw [hpoll, hconfig]; exact h.range, ?_, by rw [hactive]; exact hpost h⟩ ?_ ?_
    · intro pending' hp'
      obtain ⟨pending, hp, rfl⟩ := Option.map_eq_some_iff.mp (hsend.symm.trans hp')
      rw [hpoll, hconfig, (hf pending).1, (hf pending).2.1, (hf pending).2.2]
      exact h.waits pending hp
    · rw [hbound]
      exact htrail _ trail
    · rw [hleft, hconfig]
      exact hran

theorem Stage.handed (h : Stage base ran core) {active : Option ActiveTransmit}
    (heq : core'.seeker = { core.seeker with active := active })
    (hpost : core.Searching → ∀ tx, active = some tx → tx.post = .pollForMaster) :
    Stage base ran core' := by
  refine @Stage.passes _ _ base core core' ran h id active (fun _ => ⟨rfl, rfl, rfl⟩) ?_ hpost
  rw [Option.map_id]
  exact heq

theorem Stage.congr (h : Stage base ran core) (heq : core'.seeker = core.seeker) :
    Stage base ran core' :=
  h.handed heq fun h => h.active

/-- The waiting frame's start moves. -/
theorem Stage.retimed (h : Stage base ran core) {pending : PendingSend}
    (hsend : core.pendingSend = some pending) (earliest : Instant)
    (heq : core'.seeker = { core.seeker with send := some { pending with earliest := earliest } }) :
    Stage base ran core' := by
  refine @Stage.passes _ _ base core core' ran h (fun pending => { pending with earliest := earliest })
    core.activeTransmit (fun _ => ⟨rfl, rfl, rfl⟩) ?_ fun h => h.active
  rw [hsend]
  exact heq

/-! ## Going idle -/

theorem idles_setState (hstate : core.state ≠ .idle) :
    idles core.history < idles (core.setState .idle).history := by
  unfold setState
  rw [if_neg hstate, if_pos rfl]
  exact idles_enteredIdle _

theorem idles_idleFrom (hstate : core.state ≠ .idle) (now : Instant) :
    idles core.history < idles (core.idleFrom now).history := idles_setState hstate

theorem idles_goIdle (hstate : core.state ≠ .idle) :
    idles core.history < idles core.goIdle.history := idles_setState hstate

theorem forgetPending_state (core : MasterCore Q npdu) :
    core.forgetPending.state = core.state ∧ idles core.history ≤ idles core.forgetPending.history := by
  unfold forgetPending
  cases core.pendingSend with
  | none => exact ⟨rfl, Nat.le_refl _⟩
  | some pending =>
    dsimp only
    split_ifs
    · exact ⟨rfl, idles_cons_le .expired _⟩
    · exact ⟨rfl, Nat.le_refl _⟩

theorem discardPending_state (core : MasterCore Q npdu) :
    core.discardPending.state = core.state ∧
      idles core.history ≤ idles core.discardPending.history := by
  unfold discardPending
  cases core.activeTransmit with
  | none => exact forgetPending_state core
  | some tx =>
    dsimp only
    split_ifs
    · exact forgetPending_state core
    · exact forgetPending_state (core.withdrawTransmit tx.id)

variable [QueueStorage Q]

theorem preserved_idles (n : ℕ) :
    Preserved fun core : MasterCore Q npdu => n ≤ idles core.history where
  congr h heq := by
    have hhistory := congrArg Shown.history heq
    exact h.trans_eq (congrArg idles hhistory.symm)
  record h _ := h.trans (idles_cons_le _ _)
  forget h := h
  make h _ := h
  retime _ h _ := h
  confirm _ _ h _ := h.trans (idles_cons_le _ _)
  expire _ h := h
  taken h _ _ _ := h
  served h _ _ _ := h
  enqueue _ _ _ _ _ h := h
  takeCounters _ h := h

theorem idles_enterIdle (hstate : core.state ≠ .idle) (now : Instant) :
    idles core.history < idles (core.enterIdle now).history :=
  (preserved_idles _).takePendingTokenWith
    (fun _ now hcore => (preserved_idles _).enterIdleRounds 1 hcore now)
    (idles_goIdle hstate) now

theorem idles_dropPending (hstate : core.state ≠ .idle) (now : Instant) :
    idles core.history < idles (core.dropPending now).history := by
  obtain ⟨hkept, hle⟩ := discardPending_state core
  exact hle.trans_lt (idles_enterIdle (hkept.symm ▸ hstate) now)

/-! ## Making frames -/

omit [QueueStorage Q] in
theorem seeker_setState (core : MasterCore Q npdu) {state : MasterState} (hstate : state ≠ .idle) :
    (core.setState state).seeker = { core.seeker with state := state } := by
  unfold setState
  by_cases heq : core.state = state
  · rw [if_pos heq, ← heq]
    rfl
  · rw [if_neg heq, if_neg hstate]
    rfl

/-- A frame just encoded is dropped, or waits. -/
theorem sendEncodedWith_seeker (hstate : core.state ≠ .idle) (frame : Frame) (post : PostTransmit)
    (origin : Origin) (now : Instant) :
    idles core.history < idles (sendEncodedWith enterIdle core frame post origin now).history ∨
      ∃ send active, (sendEncodedWith enterIdle core frame post origin now).seeker
          = { core.seeker with send := some send, active := active } ∧
        send.frame = frame ∧ send.origin = origin ∧ send.post = post ∧
        (active = core.activeTransmit ∨ ∃ tx, active = some tx ∧ tx.post = post) := by
  unfold sendEncodedWith
  generalize heq : core.debugAssert (core.pendingSend.isNone && core.activeTransmit.isNone)
    = asserted
  have hasserted : asserted.seeker = core.seeker := heq ▸ rfl
  have hstate' : asserted.state ≠ .idle := heq ▸ hstate
  have hhistory : asserted.history = core.history := congrArg Seeker.history hasserted
  have hactive : asserted.activeTransmit = core.activeTransmit := congrArg Seeker.active hasserted
  rw [← hasserted, ← hhistory, ← hactive]
  set pending : PendingSend :=
    { post := post, origin := origin
      earliest := satAdd asserted.lastActivity asserted.config.tTurnaround
      limit := asserted.sendLimit origin now, frame := frame }
  unfold dispatchPendingSendWith
  dsimp only
  by_cases hlimit : pending.limit ≤ now
  · rw [if_pos hlimit]
    exact .inl (@idles_dropPending Q npdu { asserted with pendingSend := some pending } _ hstate' now)
  rw [if_neg hlimit]
  by_cases hearly : now < pending.earliest
  · rw [if_pos hearly]
    exact .inr ⟨pending, asserted.activeTransmit, rfl, rfl, rfl, rfl, .inl rfl⟩
  · rw [if_neg hearly]
    exact .inr ⟨pending, _, rfl, rfl, rfl, rfl, .inr ⟨_, rfl, rfl⟩⟩

theorem queueFrame_seeker (hwork : core.AtWork now) (hstate : core.state ≠ .idle)
    {frameType : FrameType} (hcobs : frameType.isCobs = false)
    (hproprietary : frameType.isProprietary = false) (destination : UInt8) (post : PostTransmit)
    (origin : Origin) :
    idles core.history < idles (core.queueFrame frameType destination [] post origin now).history ∨
      ∃ send active, (core.queueFrame frameType destination [] post origin now).seeker
          = { core.seeker with send := some send, active := active } ∧
        send.frame = Frame.new frameType destination core.config.station [] ∧
        send.origin = origin ∧ send.post = post ∧
        (active = none ∨ ∃ tx, active = some tx ∧ tx.post = post) := by
  have hsends := hwork.sound.valid.sends_standard hcobs hproprietary destination (Nat.zero_le _)
    (.inr rfl)
  have hactive : core.activeTransmit = none := hwork.free.2.1
  have hencode := encode_ok hwork.sound.room hwork.transmit hsends
  unfold queueFrame queueFrameWith
  dsimp only
  rw [hencode]
  have hsend := @sendEncodedWith_seeker Q npdu
    (core.withFrame (Frame.new frameType destination core.config.station [])) _ hstate
    (Frame.new frameType destination core.config.station []) post origin now
  rw [show (core.withFrame (Frame.new frameType destination core.config.station [])).activeTransmit
    = none from hactive] at hsend
  exact hsend

theorem queuePoll_seeker (hwork : core.AtWork now) (hstate : core.state ≠ .idle) (origin : Origin) :
    idles core.history < idles (core.queuePoll origin now).history ∨
      ∃ send active, (core.queuePoll origin now).seeker
          = { core.seeker with
              state := .pollForMaster, send := some send, active := active } ∧
        send.frame = Frame.new .pollForMaster core.pollStation core.config.station [] ∧
        send.origin = origin ∧ send.post = .pollForMaster ∧
        (active = none ∨ ∃ tx, active = some tx ∧ tx.post = .pollForMaster) := by
  have hqueued := @queueFrame_seeker Q npdu core now _ hwork hstate .pollForMaster (by decide)
    (by decide) core.pollStation .pollForMaster origin
  unfold queuePoll queuePollWith
  change idles core.history < idles (queueFrameWith enterIdle core .pollForMaster core.pollStation []
    .pollForMaster origin now).history ∨ ∃ send active, (queueFrameWith enterIdle core .pollForMaster
    core.pollStation [] .pollForMaster origin now).seeker = _ ∧ _ at hqueued
  generalize queueFrameWith enterIdle core .pollForMaster core.pollStation [] .pollForMaster origin
    now = queued at hqueued ⊢
  rcases hqueued with hidled | ⟨send, active, heq, hrest⟩
  · exact .inl (hidled.trans_le ((preserved_idles _).setState (Nat.le_refl _) .pollForMaster))
  · refine .inr ⟨send, active, ?_, hrest⟩
    rw [seeker_setState _ (by decide), heq]

/-- The next poll of a search is dropped, or the search goes on with it. -/
theorem queuePoll_searching (hwork : core.AtWork now) (hstate : core.state ≠ .idle)
    (hsole : core.soleMaster = false) (halone : core.nextStation = core.config.station)
    (hrange : core.pollStation ≤ core.config.maxMaster ∧ core.pollStation ≠ core.config.station)
    {origin : Origin} (horigin : origin.seeks = true) :
    idles core.history < idles (core.queuePoll origin now).history ∨
      ((core.queuePoll origin now).Searching ∧
        (core.queuePoll origin now).pollsLeft = core.pollsLeft ∧
        (core.queuePoll origin now).bound = core.pollsLeft + 1) := by
  rcases queuePoll_seeker hwork hstate origin with hidled | ⟨send, active, heq, hframe, horig, hpost, hactive⟩
  · exact .inl hidled
  generalize core.queuePoll origin now = queued at heq ⊢
  simp only [seeker, Seeker.mk.injEq] at heq
  obtain ⟨hconfig, hstate', hsole', hnext, hpoll, hsend, hact, -⟩ := heq
  have hleft : queued.pollsLeft = core.pollsLeft := by
    unfold pollsLeft
    rw [hconfig, hpoll]
  refine .inr ⟨⟨hstate', hsole'.trans hsole, by rw [hnext, hconfig, halone],
    by rw [hpoll, hconfig]; exact hrange, ?_, ?_⟩, hleft, ?_⟩
  · rintro pending hp
    obtain rfl := Option.some.inj (hsend.symm.trans hp)
    rw [hpoll, hconfig]
    exact ⟨hframe, horig ▸ horigin, hpost⟩
  · rintro tx htx
    rw [hact] at htx
    rcases hactive with hnone | ⟨tx', hsome, hpost'⟩
    · rw [hnone] at htx
      cases htx
    · obtain rfl := Option.some.inj (hsome.symm.trans htx)
      exact hpost'
  · unfold bound
    rw [hsend, hleft]
    rfl

/-! ## Sole master -/

omit [QueueStorage Q] in
theorem seeker_encode (core : MasterCore Q npdu) (frame : Frame) :
    (core.encode frame).2.seeker = core.seeker := by
  unfold encode
  split <;> rfl

/-- The next NPDU is dropped or waits; without one, the search sees no change. -/
theorem dequeueLoopWith_seeker (attempts : ℕ) (hstate : core.state ≠ .idle) :
    ((dequeueLoopWith enterIdle now attempts core).1 = false →
      (dequeueLoopWith enterIdle now attempts core).2.seeker = core.seeker) ∧
    ((dequeueLoopWith enterIdle now attempts core).1 = true →
      idles core.history < idles (dequeueLoopWith enterIdle now attempts core).2.history ∨
      ∃ send active, (dequeueLoopWith enterIdle now attempts core).2.seeker
        = { core.seeker with send := some send, active := active } ∧ send.origin = .holder) := by
  induction attempts generalizing core with
  | zero => exact ⟨fun _ => rfl, fun h => absurd h Bool.false_ne_true⟩
  | succ attempts ih =>
    have hagain : ∀ core' : MasterCore Q npdu, core'.seeker = core.seeker →
        ((dequeueLoopWith enterIdle now attempts core').1 = false →
          (dequeueLoopWith enterIdle now attempts core').2.seeker = core.seeker) ∧
        ((dequeueLoopWith enterIdle now attempts core').1 = true →
          idles core.history < idles (dequeueLoopWith enterIdle now attempts core').2.history ∨
          ∃ send active, (dequeueLoopWith enterIdle now attempts core').2.seeker
            = { core.seeker with send := some send, active := active } ∧ send.origin = .holder) := by
      intro core' heq
      have hstate' : core'.state = core.state := congrArg Seeker.state heq
      have hhistory : core'.history = core.history := congrArg Seeker.history heq
      have := @ih core' (hstate'.symm ▸ hstate)
      rwa [heq, hhistory] at this
    unfold dequeueLoopWith
    cases hkind : core.nextQueueKind now with
    | none => exact ⟨fun _ => rfl, fun h => absurd h (by simp)⟩
    | some kind =>
      dsimp only
      rcases QueueStorage.dequeueKind core.queues kind now npdu with ⟨_ | _ | item, queues⟩
      · exact hagain _ rfl
      · exact ⟨fun _ => rfl, fun h => absurd h (by simp)⟩
      · dsimp only
        by_cases hlong : npdu < item.npdu.length ∨ core.config.maxNpdu < item.npdu.length
        · rw [if_pos hlong]
          exact hagain _ rfl
        · rw [if_neg hlong]
          have hcounted : (counted { core with queues := queues } kind).seeker = core.seeker := rfl
          generalize counted { core with queues := queues } kind = taken at hcounted ⊢
          generalize dataFrameType _ _ = kindOfFrame
          have hencode := seeker_encode taken
            (Frame.new kindOfFrame.1 item.destination taken.config.station item.npdu)
          generalize Frame.new kindOfFrame.1 item.destination taken.config.station item.npdu = frame
            at hencode ⊢
          generalize taken.encode frame = result at hencode ⊢
          rcases result with ⟨_ | _, encoded⟩
          · exact hagain encoded (hencode.trans hcounted)
          · dsimp only at hencode ⊢
            have heq := hencode.trans hcounted
            have hstate' : encoded.state = core.state := congrArg Seeker.state heq
            have hhistory : encoded.history = core.history := congrArg Seeker.history heq
            have hsent := sendEncodedWith_seeker (hstate'.symm ▸ hstate) frame kindOfFrame.2 .holder
              now
            rw [heq, hhistory] at hsent
            refine ⟨fun h => absurd h (by simp), fun _ => hsent.imp_right ?_⟩
            rintro ⟨send, active, hseeker, -, horigin, -⟩
            exact ⟨send, active, hseeker, horigin⟩

theorem dequeueAndSendWith_sole (hsole : core.soleMaster = true) (hstate : core.state ≠ .idle)
    (hsent : (dequeueAndSendWith enterIdle core now).1 = true) :
    (dequeueAndSendWith enterIdle core now).2.Sole ∨
      idles core.history < idles (dequeueAndSendWith enterIdle core now).2.history := by
  have hloop := (@dequeueLoopWith_seeker Q npdu
    { core with queues := (QueueStorage.expire core.queues now).2 } now _
    (QueueStorage.totalDepth (QueueStorage.expire core.queues now).2 + 1) hstate).2 hsent
  rcases hloop with hidled | ⟨send, active, heq, horigin⟩
  · exact .inr hidled
  · simp only [seeker, Seeker.mk.injEq] at heq
    refine .inl ⟨heq.2.2.1.trans hsole, ?_, send, heq.2.2.2.2.2.1, horigin⟩
    exact fun hidle => hstate (heq.2.1.symm.trans hidle)

theorem queuePoll_sole (hwork : core.AtWork now) (hsole : core.soleMaster = true)
    (hstate : core.state ≠ .idle) :
    (core.queuePoll .holder now).Sole ∨
      idles core.history < idles (core.queuePoll .holder now).history := by
  rcases queuePoll_seeker hwork hstate .holder with hidled | ⟨send, active, heq, -, horigin, -, -⟩
  · exact .inr hidled
  · simp only [seeker, Seeker.mk.injEq] at heq
    refine .inl ⟨heq.2.2.1.trans hsole, ?_, send, heq.2.2.2.2.2.1, horigin⟩
    rw [heq.2.1]
    decide

omit [QueueStorage Q] in
theorem Using.again (h : core.Using now) (hsole : core.soleMaster = true) {turned : MasterCore Q npdu}
    (hturned : turned.station = core.station.next (.countFrames 0)) :
    (turned.setState .useToken).Using now ∧ (turned.setState .useToken).soleMaster = true ∧
      (turned.setState .useToken).history = core.history := by
  have hcount : core.Leads turned := .of_move (.countFrames 0) (fun _ => .inl hsole) hturned
  have hsole' : turned.station.soleMaster = true := by
    rw [hturned]
    exact hsole
  have hwork : turned.Using now := by
    refine ⟨⟨h.sound.leads hcount, ?_, ?_⟩, ?_⟩
    · rw [hturned]
      exact h.free
    · rw [hturned]
      exact h.now
    · rw [hturned]
      exact h.token
  obtain ⟨-, hused⟩ := @Using.setState Q npdu turned now hwork .useToken rfl fun _ => .inl hsole'
  have hseeker := seeker_setState turned (by decide : MasterState.useToken ≠ .idle)
  refine ⟨hused, (congrArg Seeker.soleMaster hseeker).trans hsole', ?_⟩
  exact (congrArg Seeker.history hseeker).trans (congrArg Station.history hturned)

/-- The loop of a sole master ends with a frame to send. -/
theorem Ends.sole {result : MasterCore Q npdu} (hends : Ends enterIdle now core result)
    (h : core.Using now) (hsole : core.soleMaster = true) (hstate : core.state ≠ .idle) :
    result.Sole ∨ idles core.history < idles result.history := by
  induction hends with
  | @finished core result hround =>
    unfold doneWithTokenRound at hround
    rw [if_neg (by rw [hsole]; exact fun hnone => absurd hnone.1 (by decide))] at hround
    have hpolls : ∀ polls : MasterCore Q npdu, polls.station = core.station →
        queuePollWith enterIdle polls .holder now = result →
        result.Sole ∨ idles core.history < idles result.history := by
      rintro polls heq rfl
      have hsole' : polls.station.soleMaster = true := by rw [heq]; exact hsole
      have hstate' : polls.station.state ≠ .idle := by rw [heq]; exact hstate
      have hpoll := queuePoll_sole (h.congr heq).toAtWork hsole' hstate'
      rwa [show polls.history = core.history from congrArg Station.history heq] at hpoll
    by_cases hcount : core.tokenCount < nPoll
    · rw [if_pos hcount, if_pos hsole] at hround
      set turned : MasterCore Q npdu :=
        { core with tokenCount := increment8 core.tokenCount, frameCount := 0 } with hturned
      obtain ⟨hused, hsole', hhistory⟩ := @Using.again Q npdu core now h hsole turned rfl
      have hstate' := setState_state turned .useToken
      generalize turned.setState .useToken = using_ at hround hused hsole' hhistory hstate'
      have hsent := @dequeueAndSendWith_sole Q npdu using_ now _ hsole' (by rw [hstate']; decide)
      generalize dequeueAndSendWith enterIdle using_ now = sent at hround hsent
      rcases sent with ⟨_ | _, after⟩
      · cases hround
      · obtain rfl := Round.finished.inj hround
        rw [← hhistory]
        exact hsent rfl
    rw [if_neg hcount] at hround
    by_cases hlast : nextAddr core.pollStation core.config.maxMaster = core.nextStation ∨
        nextAddr core.pollStation core.config.maxMaster = core.config.station
    · rw [if_pos hlast, if_pos hsole] at hround
      refine hpolls _ ?_ (Round.finished.inj hround)
      rfl
    · rw [if_neg hlast] at hround
      refine hpolls _ ?_ (Round.finished.inj hround)
      rfl
  | @again core next result hround _ ih =>
    have hcount := (doneWithTokenRound_again hround).1
    unfold doneWithTokenRound at hround
    rw [if_neg (by rw [hsole]; exact fun hnone => absurd hnone.1 (by decide)), if_pos hcount,
      if_pos hsole] at hround
    set turned : MasterCore Q npdu :=
      { core with tokenCount := increment8 core.tokenCount, frameCount := 0 } with hturned
    obtain ⟨hused, hsole', hhistory⟩ := @Using.again Q npdu core now h hsole turned rfl
    have hstate' := setState_state turned .useToken
    generalize turned.setState .useToken = using_ at hround hused hsole' hhistory hstate'
    obtain ⟨-, hnone⟩ := dequeueAndSendWith_leads plain_enterIdle hused (.inl hsole')
    generalize dequeueAndSendWith enterIdle using_ now = sent at hround hnone
    rcases sent with ⟨_ | _, after⟩
    · obtain rfl := Round.again.inj hround
      have heq : after.station = using_.station := hnone rfl
      have hsole'' : after.station.soleMaster = true := by rw [heq]; exact hsole'
      have hstate'' : after.station.state ≠ .idle := by
        rw [heq]
        show using_.state ≠ .idle
        rw [hstate']
        decide
      have hrest := ih (hused.congr heq) hsole'' hstate''
      rwa [show after.history = core.history from
        (congrArg Station.history heq).trans hhistory] at hrest
    · cases hround

theorem driveToken_sole (h : core.Using now) (hsole : core.soleMaster = true)
    (hstate : core.state ≠ .idle) :
    (core.driveToken now).Sole ∨ idles core.history < idles (core.driveToken now).history := by
  have hdone : ∀ core' : MasterCore Q npdu, core'.station = core.station →
      (doneWithTokenWith enterIdle (core'.setState .doneWithToken) now).Sole ∨
        idles core.history <
          idles (doneWithTokenWith enterIdle (core'.setState .doneWithToken) now).history := by
    intro core' heq
    have hsole' : core'.station.soleMaster = true := by rw [heq]; exact hsole
    obtain ⟨-, hused⟩ := @Using.setState Q npdu core' now (h.congr heq) .doneWithToken rfl
      fun _ => .inl hsole'
    have hseeker := seeker_setState core' (by decide : MasterState.doneWithToken ≠ .idle)
    have hends := @ends_doneWithTokenWith Q _ npdu enterIdle (core'.setState .doneWithToken) now
    have := hends.sole hused ((congrArg Seeker.soleMaster hseeker).trans hsole')
      (by rw [setState_state]; decide)
    rwa [show (core'.setState .doneWithToken).history = core.history from
      (congrArg Seeker.history hseeker).trans (congrArg Station.history heq)] at this
  unfold driveToken driveTokenWith
  rw [if_neg (by simp [show core.activeTransmit = none from h.free.2.1,
    show core.pendingSend = none from h.free.1])]
  by_cases hbudget : core.frameCount < core.config.frameLimit
  · rw [if_pos hbudget]
    have hsent := @dequeueAndSendWith_sole Q npdu core now _ hsole hstate
    obtain ⟨-, hnone⟩ := dequeueAndSendWith_leads plain_enterIdle h (.inl hsole)
    generalize dequeueAndSendWith enterIdle core now = sent at hsent hnone
    rcases sent with ⟨_ | _, after⟩
    · exact hdone after (hnone rfl)
    · exact hsent rfl
  · rw [if_neg hbudget]
    exact hdone core rfl

/-! ## A poll that runs out -/

/-- When a poll runs out, the search has a poll less, or is over. -/
theorem Stage.pollTimeout (h : Stage base ran core) (hwork : core.AtWork now)
    (hstate : core.state = .pollForMaster) : Stage base (ran + 1) (core.pollTimeout now) := by
  have hleads := pollTimeout_leads hwork hstate
  have hconfig := hleads.config
  have hholds := hwork.using (by rw [hstate]; rfl)
  cases h with
  | idled hidled => exact .idled (hidled.trans_le (Station.Moves.goesOn hleads).2)
  | sole h =>
    obtain ⟨pending, hp, -⟩ := h.waits
    exact absurd ((show core.pendingSend = none from hwork.free.1).symm.trans hp) (by simp)
  | searching h trail hran =>
    have hstation : core.config.station ≤ core.config.maxMaster := hwork.sound.valid.station
    have hbound : core.bound = core.pollsLeft := by
      unfold bound
      rw [show core.pendingSend = none from hwork.free.1]
      rfl
    have hnone : ¬ core.soleMaster = true := by
      rw [h.sole]
      decide
    unfold MasterCore.pollTimeout at hleads hconfig ⊢
    rw [if_neg hnone, if_neg (not_not_intro h.alone)] at hleads hconfig ⊢
    by_cases hlast : nextAddr core.pollStation core.config.maxMaster = core.config.station
    · rw [if_pos hlast] at hleads hconfig ⊢
      have hleft : core.pollsLeft = 1 := Ring.left_last h.range.1 hlast
      set alone : MasterCore Q npdu := { core with soleMaster := true, frameCount := 0 } with halone
      have hmoves : core.Leads alone :=
        @Leads.trans Q npdu core { core with soleMaster := true } alone
          (.of_move (.setSole true) (.inl rfl) rfl)
          (.of_move (.countFrames 0) (fun _ => .inl rfl) rfl)
      have halone : alone.Using now :=
        ⟨⟨hwork.sound.leads hmoves, hwork.free, hwork.now⟩, hholds.token⟩
      obtain ⟨-, hused⟩ := @Using.setState Q npdu alone now halone .useToken rfl
        fun _ => .inl rfl
      have hseeker := seeker_setState alone (by decide : MasterState.useToken ≠ .idle)
      have hdriven := driveToken_sole hused (congrArg Seeker.soleMaster hseeker)
        (by rw [setState_state]; decide)
      rw [show (alone.setState .useToken).history = core.history from
        congrArg Seeker.history hseeker] at hdriven
      rcases hdriven with hsole | hidled
      · refine .sole hsole (trail.leads hleads h.bound_pos) ?_
        rw [hconfig]
        omega
      · exact .idled (trail.idles.trans_lt hidled)
    · rw [if_neg hlast] at hleads hconfig ⊢
      set next : MasterCore Q npdu :=
        { core with pollStation := nextAddr core.pollStation core.config.maxMaster } with hnext
      have hleft : next.pollsLeft + 1 = core.pollsLeft :=
        Ring.left_next h.range.1 rfl hlast hstation
      have hstate' : next.state ≠ .idle := by
        show core.state ≠ .idle
        rw [hstate]
        decide
      have hwork' : next.AtWork now := hwork.congr rfl
      have hrange : next.pollStation ≤ next.config.maxMaster ∧ next.pollStation ≠ next.config.station :=
        ⟨nextAddr_le _ _, hlast⟩
      have hseeks : Origin.nextPoll.seeks = true := rfl
      rcases queuePoll_searching hwork' hstate' h.sole h.alone hrange hseeks with
        hidled | ⟨hsearching, hsame, hnew⟩
      · exact .idled (trail.idles.trans_lt hidled)
      · refine .searching hsearching (trail.leads hleads ?_) ?_
        · rw [hnew, hbound, ← hleft]
        · rw [hconfig, hsame]
          omega

end MasterCore

end RustyBacnet.Mstp
