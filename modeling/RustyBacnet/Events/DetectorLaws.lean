import Mathlib.Data.List.Induction
import RustyBacnet.Events.Detector

/-!
# Event delays measure persistence

A pending transition is a record of the past: from the call that seeded it on, every call asked for
its state, and the ticks since then are what its countdown has lost (`Counted`). So a delayed
transition needs as many ticks as its delay, all of them asking for it, and these are enough.
-/

namespace RustyBacnet.Events.Detector

variable {Value : Type}

/-! ## Calls -/

/-- A probe or a tick. -/
structure Call (Value : Type) where
  ticks : Bool
  value : Value
  reliability : Reliability

def call (algorithm : Algorithm Value) (detector : Detector) (given : Call Value) :
    Detector × Option TransitionOutcome :=
  if given.ticks then detector.tick algorithm given.value given.reliability
  else detector.probe algorithm given.value given.reliability

def run (algorithm : Algorithm Value) (detector : Detector) (calls : List (Call Value)) : Detector :=
  calls.foldl (fun detector given => (detector.call algorithm given).1) detector

def ticksOf (calls : List (Call Value)) : ℕ := calls.countP (·.ticks)

/-- The call sees good reliability and a value asking for the state. -/
def Asks (algorithm : Algorithm Value) (detector : Detector) (given : Call Value)
    (state : EventState) : Prop :=
  given.reliability = .noFaultDetected ∧
    algorithm.computeNewState detector.eventState given.value = state

/-- Every call asks for the state. -/
def Persists (algorithm : Algorithm Value) (state : EventState) :
    Detector → List (Call Value) → Prop
  | _, [] => True
  | detector, given :: calls => Asks algorithm detector given state ∧
      Persists algorithm state (detector.call algorithm given).1 calls

/-- The reliability of the last call that returned a transition to FAULT, or what was last before
the calls. -/
def lastEntry (algorithm : Algorithm Value) : Detector → Option Reliability →
    List (Call Value) → Option Reliability
  | _, last, [] => last
  | detector, last, given :: calls =>
    lastEntry algorithm (detector.call algorithm given).1
      (if (detector.call algorithm given).2.map (·.change.target) = some .fault
        then some given.reliability else last) calls

/-- The call begins a countdown to the state. -/
def Seeds (algorithm : Algorithm Value) (detector : Detector) (given : Call Value)
    (state : EventState) : Prop :=
  detector.pending.map (·.state) ≠ some state ∧
    (detector.call algorithm given).1.pending.map (·.state) = some state

theorem run_append (algorithm : Algorithm Value) (detector : Detector)
    (calls others : List (Call Value)) : detector.run algorithm (calls ++ others)
      = (detector.run algorithm calls).run algorithm others :=
  List.foldl_append

theorem run_concat (algorithm : Algorithm Value) (detector : Detector) (calls : List (Call Value))
    (given : Call Value) : detector.run algorithm (calls ++ [given])
      = ((detector.run algorithm calls).call algorithm given).1 :=
  run_append algorithm detector calls [given]

variable {detector : Detector} {calls : List (Call Value)}

theorem persists_append {algorithm : Algorithm Value} {state : EventState}
    {others : List (Call Value)} : Persists algorithm state detector (calls ++ others) ↔
      Persists algorithm state detector calls ∧
        Persists algorithm state (detector.run algorithm calls) others := by
  induction calls generalizing detector with
  | nil => exact ⟨fun h => ⟨trivial, h⟩, fun h => h.2⟩
  | cons given calls ih =>
    rw [List.cons_append, Persists, Persists, ih, and_assoc]
    rfl

theorem ticksOf_cons (given : Call Value) (calls : List (Call Value)) :
    ticksOf (given :: calls) = ticksOf calls + if given.ticks then 1 else 0 :=
  List.countP_cons

theorem ticksOf_concat (calls : List (Call Value)) (given : Call Value) :
    ticksOf (calls ++ [given]) = ticksOf calls + if given.ticks then 1 else 0 := by
  unfold ticksOf
  rw [List.countP_append, List.countP_singleton]

/-! ## What one call does -/

/-- The ways a call goes. -/
inductive Step (algorithm : Algorithm Value) (detector : Detector) (given : Call Value) :
    Detector × Option TransitionOutcome → Prop where
  | enter (hbad : given.reliability ≠ .noFaultDetected)
      (hnew : detector.eventState ≠ .fault ∨ detector.faultReliability ≠ some given.reliability) :
      Step algorithm detector given (detector.confirmTransition ⟨detector.eventState, .fault⟩
        given.reliability, detector.proposal algorithm .fault)
  | hold (hbad : given.reliability ≠ .noFaultDetected) (hfault : detector.eventState = .fault)
      (hsame : detector.faultReliability = some given.reliability) :
      Step algorithm detector given (detector, none)
  | recover (hgood : given.reliability = .noFaultDetected) (hfault : detector.eventState = .fault) :
      Step algorithm detector given (detector.confirmTransition ⟨detector.eventState, .normal⟩
        given.reliability, detector.proposal algorithm .normal)
  | revert (hfault : detector.eventState ≠ .fault)
      (hasks : Asks algorithm detector given detector.eventState) :
      Step algorithm detector given ({ detector with pending := none }, none)
  | fire {state : EventState} (hfault : detector.eventState ≠ .fault)
      (hasks : Asks algorithm detector given state) (hmoves : state ≠ detector.eventState)
      (hdue : given.ticks = false ∧ detector.delay state = 0 ∨
        given.ticks = true ∧ ∃ remaining ≤ 1, detector.pending = some ⟨state, remaining⟩) :
      Step algorithm detector given (detector.confirmTransition ⟨detector.eventState, state⟩
        given.reliability, detector.proposal algorithm state)
  | count {state : EventState} {remaining : ℕ} (hfault : detector.eventState ≠ .fault)
      (hasks : Asks algorithm detector given state) (hmoves : state ≠ detector.eventState)
      (hticks : given.ticks = true) (hpending : detector.pending = some ⟨state, remaining⟩)
      (hleft : 1 < remaining) :
      Step algorithm detector given
        ({ detector with pending := some ⟨state, remaining - 1⟩ }, none)
  | keep {state : EventState} {remaining : ℕ} (hfault : detector.eventState ≠ .fault)
      (hasks : Asks algorithm detector given state) (hmoves : state ≠ detector.eventState)
      (hticks : given.ticks = false) (hdelay : 0 < detector.delay state)
      (hpending : detector.pending = some ⟨state, remaining⟩) :
      Step algorithm detector given (detector, none)
  | seed {state : EventState} (hfault : detector.eventState ≠ .fault)
      (hasks : Asks algorithm detector given state) (hmoves : state ≠ detector.eventState)
      (hdelay : given.ticks = true ∨ 0 < detector.delay state)
      (hpending : detector.pending.map (·.state) ≠ some state) :
      Step algorithm detector given
        ({ detector with pending := some ⟨state, detector.delay state⟩ }, none)

theorem faultProposal_cases (algorithm : Algorithm Value) (detector : Detector)
    (reliability : Reliability) :
    (reliability ≠ .noFaultDetected ∧
      (detector.eventState ≠ .fault ∨ detector.faultReliability ≠ some reliability) ∧
      detector.faultProposal algorithm reliability = some (detector.proposal algorithm .fault)) ∨
    (reliability ≠ .noFaultDetected ∧ detector.eventState = .fault ∧
      detector.faultReliability = some reliability ∧
      detector.faultProposal algorithm reliability = some none) ∨
    (reliability = .noFaultDetected ∧ detector.eventState = .fault ∧
      detector.faultProposal algorithm reliability = some (detector.proposal algorithm .normal)) ∨
    (reliability = .noFaultDetected ∧ detector.eventState ≠ .fault ∧
      detector.faultProposal algorithm reliability = none) := by
  unfold faultProposal faultPrecedence
  by_cases hgood : reliability = .noFaultDetected
  · by_cases hfault : detector.eventState = .fault
    · exact .inr (.inr (.inl ⟨hgood, hfault, by rw [if_neg (not_not_intro hgood), if_pos hfault]⟩))
    · exact .inr (.inr (.inr ⟨hgood, hfault, by rw [if_neg (not_not_intro hgood), if_neg hfault]⟩))
  · rw [if_pos hgood]
    by_cases hfault : detector.eventState = .fault
    · by_cases hsame : detector.faultReliability = some reliability
      · refine .inr (.inl ⟨hgood, hfault, hsame, ?_⟩)
        rw [if_neg (not_not_intro hfault), if_pos hsame]
      · refine .inl ⟨hgood, .inr hsame, ?_⟩
        rw [if_neg (not_not_intro hfault), if_neg hsame]
    · refine .inl ⟨hgood, .inl hfault, ?_⟩
      rw [if_pos hfault]

/-- A call goes one of the ways. -/
theorem call_step (algorithm : Algorithm Value) (detector : Detector) (given : Call Value) :
    Step algorithm detector given (detector.call algorithm given) := by
  unfold call tick probe propose tickProposal
  rcases faultProposal_cases algorithm detector given.reliability with
    ⟨hbad, hnew, hcase⟩ | ⟨hbad, hfault, hsame, hcase⟩ | ⟨hgood, hfault, hcase⟩ |
    ⟨hgood, hfault, hcase⟩
  · rw [hcase, ite_self]
    exact .enter hbad hnew
  · rw [hcase, ite_self]
    exact .hold hbad hfault hsame
  · rw [hcase, ite_self]
    exact .recover hgood hfault
  · rw [hcase]
    have hasks : Asks algorithm detector given
        (algorithm.computeNewState detector.eventState given.value) := ⟨hgood, rfl⟩
    generalize algorithm.computeNewState detector.eventState given.value = state at *
    simp only [Bool.false_eq_true, if_false]
    by_cases hmoves : state = detector.eventState
    · rw [if_pos hmoves, if_pos hmoves, ite_self]
      exact .revert hfault (hmoves ▸ hasks)
    rw [if_neg hmoves, if_neg hmoves]
    by_cases hticks : given.ticks = true
    · rw [if_pos hticks]
      cases hpending : detector.pending with
      | none =>
        exact .seed hfault hasks hmoves (.inl hticks) (by rw [hpending]; exact nofun)
      | some waiting =>
        obtain ⟨waited, remaining⟩ := waiting
        dsimp only
        by_cases hsame : waited = state
        · subst hsame
          rw [if_pos rfl]
          by_cases hleft : remaining > 1
          · rw [if_pos hleft]
            exact .count hfault hasks hmoves hticks hpending hleft
          · rw [if_neg hleft]
            exact .fire hfault hasks hmoves
              (.inr ⟨hticks, remaining, Nat.le_of_not_lt hleft, hpending⟩)
        · rw [if_neg hsame]
          refine .seed hfault hasks hmoves (.inl hticks) ?_
          rw [hpending]
          exact fun heq => hsame (Option.some.inj heq)
    · rw [if_neg hticks]
      have hprobe : given.ticks = false := Bool.eq_false_iff.mpr hticks
      by_cases hdelay : detector.delay state = 0
      · rw [if_pos hdelay]
        exact .fire hfault hasks hmoves (.inl ⟨hprobe, hdelay⟩)
      rw [if_neg hdelay]
      by_cases hpending : detector.pending.map (·.state) ≠ some state
      · rw [if_pos hpending]
        exact .seed hfault hasks hmoves (.inr (Nat.pos_of_ne_zero hdelay)) hpending
      · rw [if_neg hpending]
        obtain ⟨⟨waited, remaining⟩, hwaiting, hsame⟩ := Option.map_eq_some_iff.mp
          (not_not.mp hpending)
        subst hsame
        exact .keep hfault hasks hmoves hprobe (Nat.pos_of_ne_zero hdelay) hwaiting

/-! ## Every run from the start -/

variable {algorithm : Algorithm Value} {settings : Settings}

@[simp] theorem proposal_map (detector : Detector) (state : EventState) :
    (detector.proposal algorithm state).map (·.change.target) = some state := rfl

/-- What a detector remembers: the fault FAULT was last entered on, and a countdown that only runs
outside FAULT, to a state that does not hold. -/
structure Kept (settings : Settings) (last : Option Reliability) (detector : Detector) : Prop where
  settings_eq : detector.settings = settings
  recorded : detector.faultReliability = if detector.eventState = .fault then last else none
  entered : detector.eventState = .fault → last.isSome
  idle : detector.eventState = .fault → detector.pending = none
  moves : detector.pending.map (·.state) ≠ some detector.eventState

theorem kept_initial (settings : Settings) : Kept settings none (initial settings) where
  settings_eq := rfl
  recorded := rfl
  entered := fun h => absurd h (by decide : EventState.normal ≠ .fault)
  idle := fun _ => rfl
  moves := nofun

variable {last : Option Reliability}

theorem Kept.call (h : Kept settings last detector) (given : Call Value) :
    Kept settings (if (detector.call algorithm given).2.map (·.change.target) = some .fault
      then some given.reliability else last) (detector.call algorithm given).1 := by
  obtain ⟨hsettings, hrecorded, hentered, hidle, hmoves⟩ := h
  generalize hcalled : detector.call algorithm given = called
  have hstep := hcalled ▸ call_step algorithm detector given
  cases hstep with
  | enter hbad hnew =>
    rw [if_pos (proposal_map detector .fault)]
    exact ⟨hsettings, rfl, fun _ => rfl, fun _ => rfl, nofun⟩
  | hold hbad hfault hsame => exact ⟨hsettings, hrecorded, hentered, hidle, hmoves⟩
  | recover hgood hfault =>
    rw [if_neg (by rw [proposal_map]; decide)]
    exact ⟨hsettings, rfl, fun heq => absurd heq (show EventState.normal ≠ .fault by decide),
      fun _ => rfl, nofun⟩
  | revert hfault hasks => exact ⟨hsettings, hrecorded, hentered, fun _ => rfl, nofun⟩
  | @fire state hfault hasks hmove hdue =>
    have hother : state ≠ .fault := hasks.2 ▸ algorithm.fault_only _ _ hfault
    rw [if_neg (by rw [proposal_map]; exact fun heq => hother (Option.some.inj heq))]
    refine ⟨hsettings, ?_, fun heq => absurd heq hother, fun _ => rfl, nofun⟩
    unfold confirmTransition
    rw [if_neg hother, if_neg hother]
  | count hfault hasks hmove hticks hpending hleft =>
    exact ⟨hsettings, hrecorded, hentered, fun heq => absurd heq hfault,
      fun heq => hmove (Option.some.inj heq)⟩
  | keep hfault hasks hmove hticks hdelay hpending =>
    exact ⟨hsettings, hrecorded, hentered, hidle, hmoves⟩
  | seed hfault hasks hmove hdelay hpending =>
    exact ⟨hsettings, hrecorded, hentered, fun heq => absurd heq hfault,
      fun heq => hmove (Option.some.inj heq)⟩

theorem Kept.run (h : Kept settings last detector) (calls : List (Call Value)) :
    Kept settings (lastEntry algorithm detector last calls) (detector.run algorithm calls) := by
  induction calls generalizing last detector with
  | nil => exact h
  | cons given calls ih => exact ih (h.call given)

/-- A countdown is a record of the calls since it was seeded. -/
structure Counted (algorithm : Algorithm Value) (settings : Settings) (calls : List (Call Value))
    (waiting : PendingTransition) : Prop where
  seeded : ∃ earlier seed later, calls = earlier ++ seed :: later ∧
    Persists algorithm waiting.state ((initial settings).run algorithm earlier) (seed :: later) ∧
    waiting.remaining + ticksOf later
      = delayToward settings.timeDelay settings.timeDelayNormal waiting.state
  left : 0 < delayToward settings.timeDelay settings.timeDelayNormal waiting.state →
    0 < waiting.remaining

theorem Counted.concat {waiting : PendingTransition} {remaining : ℕ} {given : Call Value}
    (h : Counted algorithm settings calls waiting)
    (hasks : Asks algorithm ((initial settings).run algorithm calls) given waiting.state)
    (hcount : remaining + (if given.ticks then 1 else 0) = waiting.remaining)
    (hleft : 0 < waiting.remaining → 0 < remaining) :
    Counted algorithm settings (calls ++ [given]) ⟨waiting.state, remaining⟩ := by
  obtain ⟨⟨earlier, seed, later, rfl, hpersists, htotal⟩, hpositive⟩ := h
  refine ⟨⟨earlier, seed, later ++ [given], by rw [List.append_assoc, List.cons_append], ?_, ?_⟩,
    fun hdelay => hleft (hpositive hdelay)⟩
  · rw [← List.cons_append, persists_append, ← run_append]
    exact ⟨hpersists, hasks, trivial⟩
  · rw [ticksOf_concat]
    dsimp only
    omega

/-- Every countdown is such a record. -/
theorem counted_run (algorithm : Algorithm Value) (settings : Settings) (calls : List (Call Value))
    {waiting : PendingTransition}
    (hpending : ((initial settings).run algorithm calls).pending = some waiting) :
    Counted algorithm settings calls waiting := by
  induction calls using List.reverseRecOn generalizing waiting with
  | nil => exact absurd (show (none : Option PendingTransition) = some waiting from hpending) nofun
  | append_singleton calls given ih =>
    rw [run_concat] at hpending
    have hkept : Kept settings _ ((initial settings).run algorithm calls) :=
      (kept_initial settings).run calls
    have hstep := call_step algorithm ((initial settings).run algorithm calls) given
    generalize hcalled : ((initial settings).run algorithm calls).call algorithm given = called
      at hpending hstep
    cases hstep with
    | enter hbad hnew => cases hpending
    | hold hbad hfault hsame =>
      rw [hkept.idle hfault] at hpending
      cases hpending
    | recover hgood hfault => cases hpending
    | revert hfault hasks => cases hpending
    | fire hfault hasks hmove hdue => cases hpending
    | @count state remaining hfault hasks hmove hticks hwaiting hleft =>
      cases hpending
      refine (ih hwaiting).concat hasks ?_ ?_
      · rw [if_pos hticks]
        dsimp only
        omega
      · intro _
        omega
    | @keep state remaining hfault hasks hmove hticks hdelay hwaiting =>
      rw [hwaiting] at hpending
      cases hpending
      refine (ih hwaiting).concat hasks ?_ id
      rw [hticks]
      rfl
    | @seed state hfault hasks hmove hdelay hwaiting =>
      cases hpending
      have htotal : ((initial settings).run algorithm calls).delay state
          = delayToward settings.timeDelay settings.timeDelayNormal state := by
        unfold delay
        rw [hkept.settings_eq]
      exact ⟨⟨calls, given, [], rfl, ⟨hasks, trivial⟩, htotal⟩, fun hpos => htotal ▸ hpos⟩

/-- While every call asks for its state, a countdown loses one at each tick. -/
theorem run_counts {detector : Detector} {state : EventState} {remaining : ℕ}
    (hpending : detector.pending = some ⟨state, remaining⟩) (hfault : detector.eventState ≠ .fault)
    (hmoves : state ≠ detector.eventState) (hdelay : 0 < detector.delay state)
    {calls : List (Call Value)} (hpersists : Persists algorithm state detector calls)
    (hleft : ticksOf calls < remaining) :
    detector.run algorithm calls
      = { detector with pending := some ⟨state, remaining - ticksOf calls⟩ } := by
  induction calls generalizing detector remaining with
  | nil =>
    show detector = { detector with pending := some ⟨state, remaining⟩ }
    rw [← hpending]
  | cons given calls ih =>
    obtain ⟨hasks, hrest⟩ := hpersists
    rw [ticksOf_cons] at hleft
    have hstep := call_step algorithm detector given
    show (detector.call algorithm given).1.run algorithm calls = _
    generalize hcalled : detector.call algorithm given = called at hrest hstep ⊢
    rw [ticksOf_cons]
    cases hstep with
    | enter hbad hnew => exact absurd hasks.1 hbad
    | hold hbad hheld hsame => exact absurd hasks.1 hbad
    | recover hgood hheld => exact absurd hheld hfault
    | revert _ hreverts => exact absurd (hasks.2.symm.trans hreverts.2) hmoves
    | @fire asked _ hasked _ hdue =>
      obtain rfl : asked = state := hasked.2.symm.trans hasks.2
      rcases hdue with ⟨-, hnone⟩ | ⟨hticks, left, hle, hwaiting⟩
      · exact absurd hnone (Nat.pos_iff_ne_zero.mp hdelay)
      · rw [hpending, Option.some.injEq, PendingTransition.mk.injEq] at hwaiting
        rw [if_pos hticks] at hleft
        omega
    | @count asked left _ hasked _ hticks hwaiting hmore =>
      rw [hpending, Option.some.injEq, PendingTransition.mk.injEq] at hwaiting
      obtain ⟨rfl, rfl⟩ := hwaiting
      rw [if_pos hticks] at hleft ⊢
      have hnext := @ih { detector with pending := some ⟨state, remaining - 1⟩ } (remaining - 1) rfl
        hfault hmoves hdelay hrest (by omega)
      rw [hnext]
      rw [Nat.sub_sub, Nat.add_comm]
    | keep _ _ _ hticks _ _ =>
      rw [hticks] at hleft ⊢
      exact ih hpending hfault hmoves hdelay hrest hleft
    | @seed asked _ hasked _ _ hother =>
      obtain rfl : asked = state := hasked.2.symm.trans hasks.2
      rw [hpending] at hother
      exact absurd rfl hother

theorem call_due {detector : Detector} {state : EventState}
    (hpending : detector.pending = some ⟨state, 1⟩) (hfault : detector.eventState ≠ .fault)
    (hmoves : state ≠ detector.eventState) {given : Call Value}
    (hasks : Asks algorithm detector given state) (hticks : given.ticks = true) :
    (detector.call algorithm given).2 = detector.proposal algorithm state := by
  have hstep := call_step algorithm detector given
  generalize hcalled : detector.call algorithm given = called at hstep ⊢
  cases hstep with
  | enter hbad hnew => exact absurd hasks.1 hbad
  | hold hbad hheld hsame => exact absurd hasks.1 hbad
  | recover hgood hheld => exact absurd hheld hfault
  | revert _ hreverts => exact absurd (hasks.2.symm.trans hreverts.2) hmoves
  | fire _ hasked _ _ => rw [← hasks.2, ← hasked.2]
  | count _ _ _ _ hwaiting hmore =>
    rw [hpending, Option.some.injEq, PendingTransition.mk.injEq] at hwaiting
    omega
  | keep _ _ _ hprobe _ _ => exact absurd (hticks.symm.trans hprobe) Bool.noConfusion
  | @seed asked _ hasked _ _ hother =>
    obtain rfl : asked = state := hasked.2.symm.trans hasks.2
    rw [hpending] at hother
    exact absurd rfl hother

/-! ## Persistence -/

theorem transition_delayed (calls : List (Call Value)) (given : Call Value)
    (outcome : TransitionOutcome)
    (houtcome : (((initial settings).run algorithm calls).call algorithm given).2 = some outcome)
    (htarget : outcome.change.target ≠ .fault) (hbefore : outcome.change.before ≠ .fault)
    (hdelay : 0 < delayToward settings.timeDelay settings.timeDelayNormal outcome.change.target) :
    given.ticks = true ∧ ∃ earlier seed later, calls = earlier ++ seed :: later ∧
      Persists algorithm outcome.change.target ((initial settings).run algorithm earlier)
        (seed :: later ++ [given]) ∧
      ticksOf (later ++ [given])
        = delayToward settings.timeDelay settings.timeDelayNormal outcome.change.target := by
  have hkept : Kept settings _ ((initial settings).run algorithm calls) :=
    (kept_initial settings).run calls
  have hcounted := fun waiting => @counted_run _ algorithm settings calls waiting
  generalize hdetector : (initial settings).run algorithm calls = detector at *
  have hstep := call_step algorithm detector given
  generalize hcalled : detector.call algorithm given = called at hstep houtcome
  cases hstep with
  | enter hbad hnew =>
    cases houtcome
    exact absurd rfl htarget
  | hold hbad hfault hsame => cases houtcome
  | recover hgood hfault =>
    cases houtcome
    exact absurd hfault hbefore
  | revert hfault hasks => cases houtcome
  | @fire state hfault hasks hmoves hdue =>
    cases houtcome
    rcases hdue with ⟨-, hnone⟩ | ⟨hticks, remaining, hle, hwaiting⟩
    · unfold delay at hnone
      rw [hkept.settings_eq] at hnone
      exact absurd hnone (Nat.pos_iff_ne_zero.mp hdelay)
    · obtain ⟨⟨earlier, seed, later, rfl, hpersists, htotal⟩, hpositive⟩ :=
        hcounted _ hwaiting
      have hone := hpositive hdelay
      dsimp only at htotal hone
      refine ⟨hticks, earlier, seed, later, rfl, ?_, ?_⟩
      · rw [persists_append, ← run_append, hdetector]
        exact ⟨hpersists, hasks, trivial⟩
      · rw [ticksOf_concat, if_pos hticks]
        dsimp only
        omega
  | count hfault hasks hmoves hticks hpending hleft => cases houtcome
  | keep hfault hasks hmoves hticks hdelay hpending => cases houtcome
  | seed hfault hasks hmoves hdelay hpending => cases houtcome

theorem transition_fires (earlier later : List (Call Value)) (seed given : Call Value)
    (state : EventState) (hseeds : Seeds algorithm ((initial settings).run algorithm earlier) seed
      state) (hpersists : Persists algorithm state
        ((initial settings).run algorithm (earlier ++ [seed])) (later ++ [given]))
    (hticks : given.ticks = true)
    (htotal : ticksOf (later ++ [given])
      = delayToward settings.timeDelay settings.timeDelayNormal state) :
    ∃ outcome, (((initial settings).run algorithm (earlier ++ seed :: later)).call algorithm
      given).2 = some outcome ∧ outcome.change.target = state := by
  have hkept : Kept settings _ ((initial settings).run algorithm earlier) :=
    (kept_initial settings).run earlier
  rw [run_concat] at hpersists
  rw [ticksOf_concat, if_pos hticks] at htotal
  have hrun : (initial settings).run algorithm (earlier ++ seed :: later)
      = (((initial settings).run algorithm earlier).call algorithm seed).1.run algorithm later :=
    run_append algorithm (initial settings) earlier (seed :: later)
  rw [hrun]
  generalize (initial settings).run algorithm earlier = detector at *
  obtain ⟨hother, hseeded⟩ := hseeds
  have hstep := call_step algorithm detector seed
  generalize hcalled : detector.call algorithm seed = called at hstep hseeded hpersists ⊢
  cases hstep with
  | enter hbad hnew => cases hseeded
  | hold hbad hfault hsame => exact absurd hseeded hother
  | recover hgood hfault => cases hseeded
  | revert hfault hasks => cases hseeded
  | fire hfault hasks hmoves hdue => cases hseeded
  | count hfault hasks hmoves hseedTicks hpending hleft =>
    cases hseeded
    rw [hpending] at hother
    exact absurd rfl hother
  | keep hfault hasks hmoves hseedTicks hdelay hpending => exact absurd hseeded hother
  | @seed asked hfault hasks hmoves hdelay hpending =>
    obtain rfl : asked = state := Option.some.inj hseeded
    have hsame : detector.delay asked
        = delayToward settings.timeDelay settings.timeDelayNormal asked := by
      unfold delay
      rw [hkept.settings_eq]
    obtain ⟨hwhile, hlast⟩ := persists_append.mp hpersists
    have hpos : 0 < detector.delay asked := by omega
    have hcounts := @run_counts _ algorithm
      { detector with pending := some ⟨asked, detector.delay asked⟩ } asked
      (detector.delay asked) rfl hfault hmoves hpos later hwhile (by omega)
    rw [hcounts] at hlast ⊢
    have hone : detector.delay asked - ticksOf later = 1 := by omega
    rw [hone] at hlast ⊢
    have hdue := @call_due _ algorithm { detector with pending := some ⟨asked, 1⟩ } asked rfl
      hfault hmoves given hlast.1 hticks
    exact ⟨_, hdue, rfl⟩

theorem fault_entered_iff (calls : List (Call Value)) (given : Call Value) :
    (∃ outcome, (((initial settings).run algorithm calls).call algorithm given).2 = some outcome ∧
      outcome.change.target = .fault) ↔
    given.reliability ≠ .noFaultDetected ∧
      (((initial settings).run algorithm calls).eventState ≠ .fault ∨
        lastEntry algorithm (initial settings) none calls ≠ some given.reliability) := by
  have hkept : Kept settings (lastEntry algorithm (initial settings) none calls)
    ((initial settings).run algorithm calls) := (kept_initial settings).run calls
  generalize (initial settings).run algorithm calls = detector at *
  have hrecorded : detector.eventState ≠ .fault ∨
      detector.faultReliability = lastEntry algorithm (initial settings) none calls := by
    by_cases hfault : detector.eventState = .fault
    · exact .inr (by rw [hkept.recorded, if_pos hfault])
    · exact .inl hfault
  have hstep := call_step algorithm detector given
  generalize hcalled : detector.call algorithm given = called at hstep ⊢
  cases hstep with
  | enter hbad hnew =>
    refine ⟨fun _ => ⟨hbad, ?_⟩, fun _ => ⟨_, rfl, rfl⟩⟩
    rcases hrecorded with hnormal | hrecord
    · exact .inl hnormal
    · rw [← hrecord]
      exact hnew
  | hold hbad hfault hsame =>
    refine ⟨fun ⟨_, hnone, _⟩ => absurd hnone nofun, fun ⟨_, hnew⟩ => ?_⟩
    rcases hrecorded with hnormal | hrecord
    · exact absurd hfault hnormal
    · rw [← hrecord, hsame] at hnew
      exact hnew.elim (absurd hfault) (absurd rfl)
  | recover hgood hfault =>
    refine ⟨fun ⟨_, hsome, hto⟩ => ?_, fun h => absurd hgood h.1⟩
    cases hsome
    exact absurd hto (show EventState.normal ≠ .fault by decide)
  | revert hfault hasks =>
    exact ⟨fun ⟨_, hnone, _⟩ => absurd hnone nofun, fun h => absurd hasks.1 h.1⟩
  | fire hfault hasks hmoves hdue =>
    refine ⟨fun ⟨_, hsome, hto⟩ => ?_, fun h => absurd hasks.1 h.1⟩
    cases hsome
    exact absurd (hasks.2.trans hto) (algorithm.fault_only _ _ hfault)
  | count hfault hasks hmoves hticks hpending hleft =>
    exact ⟨fun ⟨_, hnone, _⟩ => absurd hnone nofun, fun h => absurd hasks.1 h.1⟩
  | keep hfault hasks hmoves hticks hdelay hpending =>
    exact ⟨fun ⟨_, hnone, _⟩ => absurd hnone nofun, fun h => absurd hasks.1 h.1⟩
  | seed hfault hasks hmoves hdelay hpending =>
    exact ⟨fun ⟨_, hnone, _⟩ => absurd hnone nofun, fun h => absurd hasks.1 h.1⟩

theorem fault_left (given : Call Value) (hheld : detector.eventState = .fault) :
    (given.reliability = .noFaultDetected → ∃ outcome,
      (detector.call algorithm given).2 = some outcome ∧ outcome.change.target = .normal) ∧
    ∀ outcome, (detector.call algorithm given).2 = some outcome →
      outcome.change.target ≠ .fault → outcome.change.target = .normal := by
  have hstep := call_step algorithm detector given
  generalize hcalled : detector.call algorithm given = called at hstep ⊢
  cases hstep with
  | enter hbad hnew =>
    refine ⟨fun hgood => absurd hgood hbad, fun outcome hsome hto => ?_⟩
    cases hsome
    exact absurd rfl hto
  | hold hbad hfault hsame =>
    exact ⟨fun hgood => absurd hgood hbad, fun outcome hnone => absurd hnone nofun⟩
  | recover hgood hfault =>
    refine ⟨fun _ => ⟨_, rfl, rfl⟩, fun outcome hsome _ => ?_⟩
    cases hsome
    rfl
  | revert hfault hasks => exact absurd hheld hfault
  | fire hfault hasks hmoves hdue => exact absurd hheld hfault
  | count hfault hasks hmoves hticks hpending hleft => exact absurd hheld hfault
  | keep hfault hasks hmoves hticks hdelay hpending => exact absurd hheld hfault
  | seed hfault hasks hmoves hdelay hpending => exact absurd hheld hfault

theorem faultReliability_isSome (algorithm : Algorithm Value) (settings : Settings)
    (calls : List (Call Value)) :
    ((initial settings).run algorithm calls).faultReliability.isSome ↔
      ((initial settings).run algorithm calls).eventState = .fault := by
  have hkept : Kept settings (lastEntry algorithm (initial settings) none calls)
    ((initial settings).run algorithm calls) := (kept_initial settings).run calls
  rw [hkept.recorded]
  by_cases hfault : ((initial settings).run algorithm calls).eventState = .fault
  · rw [if_pos hfault]
    exact ⟨fun _ => hfault, hkept.entered⟩
  · rw [if_neg hfault]
    exact ⟨fun h => absurd h Bool.noConfusion, fun h => absurd h hfault⟩

/-- What the delays of a detector measure, over every run from the start. -/
structure MeasuresPersistence (algorithm : Algorithm Value) (settings : Settings) : Prop where
  /-- A delayed transition comes at a tick, after as many as its delay that all asked for it, and
  a call before these that asked for it too. -/
  delayed : ∀ (calls : List (Call Value)) (given : Call Value) (outcome : TransitionOutcome),
    (((initial settings).run algorithm calls).call algorithm given).2 = some outcome →
    outcome.change.target ≠ .fault → outcome.change.before ≠ .fault →
    0 < delayToward settings.timeDelay settings.timeDelayNormal outcome.change.target →
    given.ticks = true ∧ ∃ earlier seed later, calls = earlier ++ seed :: later ∧
      Persists algorithm outcome.change.target ((initial settings).run algorithm earlier)
        (seed :: later ++ [given]) ∧
      ticksOf (later ++ [given])
        = delayToward settings.timeDelay settings.timeDelayNormal outcome.change.target
  /-- Once seeded and asked for until the tick its delay is up, a transition comes. -/
  fires : ∀ (earlier later : List (Call Value)) (seed given : Call Value) (state : EventState),
    Seeds algorithm ((initial settings).run algorithm earlier) seed state →
    Persists algorithm state ((initial settings).run algorithm (earlier ++ [seed]))
      (later ++ [given]) →
    given.ticks = true →
    ticksOf (later ++ [given]) = delayToward settings.timeDelay settings.timeDelayNormal state →
    ∃ outcome, (((initial settings).run algorithm (earlier ++ seed :: later)).call algorithm
      given).2 = some outcome ∧ outcome.change.target = state
  /-- FAULT is entered on bad reliability, where it does not hold or was entered on another. -/
  enters : ∀ (calls : List (Call Value)) (given : Call Value),
    (∃ outcome, (((initial settings).run algorithm calls).call algorithm given).2 = some outcome ∧
      outcome.change.target = .fault) ↔
    given.reliability ≠ .noFaultDetected ∧
      (((initial settings).run algorithm calls).eventState ≠ .fault ∨
        lastEntry algorithm (initial settings) none calls ≠ some given.reliability)
  /-- FAULT is left for NORMAL, on the first call that sees good reliability. -/
  leaves : ∀ (calls : List (Call Value)) (given : Call Value),
    ((initial settings).run algorithm calls).eventState = .fault →
    (given.reliability = .noFaultDetected → ∃ outcome,
      (((initial settings).run algorithm calls).call algorithm given).2 = some outcome ∧
        outcome.change.target = .normal) ∧
    ∀ outcome, (((initial settings).run algorithm calls).call algorithm given).2 = some outcome →
      outcome.change.target ≠ .fault → outcome.change.target = .normal
  recorded : ∀ calls : List (Call Value),
    ((initial settings).run algorithm calls).faultReliability.isSome ↔
      ((initial settings).run algorithm calls).eventState = .fault

theorem measuresPersistence (algorithm : Algorithm Value) (settings : Settings) :
    MeasuresPersistence algorithm settings where
  delayed := transition_delayed
  fires := transition_fires
  enters := fault_entered_iff
  leaves := fun _ given => fault_left given
  recorded := faultReliability_isSome algorithm settings

/-- The delays of the three detectors measure persistence, whatever the limits compare and the alarm
values are. -/
theorem detectors_measure_persistence (settings : Settings) :
    (∀ {Value : Type} (limits : OutOfRangeDetector.Limits Value),
      MeasuresPersistence (OutOfRangeDetector.algorithm limits) settings) ∧
    (∀ alarmValues, MeasuresPersistence (ChangeOfStateDetector.algorithm alarmValues) settings) ∧
    MeasuresPersistence CommandFailureDetector.algorithm settings :=
  ⟨fun _ => measuresPersistence _ settings, fun _ => measuresPersistence _ settings,
    measuresPersistence _ settings⟩

end RustyBacnet.Events.Detector
