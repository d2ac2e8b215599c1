import RustyBacnet.Mstp.Station

/-!
# What holds of a station

1. `Station.Quiet`: a waiting frame starts no sooner than T_turnaround after all activity, and the
   frame buffer holds its encoding.
2. `Station.Licensed`: information frames only with the token, and no more than its budget.
3. `Station.Balanced`: every answer owed is settled once, and each one given up is counted.
4. `Station.Sound`: all of them, with `Ordered` and no fault, along every move.
-/

namespace RustyBacnet.Mstp

def CoreEvent.startsInfo : CoreEvent → Bool
  | .started frame origin _ _ => isInfo frame origin
  | _ => false

/-- Every information frame was started with the token, and none beyond the budget of one token. -/
def Lawful (limit : ℕ) : List CoreEvent → Prop
  | [] => True
  | event :: older =>
    (event.startsInfo = true → holdsToken older = true) ∧ spent (event :: older) ≤ limit ∧
      Lawful limit older

variable {history : List CoreEvent}

theorem Lawful.spent_le {limit : ℕ} (h : Lawful limit history) : spent history ≤ limit := by
  cases history with
  | nil => exact Nat.zero_le _
  | cons event older => exact h.2.1

theorem Lawful.older {limit : ℕ} {newer older : List CoreEvent} (h : Lawful limit (newer ++ older)) :
    Lawful limit older := by
  induction newer with
  | nil => exact h
  | cons event newer ih => exact ih h.2.2

theorem spent_append {use : List CoreEvent} (huse : .tokenTaken ∉ use) (older : List CoreEvent) :
    spent (use ++ .tokenTaken :: older) = use.countP CoreEvent.spends := by
  induction use with
  | nil => rfl
  | cons event use ih =>
    obtain ⟨hevent, huse⟩ := not_or.mp (fun hmem => huse (List.mem_cons.mpr hmem))
    rw [List.countP_cons, ← ih huse]
    cases event with
    | tokenTaken => exact absurd rfl hevent
    | _ => rfl

theorem Lawful.cons {limit : ℕ} {history : List CoreEvent} (h : Lawful limit history)
    {event : CoreEvent} (hevent : event.startsInfo = false)
    (hspent : spent (event :: history) ≤ spent history) : Lawful limit (event :: history) :=
  ⟨fun hs => absurd (hevent.symm.trans hs) (by simp), hspent.trans h.spent_le, h⟩

/-! ## Ledgers -/

variable {origin : Origin}

theorem settle_started_of_not (h : origin.isAnswer = false) (frame : Frame) (sole : Bool)
    (now : Instant) (debt : Option Debt) :
    settle (.started frame origin sole now) debt = some debt := by
  cases debt with
  | none => exact if_neg (by rw [h]; decide)
  | some debt => exact if_neg (by rw [h]; decide)

theorem settle_started (h : origin.isAnswer = true) (frame : Frame) (sole : Bool) (now : Instant)
    (debt : Option Debt) :
    settle (.started frame origin sole now) debt
      = debt.bind fun debt => if frame.header.destination = debt.asker then some none else none := by
  cases debt with
  | none => exact if_pos h
  | some debt => exact if_pos h

variable {event : CoreEvent}

theorem settle_of_not_accounts (h : event.accounts = false) (debt : Option Debt) :
    settle event debt = some debt := by
  cases event with
  | owed | abandoned | expired => cases h
  | started frame origin sole now => exact settle_started_of_not h frame sole now debt
  | _ => rfl

/-- An event about answers settles what is owed and pays it, or owes where nothing was owed. -/
theorem settle_cases (h : event.accounts = true) {before after : Option Debt}
    (hsettle : settle event before = some after) :
    (event.settles = true ∧ after = none ∧ ∃ debt, before = some debt ∧ event.pays debt = true) ∨
      (event.settles = false ∧ before = none ∧
        ∃ debt, after = some debt ∧ event = .owed debt.asker debt.data) := by
  cases event with
  | owed asker data =>
    cases before with
    | none => exact .inr ⟨rfl, rfl, ⟨asker, data⟩, (Option.some.inj hsettle).symm, rfl⟩
    | some debt => cases hsettle
  | abandoned =>
    cases before with
    | none => cases hsettle
    | some debt =>
      replace hsettle : (if debt.data then some none else none) = some after := hsettle
      simp only [Option.ite_none_right_eq_some, Option.some.injEq] at hsettle
      exact .inl ⟨rfl, hsettle.2.symm, debt, rfl, hsettle.1⟩
  | expired =>
    cases before with
    | none => cases hsettle
    | some debt => exact .inl ⟨rfl, (Option.some.inj hsettle).symm, debt, rfl, rfl⟩
  | started frame origin sole now =>
    have hanswer : origin.isAnswer = true := h
    rw [settle_started hanswer] at hsettle
    cases before with
    | none => cases hsettle
    | some debt =>
      rw [Option.bind_some] at hsettle
      simp only [Option.ite_none_right_eq_some, Option.some.injEq] at hsettle
      exact .inl ⟨h, hsettle.2.symm, debt, rfl, by simp [CoreEvent.pays, hanswer, hsettle.1]⟩
  | _ => cases h

variable {debt : Option Debt}

theorem ledger_cons_eq {older : List CoreEvent} (h : ledger (event :: older) = some debt) :
    ∃ before, ledger older = some before ∧ settle event before = some debt :=
  Option.bind_eq_some_iff.mp h

variable {newer : List CoreEvent}

theorem ledger_older {older : List CoreEvent} (h : ledger (newer ++ older) = some debt) :
    ∃ before, ledger older = some before := by
  induction newer generalizing debt with
  | nil => exact ⟨debt, h⟩
  | cons event newer ih =>
    obtain ⟨before, hbefore, -⟩ := ledger_cons_eq h
    exact ih hbefore

theorem ledger_owed {older : List CoreEvent} {asker : UInt8} {data : Bool}
    (h : ledger (newer ++ .owed asker data :: older) = some debt) :
    ((∀ event ∈ newer, event.accounts = false) ∧ debt = some ⟨asker, data⟩) ∨
      ∃ rest event quiet, newer = rest ++ event :: quiet ∧
        (∀ event ∈ quiet, event.accounts = false) ∧ event.pays ⟨asker, data⟩ = true := by
  induction newer generalizing debt with
  | nil =>
    obtain ⟨before, -, hsettle⟩ := ledger_cons_eq h
    cases before with
    | none => exact .inl ⟨by simp, (Option.some.inj hsettle).symm⟩
    | some debt => cases hsettle
  | cons event newer ih =>
    obtain ⟨before, hbefore, hsettle⟩ := ledger_cons_eq h
    rcases ih hbefore with ⟨hquiet, rfl⟩ | ⟨rest, paid, quiet, rfl, hquiet, hpays⟩
    · cases haccounts : event.accounts with
      | false =>
        rw [settle_of_not_accounts haccounts] at hsettle
        exact .inl ⟨List.forall_mem_cons.mpr ⟨haccounts, hquiet⟩, (Option.some.inj hsettle).symm⟩
      | true =>
        refine .inr ⟨[], event, newer, rfl, hquiet, ?_⟩
        rcases settle_cases haccounts hsettle with ⟨-, -, d, hd, hpays⟩ | ⟨-, hnone, -⟩
        · rwa [← Option.some.inj hd] at hpays
        · exact absurd hnone (by simp)
    · exact .inr ⟨event :: rest, paid, quiet, rfl, hquiet, hpays⟩

theorem ledger_some {debt : Debt} (h : ledger history = some (some debt)) :
    ∃ quiet older, history = quiet ++ .owed debt.asker debt.data :: older ∧
      ∀ event ∈ quiet, event.accounts = false := by
  induction history with
  | nil => exact absurd h (by simp [ledger])
  | cons event history ih =>
    obtain ⟨before, hbefore, hsettle⟩ := ledger_cons_eq h
    cases haccounts : event.accounts with
    | false =>
      rw [settle_of_not_accounts haccounts] at hsettle
      rw [Option.some.inj hsettle] at hbefore
      obtain ⟨quiet, older, rfl, hquiet⟩ := ih hbefore
      exact ⟨event :: quiet, older, rfl, List.forall_mem_cons.mpr ⟨haccounts, hquiet⟩⟩
    | true =>
      rcases settle_cases haccounts hsettle with ⟨-, hnone, -⟩ | ⟨-, -, d, hd, hevent⟩
      · exact absurd hnone (by simp)
      · obtain rfl := Option.some.inj hd
        exact ⟨[], history, by rw [hevent]; rfl, by simp⟩

namespace Station

variable {s : Station} {move : Move} {tx : ActiveTransmit} {send : PendingSend}

/-! ## Turnaround -/

/-- The waiting frame's start keeps T_turnaround from the last activity. -/
structure Quiet (s : Station) : Prop where
  earliest : ∀ send, s.send = some send →
    send.earliest = satAdd s.lastActivity s.config.tTurnaround
  octets : ∀ send, s.send = some send → s.octets = send.frame.encoding
  now : s.lastActivity ≤ s.lastNow

variable {t : Station}

theorem Quiet.of_fresh (h : s.Quiet) (hfresh : s.Fresh send) (hsend : t.send = some send)
    (hoctets : t.octets = send.frame.encoding) (hconfig : t.config = s.config)
    (hlast : t.lastActivity = s.lastActivity) (hnow : t.lastNow = s.lastNow) : t.Quiet where
  earliest send' hs := by
    obtain rfl := Option.some.inj (hsend.symm.trans hs)
    rw [hfresh.earliest, hconfig, hlast]
  octets send' hs := by
    obtain rfl := Option.some.inj (hsend.symm.trans hs)
    exact hoctets
  now := by
    rw [hlast, hnow]
    exact h.now

theorem Quiet.of_none (hsend : t.send = none) (hnow : t.lastActivity ≤ t.lastNow) : t.Quiet where
  earliest _ hs := absurd (hsend.symm.trans hs) (by simp)
  octets _ hs := absurd (hsend.symm.trans hs) (by simp)
  now := hnow

theorem Quiet.enter (h : s.Quiet) (state : MasterState) : (s.enter state).Quiet := by
  unfold Station.enter
  split_ifs
  · exact h
  · exact ⟨h.earliest, h.octets, h.now⟩
  · exact ⟨h.earliest, h.octets, h.now⟩

theorem Quiet.forget (h : s.Quiet) : s.forget.Quiet := by
  unfold Station.forget
  split_ifs
  · exact of_none rfl h.now
  · exact of_none rfl h.now

theorem Quiet.next (h : s.Quiet) (horder : s.Ordered) (hmove : s.Enabled move) :
    (s.next move).Quiet := by
  cases move with
  | activity =>
    refine ⟨fun send hs => ?_, fun send hs => ?_, Nat.le_refl _⟩
    · obtain ⟨send', -, rfl⟩ := Option.map_eq_some_iff.mp hs
      rfl
    · obtain ⟨send', hs', rfl⟩ := Option.map_eq_some_iff.mp hs
      exact h.octets send' hs'
  | enter state => exact h.enter state
  | rememberToken | clearToken | countFrames | setSole | handOver | poll | withdraw =>
    exact ⟨h.earliest, h.octets, h.now⟩
  | takeToken | generateToken | takeCounters | beginRequest | oweExpired =>
    exact ⟨h.earliest, h.octets, h.now⟩
  | make send => exact h.of_fresh hmove.2.1 rfl rfl rfl rfl rfl
  | scribble octets => exact of_none hmove h.now
  | giveUp =>
    show (if s.send.any (·.origin.isAnswer) then s.forget.enter .idle else s.forget).Quiet
    split_ifs
    · exact h.forget.enter .idle
    · exact h.forget
  | finish =>
    obtain ⟨tx, hactive, hstarted, -⟩ := hmove
    have hended : s.ended.Quiet := of_none (horder.started tx hactive hstarted) (Nat.le_refl _)
    show (if s.active.any (·.post = .idle) then s.ended.enter .idle else s.ended).Quiet
    split_ifs
    · exact hended.enter .idle
    · exact hended
  | answer send =>
    obtain ⟨request, -, hfresh, -⟩ := hmove
    exact h.of_fresh hfresh rfl rfl rfl rfl rfl
  | oweAnswer send => exact h.of_fresh hmove.2.1 rfl rfl rfl rfl rfl
  | abandon =>
    refine Quiet.enter (s := { s.record .abandoned with request := none }) ?_ .idle
    exact ⟨h.earliest, h.octets, h.now⟩
  | expireRequest =>
    refine Quiet.enter (s := { s with request := none }.expire) ?_ .idle
    exact ⟨h.earliest, h.octets, h.now⟩

theorem Quiet.observe (h : s.Quiet) (now : Instant) : (s.observe now).Quiet :=
  ⟨h.earliest, h.octets, h.now.trans (le_max_left _ _)⟩

theorem Quiet.confirm (h : s.Quiet) : (s.confirm tx send).Quiet := of_none rfl h.now

theorem Quiet.turnaround (h : s.Quiet) (hmay : s.MayConfirm tx send) {t : ℕ}
    (ht : t ≤ s.lastActivity) : satAdd t s.config.tTurnaround ≤ s.lastNow := by
  calc satAdd t s.config.tTurnaround
      ≤ satAdd s.lastActivity s.config.tTurnaround := satAdd_mono _ ht
    _ = send.earliest := (h.earliest send hmay.waits).symm
    _ ≤ s.lastNow := hmay.turnaround

theorem Quiet.lastActivity_le (h : s.Quiet) (move : Move) :
    s.lastActivity ≤ (s.next move).lastActivity := by
  cases move with
  | activity => exact h.now
  | finish =>
    show s.lastActivity
      ≤ (if s.active.any (·.post = .idle) then s.ended.enter .idle else s.ended).lastActivity
    split_ifs
    · rw [enter_lastActivity]
      exact h.now
    · exact h.now
  | giveUp =>
    show s.lastActivity ≤ (if s.send.any (·.origin.isAnswer) then s.forget.enter .idle
      else s.forget).lastActivity
    split_ifs <;> simp
  | enter | abandon | expireRequest => simp [Station.next, Station.record, Station.expire]
  | _ => exact Nat.le_refl _

/-! ## The token -/

/-- The station has the token wherever it may go on to an information frame, and what it has
started and made of them is within the budget. -/
structure Licensed (s : Station) : Prop where
  state : s.state.holds = true → s.HasToken
  send : ∀ send, s.send = some send → send.origin.isAnswer = false → holdsToken s.history = true
  active : ∀ tx, s.active = some tx → tx.post ≠ .idle → holdsToken s.history = true
  spends : s.spending = true → s.Within s.frameCount
  info : ∀ send, s.send = some send → isInfo send.frame send.origin = send.post.spends
  budget : ∀ send, s.send = some send → send.post.spends = true →
    s.soleMaster = true ∨ spent s.history + 1 ≤ s.config.frameLimit
  polls : ∀ send, s.send = some send → send.origin = .nextPoll → s.state.spends = false
  past : Lawful s.config.frameLimit s.history

theorem not_spends_of_none {s : Station} (hsend : s.send = none) : s.sendSpends = false := by
  simp [sendSpends, hsend]

theorem Licensed.of_history (h : s.Licensed) (hholds : holdsToken t.history = holdsToken s.history)
    (hspent : spent t.history = spent s.history) (hpast : Lawful s.config.frameLimit t.history)
    (hstate : t.state = s.state) (hsend : t.send = s.send) (hactive : t.active = s.active)
    (hsole : t.soleMaster = s.soleMaster) (hframes : t.frameCount = s.frameCount)
    (hconfig : t.config = s.config) (hnow : s.lastNow ≤ t.lastNow) : t.Licensed where
  state hs := by
    rw [hstate] at hs
    unfold HasToken
    rw [hholds]
    exact (h.state hs).imp_right fun hmax => hmax.trans hnow
  send send hs hanswer := by
    rw [hholds]
    exact h.send send (hsend ▸ hs) hanswer
  active tx htx hpost := by
    rw [hholds]
    exact h.active tx (hactive ▸ htx) hpost
  spends hs := by
    unfold spending sendSpends at hs
    rw [hstate, hsend, hactive] at hs
    unfold Within sendSpends
    rw [hsole, hspent, hsend, hframes]
    exact h.spends hs
  info send hs := h.info send (hsend ▸ hs)
  budget send hs hspends := by
    rw [hsole, hspent, hconfig]
    exact h.budget send (hsend ▸ hs) hspends
  polls send hs horigin := by
    rw [hstate]
    exact h.polls send (hsend ▸ hs) horigin
  past := hconfig ▸ hpast

theorem Licensed.of_none (h : s.Licensed) (hholds : holdsToken t.history = holdsToken s.history)
    (hspent : spent t.history = spent s.history) (hpast : Lawful s.config.frameLimit t.history)
    (hstate : t.state = s.state) (hsend : t.send = none) (hactive : t.active = none)
    (hsole : t.soleMaster = s.soleMaster) (hframes : t.frameCount = s.frameCount)
    (hconfig : t.config = s.config) (hnow : t.lastNow = s.lastNow) : t.Licensed where
  state hs := by
    rw [hstate] at hs
    unfold HasToken
    rw [hholds, hnow]
    exact h.state hs
  send send hs := absurd (hsend.symm.trans hs) (by simp)
  active tx htx := absurd (hactive.symm.trans htx) (by simp)
  spends hs := by
    have hspends : s.state.spends = true := by
      simpa [spending, sendSpends, hstate, hsend, hactive] using hs
    unfold Within
    rw [hsole, hspent, hframes, not_spends_of_none hsend]
    exact (h.spends (by simp [spending, hspends])).imp_right
      (Nat.add_le_add_left (Nat.zero_le _) _).trans
  info send hs := absurd (hsend.symm.trans hs) (by simp)
  budget send hs := absurd (hsend.symm.trans hs) (by simp)
  polls send hs := absurd (hsend.symm.trans hs) (by simp)
  past := hconfig ▸ hpast

/-- A waiting frame that may go out keeps the law. -/
theorem Licensed.of_waiting (h : s.Licensed) (hholds : holdsToken t.history = holdsToken s.history)
    (hspent : spent t.history = spent s.history) (hpast : Lawful s.config.frameLimit t.history)
    (hstate : t.state = s.state) (hsend : t.send = some send) (hactive : t.active = none)
    (hsole : t.soleMaster = s.soleMaster) (hframes : t.frameCount = s.frameCount)
    (hconfig : t.config = s.config) (hnow : t.lastNow = s.lastNow)
    (htoken : send.origin.isAnswer = false → holdsToken s.history = true)
    (hinfo : isInfo send.frame send.origin = send.post.spends)
    (hbudget : send.post.spends = true → s.soleMaster = true ∨
      (spent s.history + 1 ≤ s.frameCount ∧ spent s.history + 1 ≤ s.config.frameLimit))
    (hpolls : send.origin = .nextPoll → s.state.spends = false) : t.Licensed where
  state hs := by
    rw [hstate] at hs
    unfold HasToken
    rw [hholds, hnow]
    exact h.state hs
  send send' hs hanswer := by
    obtain rfl := Option.some.inj (hsend.symm.trans hs)
    rw [hholds]
    exact htoken hanswer
  active tx htx := absurd (hactive.symm.trans htx) (by simp)
  spends hs := by
    unfold Within sendSpends
    rw [hsole, hspent, hsend, hframes]
    by_cases hpost : send.post.spends = true
    · exact (hbudget hpost).imp_right fun hb => by simpa [hpost] using hb.1
    · have hspending : s.state.spends = true := by
        simpa [spending, sendSpends, hstate, hsend, hactive, hpost] using hs
      have hwithin := h.spends (by simp [spending, hspending])
      refine hwithin.imp_right fun hle => ?_
      simp only [Option.any_some, hpost, Bool.false_eq_true, if_false, Nat.add_zero]
      exact (Nat.le_add_right _ _).trans hle
  info send' hs := by
    obtain rfl := Option.some.inj (hsend.symm.trans hs)
    exact hinfo
  budget send' hs hspends := by
    obtain rfl := Option.some.inj (hsend.symm.trans hs)
    rw [hsole, hspent, hconfig]
    exact (hbudget hspends).imp_right And.right
  polls send' hs horigin := by
    obtain rfl := Option.some.inj (hsend.symm.trans hs)
    rw [hstate]
    exact hpolls horigin
  past := hconfig ▸ hpast

theorem Licensed.enter_idle (h : s.Licensed) (hsend : s.send = none) (hactive : s.active = none) :
    (s.enter .idle).Licensed := by
  unfold Station.enter
  rw [if_pos rfl]
  split_ifs
  · exact h
  · refine ⟨fun hs => absurd hs (by simp [MasterState.holds]),
      fun send hs => absurd (hsend.symm.trans hs) (by simp),
      fun tx htx => absurd (hactive.symm.trans htx) (by simp), fun hs => ?_,
      fun send hs => absurd (hsend.symm.trans hs) (by simp),
      fun send hs => absurd (hsend.symm.trans hs) (by simp), fun _ _ _ => rfl,
      h.past.cons rfl (Nat.le_refl _)⟩
    simp [spending, sendSpends, MasterState.spends, Station.record, hsend, hactive] at hs

theorem Licensed.forget (h : s.Licensed) (hactive : s.active = none) : s.forget.Licensed := by
  unfold Station.forget
  split_ifs
  · exact h.of_none rfl rfl (h.past.cons rfl (Nat.le_refl _)) rfl rfl hactive rfl rfl rfl rfl
  · exact h.of_none rfl rfl h.past rfl rfl hactive rfl rfl rfl rfl

theorem Licensed.next (h : s.Licensed) (horder : s.Ordered) (hmove : s.Enabled move) :
    (s.next move).Licensed := by
  cases move with
  | activity =>
    have hspends : (s.next .activity).sendSpends = s.sendSpends := by
      simp [sendSpends, Station.next, Option.any_map, refresh]
    refine ⟨h.state, fun send hs => ?_, h.active, fun hs => ?_, fun send hs => ?_, fun send hs => ?_,
      fun send hs => ?_, h.past⟩
    · obtain ⟨send', hs', rfl⟩ := Option.map_eq_some_iff.mp hs
      exact h.send send' hs'
    · unfold spending at hs
      rw [hspends] at hs
      unfold Within
      rw [hspends]
      exact h.spends hs
    · obtain ⟨send', hs', rfl⟩ := Option.map_eq_some_iff.mp hs
      exact h.info send' hs'
    · obtain ⟨send', hs', rfl⟩ := Option.map_eq_some_iff.mp hs
      exact h.budget send' hs'
    · obtain ⟨send', hs', rfl⟩ := Option.map_eq_some_iff.mp hs
      exact h.polls send' hs'
  | enter state =>
    obtain ⟨-, -, hidle, hholds, hspends⟩ := hmove
    by_cases hto : state = .idle
    · obtain ⟨hsend, hactive⟩ := hidle hto
      subst hto
      exact h.enter_idle hsend hactive
    show (s.enter state).Licensed
    unfold Station.enter
    rw [if_neg hto]
    split_ifs
    · exact h
    · refine ⟨hholds, h.send, h.active, fun hs => ?_, h.info, h.budget, fun send hs _ => ?_, h.past⟩
      swap
      · refine Bool.eq_false_iff.mpr fun hstate => ?_
        exact absurd ((hspends hstate).1.symm.trans hs) (by simp)
      by_cases hstate : state.spends = true
      · exact (hspends hstate).2
      · refine h.spends ?_
        replace hs : (state.spends || s.sendSpends || s.active.any (·.post.spends)) = true := hs
        unfold spending
        simp only [hstate, Bool.false_or, Bool.or_eq_true] at hs ⊢
        exact hs.imp_left Or.inr
  | rememberToken | clearToken | poll | scribble =>
    exact h.of_history rfl rfl h.past rfl rfl rfl rfl rfl rfl (Nat.le_refl _)
  | takeCounters =>
    exact h.of_history rfl rfl (h.past.cons rfl (Nat.le_refl _)) rfl rfl rfl rfl rfl rfl
      (Nat.le_refl _)
  | beginRequest request =>
    obtain ⟨hsend, hactive, -⟩ := hmove
    refine ⟨fun hs => absurd hs (by simp [Station.next, MasterState.holds]),
      fun send hs => absurd (hsend.symm.trans hs) (by simp),
      fun tx htx => absurd (hactive.symm.trans htx) (by simp), fun hs => ?_,
      fun send hs => absurd (hsend.symm.trans hs) (by simp),
      fun send hs => absurd (hsend.symm.trans hs) (by simp), fun _ _ _ => rfl,
      h.past.cons rfl (Nat.le_refl _)⟩
    simp [Station.next, spending, sendSpends, MasterState.spends, Station.record, hsend,
      hactive] at hs
  | abandon =>
    obtain ⟨-, hsend, hactive⟩ := horder.request hmove.1
    refine Licensed.enter_idle (s := { s.record .abandoned with request := none }) ?_ hsend hactive
    exact h.of_history rfl rfl (h.past.cons rfl (Nat.le_refl _)) rfl rfl rfl rfl rfl rfl
      (Nat.le_refl _)
  | expireRequest =>
    obtain ⟨-, hsend, hactive⟩ := horder.request hmove.1
    refine Licensed.enter_idle (s := { s with request := none }.expire) ?_ hsend hactive
    exact h.of_history rfl rfl (h.past.cons rfl (Nat.le_refl _)) rfl rfl rfl rfl rfl rfl
      (Nat.le_refl _)
  | oweExpired asker =>
    exact h.of_history rfl rfl ((h.past.cons rfl (Nat.le_refl _)).cons rfl (Nat.le_refl _)) rfl rfl
      rfl rfl rfl rfl (Nat.le_refl _)
  | takeToken =>
    obtain ⟨hsend, hactive⟩ := hmove
    refine ⟨fun _ => .inl rfl, fun _ _ _ => rfl, fun _ _ _ => rfl, fun _ => .inr ?_, h.info,
      fun send hs => absurd (hsend.symm.trans hs) (by simp),
      fun send hs => absurd (hsend.symm.trans hs) (by simp), h.past.cons rfl (Nat.zero_le _)⟩
    show 0 + (if s.sendSpends then 1 else 0) ≤ 0
    simp [not_spends_of_none hsend]
  | generateToken =>
    exact ⟨fun _ => .inl rfl, fun _ _ _ => rfl, fun _ _ _ => rfl, h.spends, h.info, h.budget, h.polls,
      h.past.cons rfl (Nat.le_refl _)⟩
  | countFrames frames =>
    exact ⟨h.state, h.send, h.active, hmove, h.info, h.budget, h.polls, h.past⟩
  | setSole sole =>
    rcases hmove with rfl | hquiet
    · exact ⟨h.state, h.send, h.active, fun _ => .inl rfl, h.info, fun _ _ _ => .inl rfl, h.polls,
        h.past⟩
    · refine ⟨h.state, h.send, h.active, fun hs => absurd (hquiet.symm.trans hs) (by simp), h.info,
        fun send hs hspends => ?_, h.polls, h.past⟩
      replace hs : s.send = some send := hs
      simp [spending, sendSpends, hs, hspends] at hquiet
  | make send =>
    obtain ⟨hfree, -, -, -, htoken, hinfo, hbudget, hpolls⟩ := hmove
    exact h.of_waiting rfl rfl h.past rfl rfl hfree.2.1 rfl rfl rfl rfl (fun _ => htoken) hinfo
      hbudget hpolls
  | handOver id now =>
    refine ⟨h.state, h.send, fun tx htx hpost => ?_, fun hs => h.spends ?_, h.info, h.budget, h.polls,
      h.past⟩
    · obtain ⟨send, hs, rfl⟩ := Option.map_eq_some_iff.mp htx
      refine h.send send hs (Bool.eq_false_iff.mpr fun hanswer => hpost ?_)
      exact (horder.post send hs).mpr hanswer
    · replace hs : (s.state.spends || s.sendSpends || (s.send.map fun send =>
          (⟨id, now, false, send.post⟩ : ActiveTransmit)).any (·.post.spends)) = true := hs
      rw [Option.any_map] at hs
      change (s.state.spends || s.sendSpends || s.sendSpends) = true at hs
      unfold spending
      simp only [Bool.or_self_right, Bool.or_eq_true] at hs ⊢
      exact .inl hs
  | withdraw =>
    refine ⟨h.state, h.send, fun tx htx => absurd htx (by simp [Station.next]), fun hs => h.spends ?_,
      h.info, h.budget, h.polls, h.past⟩
    replace hs : (s.state.spends || s.sendSpends || false) = true := hs
    unfold spending
    simp only [Bool.or_false, Bool.or_eq_true] at hs ⊢
    exact .inl hs
  | giveUp =>
    obtain ⟨-, hactive, -⟩ := hmove
    have hforget := h.forget hactive
    show (if s.send.any (·.origin.isAnswer) then s.forget.enter .idle else s.forget).Licensed
    split_ifs with hanswer
    · refine hforget.enter_idle ?_ ?_ <;> simp [Station.forget, hanswer, Station.expire, hactive]
    · exact hforget
  | finish =>
    obtain ⟨tx, hactive, hstarted, -⟩ := hmove
    have hsend := horder.started tx hactive hstarted
    have hended : s.ended.Licensed := h.of_none rfl rfl h.past rfl hsend
      rfl rfl rfl rfl rfl
    show (if s.active.any (·.post = .idle) then s.ended.enter .idle else s.ended).Licensed
    split_ifs
    · exact hended.enter_idle hsend rfl
    · exact hended
  | answer send =>
    obtain ⟨request, hr, -, -, horigin, hpost⟩ := hmove
    obtain ⟨-, -, hactive⟩ := horder.request (by rw [hr]; rfl)
    refine h.of_waiting rfl rfl h.past rfl rfl hactive rfl rfl rfl rfl ?_ ?_ ?_ ?_
    · rw [horigin]
      exact fun h => absurd h (by simp [Origin.isAnswer])
    · simp [isInfo, horigin, hpost, PostTransmit.spends]
    · simp [hpost, PostTransmit.spends]
    · simp [horigin]
  | oweAnswer send =>
    obtain ⟨hfree, -, hanswer, hpost⟩ := hmove
    refine h.of_waiting rfl rfl (h.past.cons rfl (Nat.le_refl _)) rfl rfl hfree.2.1 rfl rfl rfl rfl
      (fun hn => absurd (hanswer.symm.trans hn) (by simp)) ?_ ?_ ?_
    · have : send.origin ≠ .holder := by
        intro hholder
        rw [hholder] at hanswer
        exact absurd hanswer (by simp [Origin.isAnswer])
      simp [isInfo, this, hpost, PostTransmit.spends]
    · simp [hpost, PostTransmit.spends]
    · intro hpoll
      rw [hpoll] at hanswer
      exact absurd hanswer (by simp [Origin.isAnswer])

theorem Licensed.observe (h : s.Licensed) (now : Instant) : (s.observe now).Licensed :=
  h.of_history rfl rfl h.past rfl rfl rfl rfl rfl rfl (le_max_left _ _)

/-- A started information frame was licensed, and counts against the budget. -/
theorem Licensed.confirm (h : s.Licensed) (horder : s.Ordered) (hmay : s.MayConfirm tx send) :
    (s.confirm tx send).Licensed := by
  obtain ⟨send', hs', hpost⟩ := horder.unstarted tx hmay.active hmay.unstarted
  obtain rfl := Option.some.inj (hmay.waits.symm.trans hs')
  have hinfo := h.info send hmay.waits
  have hspends : s.sendSpends = send.post.spends := by
    rw [sendSpends, hmay.waits]
    rfl
  have hspent : spent (.started send.frame send.origin s.soleMaster s.lastNow :: s.history)
      = spent s.history + if send.post.spends && !s.soleMaster then 1 else 0 := by
    rw [← hinfo]
    rfl
  refine ⟨h.state, fun _ hs => absurd hs (by simp [Station.confirm]), fun tx' htx' hne => ?_,
    fun hs => ?_, fun _ hs => absurd hs (by simp [Station.confirm]),
    fun _ hs => absurd hs (by simp [Station.confirm]),
    fun _ hs => absurd hs (by simp [Station.confirm]), fun hstart => ?_, ?_, h.past⟩
  · obtain rfl := Option.some.inj htx'
    exact h.active tx hmay.active hne
  · -- What waited has been started, so the sum is the same.
    replace hs : (s.state.spends || false || tx.post.spends) = true := hs
    have hspending : s.spending = true := by
      unfold spending
      rw [hspends, hpost]
      simp only [Bool.or_false, Bool.or_eq_true] at hs ⊢
      exact .inl hs
    rcases h.spends hspending with hsole | hle
    · exact .inl hsole
    · refine .inr ?_
      show spent (.started send.frame send.origin s.soleMaster s.lastNow :: s.history) + 0 ≤
        s.frameCount
      rw [hspent, Nat.add_zero]
      rw [hspends] at hle
      cases hb : send.post.spends <;> cases hm : s.soleMaster <;> simp_all; omega
  · replace hstart : isInfo send.frame send.origin = true := hstart
    refine h.send send hmay.waits ?_
    rw [isInfo, Bool.and_eq_true, decide_eq_true_eq] at hstart
    rw [hstart.1]
    rfl
  · show spent (.started send.frame send.origin s.soleMaster s.lastNow :: s.history) ≤
      s.config.frameLimit
    have hle := h.past.spent_le
    have hbudget := h.budget send hmay.waits
    rw [hspent]
    cases hb : send.post.spends <;> cases hm : s.soleMaster <;> simp_all

/-! ## Answers -/

def asker (s : Station) : Option UInt8 :=
  match s.request with
  | some request => some request.source
  | none =>
    match s.send with
    | some send => if send.origin.isAnswer then some send.frame.header.destination else none
    | none => none

/-- What the history leaves owed is what the station is about to answer, and every answer given up
is counted. -/
structure Balanced (s : Station) : Prop where
  ledger : ∃ debt, ledger s.history = some debt ∧ debt.map (·.asker) = s.asker ∧
    (s.request.isSome = true → debt.all (·.data) = true)
  expired : s.expiredRequests = min (expiredSince s.history) u32Max

theorem increment_min (n : ℕ) : increment (min n u32Max) = min (n + 1) u32Max := by
  unfold increment
  omega

/-- Events that settle nothing keep the balance of a station that owes the same. -/
theorem Balanced.of_asker (h : s.Balanced) (hledger : Mstp.ledger t.history = Mstp.ledger s.history)
    (hasker : t.asker = s.asker) (hrequest : t.request.isSome = true → s.request.isSome = true)
    (hexpired : t.expiredRequests = min (expiredSince t.history) u32Max) : t.Balanced := by
  obtain ⟨debt, hdebt, hmap, hdata⟩ := h.ledger
  exact ⟨⟨debt, hledger.trans hdebt, hmap.trans hasker.symm, fun hr => hdata (hrequest hr)⟩,
    hexpired⟩

theorem asker_of_free (hfree : s.Free) : s.asker = none := by
  simp [asker, hfree.1, hfree.2.2]

theorem Balanced.settled (h : s.Balanced) (hasker : s.asker = none) :
    Mstp.ledger s.history = some none := by
  obtain ⟨debt, hdebt, hmap, -⟩ := h.ledger
  rw [hasker, Option.map_eq_none_iff] at hmap
  rw [hdebt, hmap]

theorem Balanced.owes (h : s.Balanced) (address : UInt8) (hasker : s.asker = some address) :
    ∃ data, Mstp.ledger s.history = some (some ⟨address, data⟩) ∧
      (s.request.isSome = true → data = true) := by
  obtain ⟨debt, hdebt, hmap, hdata⟩ := h.ledger
  rw [hasker, Option.map_eq_some_iff] at hmap
  obtain ⟨⟨a, data⟩, rfl, rfl⟩ := hmap
  exact ⟨data, hdebt, fun hr => by simpa using hdata hr⟩

theorem Balanced.ledger_cons (h : s.Balanced) (hsettle : ∀ debt, settle event debt = some debt) :
    Mstp.ledger (event :: s.history) = Mstp.ledger s.history := by
  obtain ⟨debt, hdebt, -⟩ := h.ledger
  rw [Mstp.ledger, hdebt, Option.bind_some, hsettle]

theorem Balanced.enter (h : s.Balanced) (state : MasterState) : (s.enter state).Balanced := by
  unfold Station.enter
  split_ifs
  · exact h
  · exact h.of_asker (h.ledger_cons fun _ => rfl) rfl id h.expired
  · exact h.of_asker rfl rfl id h.expired

/-- An answer owed is given up, and counted. -/
theorem Balanced.gaveUp (h : s.Balanced) {owed : UInt8} (hasker : s.asker = some owed)
    (hledger : t.history = .expired :: s.history)
    (hexpired : t.expiredRequests = increment s.expiredRequests) (hnone : t.asker = none) :
    t.Balanced := by
  obtain ⟨data, howes, -⟩ := h.owes owed hasker
  refine ⟨⟨none, ?_, hnone.symm, fun _ => rfl⟩, ?_⟩
  · rw [hledger, Mstp.ledger, howes]
    rfl
  · rw [hexpired, hledger, h.expired, increment_min]
    rfl

theorem Balanced.forget (h : s.Balanced) (hrequest : s.request = none) : s.forget.Balanced := by
  unfold Station.forget
  split_ifs with hanswer
  · obtain ⟨send, hs, hanswer⟩ := (Option.any_eq_true _ _).mp hanswer
    exact h.gaveUp (t := { s with send := none }.expire)
      (show s.asker = some send.frame.header.destination by simp [asker, hrequest, hs, hanswer])
      rfl rfl (by simp [asker, Station.expire, hrequest])
  · refine h.of_asker rfl ?_ id h.expired
    unfold asker
    rw [hrequest]
    cases hs : s.send with
    | none => rfl
    | some send =>
      rw [hs, Option.any_some] at hanswer
      simp [hanswer]

theorem Balanced.expireRequest (h : s.Balanced) (hr : s.request.isSome = true)
    (hsend : s.send = none) : { s with request := none }.expire.Balanced := by
  obtain ⟨request, hrequest⟩ := Option.isSome_iff_exists.mp hr
  exact h.gaveUp (show s.asker = some request.source by simp [asker, hrequest]) rfl rfl
    (by simp [asker, Station.expire, hsend])

theorem Balanced.abandon (h : s.Balanced) (hr : s.request.isSome = true) (hsend : s.send = none) :
    Balanced { s.record .abandoned with request := none } := by
  obtain ⟨request, hrequest⟩ := Option.isSome_iff_exists.mp hr
  obtain ⟨data, hledger, hdata⟩ := h.owes request.source (by simp [asker, hrequest])
  obtain rfl := hdata hr
  refine ⟨⟨none, ?_, ?_, fun _ => rfl⟩, h.expired⟩
  · show Mstp.ledger (.abandoned :: s.history) = some none
    rw [Mstp.ledger, hledger]
    rfl
  · simp [asker, Station.record, hsend]

theorem Balanced.next (h : s.Balanced) (horder : s.Ordered) (hmove : s.Enabled move) :
    (s.next move).Balanced := by
  cases move with
  | rememberToken | clearToken | countFrames | setSole | scribble | handOver | poll
  | withdraw =>
    exact h.of_asker rfl rfl id h.expired
  | takeToken | generateToken =>
    exact h.of_asker (h.ledger_cons fun _ => rfl) rfl id h.expired
  | finish =>
    have hended : s.ended.Balanced :=
      h.of_asker rfl rfl id h.expired
    show (if s.active.any (·.post = .idle) then s.ended.enter .idle else s.ended).Balanced
    split_ifs
    · exact hended.enter .idle
    · exact hended
  | activity =>
    refine h.of_asker rfl ?_ id h.expired
    show asker { s with send := s.send.map (s.refresh s.lastNow), .. } = s.asker
    unfold asker
    cases s.send <;> rfl
  | enter state => exact h.enter state
  | make send =>
    obtain ⟨hfree, -, hanswer, -⟩ := hmove
    refine h.of_asker rfl ?_ id h.expired
    rw [asker_of_free hfree]
    simp [asker, Station.next, Station.hold, hfree.2.2, hanswer]
  | giveUp =>
    have hforget := h.forget (horder.request_none (.inl hmove.1))
    show (if s.send.any (·.origin.isAnswer) then s.forget.enter .idle else s.forget).Balanced
    split_ifs
    · exact hforget.enter .idle
    · exact hforget
  | beginRequest request =>
    have hledger := h.settled (asker_of_free hmove)
    refine ⟨⟨some ⟨request.source, true⟩, ?_, rfl, fun _ => rfl⟩, h.expired⟩
    show Mstp.ledger (.owed request.source true :: s.history) = _
    rw [Mstp.ledger, hledger]
    rfl
  | answer send =>
    obtain ⟨request, hr, -, hdest, horigin, -⟩ := hmove
    refine h.of_asker rfl ?_ (fun hn => absurd hn (by simp [Station.next])) h.expired
    simp [asker, Station.next, Station.hold, hr, horigin, Origin.isAnswer, hdest]
  | oweAnswer send =>
    obtain ⟨hfree, -, hanswer, -⟩ := hmove
    have hledger := h.settled (asker_of_free hfree)
    refine ⟨⟨some ⟨send.frame.header.destination, false⟩, ?_, ?_, fun hr => ?_⟩, h.expired⟩
    · show Mstp.ledger (.owed send.frame.header.destination false :: s.history) = _
      rw [Mstp.ledger, hledger]
      rfl
    · simp [asker, Station.next, Station.hold, Station.record, hfree.2.2, hanswer]
    · replace hr : s.request.isSome = true := hr
      rw [hfree.2.2] at hr
      exact absurd hr (by simp)
  | oweExpired asker =>
    have hledger := h.settled (asker_of_free hmove)
    refine ⟨⟨none, ?_, ?_, fun _ => rfl⟩, ?_⟩
    · show Mstp.ledger (.expired :: .owed asker false :: s.history) = some none
      rw [Mstp.ledger, Mstp.ledger, hledger]
      rfl
    · rw [show (s.next (.oweExpired asker)).asker = s.asker from rfl, asker_of_free hmove]
      rfl
    · show increment s.expiredRequests = min (expiredSince s.history + 1) u32Max
      rw [h.expired, increment_min]
  | abandon =>
    exact (h.abandon hmove.1 (horder.request hmove.1).2.1).enter .idle
  | expireRequest =>
    exact (h.expireRequest hmove.1 (horder.request hmove.1).2.1).enter .idle
  | takeCounters => exact h.of_asker (h.ledger_cons fun _ => rfl) rfl id rfl

theorem Balanced.observe (h : s.Balanced) (now : Instant) : (s.observe now).Balanced :=
  h.of_asker rfl rfl id h.expired

theorem Balanced.confirm (h : s.Balanced) (horder : s.Ordered) (hmay : s.MayConfirm tx send) :
    (s.confirm tx send).Balanced := by
  have hrequest : s.request = none := by
    cases hr : s.request with
    | none => rfl
    | some request =>
      have := (horder.request (by rw [hr]; rfl)).2.1
      rw [hmay.waits] at this
      exact absurd this (by simp)
  have hnone : (s.confirm tx send).asker = none := by
    simp [asker, Station.confirm, Station.record, hrequest]
  refine ⟨⟨none, ?_, hnone.symm, fun _ => rfl⟩, h.expired⟩
  show Mstp.ledger (.started send.frame send.origin s.soleMaster s.lastNow :: s.history) = some none
  by_cases hanswer : send.origin.isAnswer = true
  · obtain ⟨data, hledger, -⟩ := h.owes send.frame.header.destination
      (by simp [asker, hrequest, hmay.waits, hanswer])
    rw [Mstp.ledger, hledger, Option.bind_some, settle_started hanswer, Option.bind_some]
    exact if_pos rfl
  · have hledger := h.settled (by simp [asker, hrequest, hmay.waits, hanswer])
    rw [Mstp.ledger, hledger, Option.bind_some]
    exact settle_started_of_not (Bool.eq_false_of_not_eq_true hanswer) _ _ _ _

/-! ## All of it -/

/-- Everything that holds of a station, whatever it has been through. -/
structure Sound (s : Station) : Prop where
  ordered : s.Ordered
  quiet : s.Quiet
  licensed : s.Licensed
  balanced : s.Balanced
  faultless : s.faulty = false

theorem moves_next (move : Move) (h : s.Enabled move) : s.Moves (s.next move) :=
  Relation.ReflTransGen.single ⟨move, h, rfl⟩

theorem Moves.trans {t u : Station} (h : s.Moves t) (h' : t.Moves u) : s.Moves u :=
  Relation.ReflTransGen.trans h h'

/-- No move changes the configuration, the length of the frame buffer or the time, or adds a
fault. -/
theorem next_fixed (s : Station) (move : Move) :
    (s.next move).config = s.config ∧ (s.next move).room = s.room ∧
      (s.next move).lastNow = s.lastNow ∧ (s.next move).faulty = s.faulty := by
  cases move with
  | enter => simp [Station.next]
  | giveUp =>
    rw [Station.next]
    split_ifs <;> simp
  | finish =>
    rw [Station.next]
    split_ifs <;> simp [Station.ended]
  | abandon | expireRequest => simp [Station.next, Station.expire, Station.record]
  | _ => exact ⟨rfl, rfl, rfl, rfl⟩

theorem Moves.fixed (h : s.Moves t) :
    t.config = s.config ∧ t.room = s.room ∧ t.lastNow = s.lastNow := by
  induction h with
  | refl => exact ⟨rfl, rfl, rfl⟩
  | @tail u _ _ hstep ih =>
    obtain ⟨move, -, rfl⟩ := hstep
    obtain ⟨hconfig, hroom, hnow, -⟩ := u.next_fixed move
    exact ⟨hconfig.trans ih.1, hroom.trans ih.2.1, hnow.trans ih.2.2⟩

def listening (s : Station) : Bool := s.active.all (!·.started)

theorem Moves.listening (h : s.Moves t) (hlisten : s.listening = true) : t.listening = true := by
  induction h with
  | refl => exact hlisten
  | @tail u _ _ hstep ih =>
    obtain ⟨move, -, rfl⟩ := hstep
    unfold Station.listening at ih ⊢
    cases move with
    | enter state =>
      rw [Station.next, enter_active]
      exact ih
    | giveUp =>
      rw [Station.next]
      split_ifs <;> simpa using ih
    | finish =>
      rw [Station.next]
      split_ifs <;> simp [Station.ended]
    | abandon | expireRequest =>
      simpa [Station.next, Station.expire, Station.record] using ih
    | handOver id now =>
      show (u.send.map fun send => (⟨id, now, false, send.post⟩ : ActiveTransmit)).all
        (!·.started) = true
      cases u.send <;> rfl
    | withdraw => rfl
    | _ => exact ih

theorem Sound.next (h : s.Sound) (hmove : s.Enabled move) : (s.next move).Sound where
  ordered := h.ordered.next hmove
  quiet := h.quiet.next h.ordered hmove
  licensed := h.licensed.next h.ordered hmove
  balanced := h.balanced.next h.ordered hmove
  faultless := (s.next_fixed move).2.2.2.trans h.faultless

theorem Sound.moves (h : s.Sound) (hmoves : s.Moves t) : t.Sound := by
  induction hmoves with
  | refl => exact h
  | tail _ hstep ih =>
    obtain ⟨move, henabled, rfl⟩ := hstep
    exact ih.next henabled

theorem Sound.lastActivity_le (h : s.Sound) (hmoves : s.Moves t) :
    s.lastActivity ≤ t.lastActivity := by
  induction hmoves with
  | refl => exact Nat.le_refl _
  | tail hmoves hstep ih =>
    obtain ⟨move, -, rfl⟩ := hstep
    exact ih.trans ((h.moves hmoves).quiet.lastActivity_le move)

theorem Sound.observe (h : s.Sound) (now : Instant) : (s.observe now).Sound where
  ordered := h.ordered.observe now
  quiet := h.quiet.observe now
  licensed := h.licensed.observe now
  balanced := h.balanced.observe now
  faultless := h.faultless

theorem Sound.confirm (h : s.Sound) (hmay : s.MayConfirm tx send) : (s.confirm tx send).Sound where
  ordered := h.ordered.confirm hmay
  quiet := h.quiet.confirm
  licensed := h.licensed.confirm h.ordered hmay
  balanced := h.balanced.confirm h.ordered hmay
  faultless := h.faultless

end Station

end RustyBacnet.Mstp
