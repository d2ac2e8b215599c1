import Mathlib.Tactic.IntervalCases
import RustyBacnet.Bip.Node.Registration

/-!
# The laws of a foreign device's registration

The ring of recent starts forgets a start only behind a newer one that it evicted
(`Recent.Recalls`), so the lease of a success begins no later than any request that the success can
answer (`Log.lease_conservative`).
-/

namespace RustyBacnet.Bip.Node

/-! ## The ring -/

namespace Recent

def order (recent : Recent) : List Instant :=
  if recent.len = 4 then recent.starts.drop recent.next ++ recent.starts.take recent.next
  else recent.starts.take recent.len

/-- The ring holds the newest of the starts pushed so far, which come in order. -/
structure Recalls (recent : Recent) (pushed : List Instant) : Prop where
  length : recent.starts.length = 4
  next : recent.next < 4
  filling : recent.len = 4 ∨ recent.len = recent.next ∧ recent.evicted = none
  sorted : (recent.evicted.toList ++ recent.order).Pairwise (· ≤ ·)
  past : ∀ start ∈ recent.evicted.toList ++ recent.order, start ∈ pushed
  covers : ∀ start ∈ pushed, start ∈ recent.order ∨ ∃ evicted ∈ recent.evicted, start ≤ evicted

variable {recent : Recent} {pushed : List Instant} {start : Instant}

theorem recalls_new : Recalls new [] :=
  ⟨rfl, by decide, .inr ⟨rfl, rfl⟩, .nil, nofun, nofun⟩

theorem Recalls.order_push (h : recent.Recalls pushed) (start : Instant) :
    (recent.push start).evicted.toList ++ (recent.push start).order =
      (if recent.len = 4 then recent.order else recent.evicted.toList ++ recent.order)
        ++ [start] := by
  obtain ⟨starts, len, next, evicted⟩ := recent
  have hlength := h.length
  have hnext := h.next
  match starts, hlength with
  | [a, b, c, d], _ =>
    rcases h.filling with hfull | ⟨hlen, hevicted⟩
    · obtain rfl : len = 4 := hfull
      dsimp only at hnext
      interval_cases next <;> simp [push, order]
    · obtain rfl : len = next := hlen
      obtain rfl : evicted = none := hevicted
      dsimp only at hnext
      interval_cases len <;> simp [push, order]

theorem Recalls.order_sorted (h : recent.Recalls pushed) : recent.order.Pairwise (· ≤ ·) :=
  (List.pairwise_append.mp h.sorted).2.1

theorem Recalls.evicted_le (h : recent.Recalls pushed) {evicted : Instant}
    (hevicted : evicted ∈ recent.evicted) (hstart : start ∈ recent.order) : evicted ≤ start :=
  (List.pairwise_append.mp h.sorted).2.2 evicted (Option.mem_toList.mpr hevicted) start hstart

theorem Recalls.push (h : recent.Recalls pushed) (hlast : ∀ other ∈ pushed, other ≤ start) :
    (recent.push start).Recalls (start :: pushed) := by
  have hpush := h.order_push start
  have hkept : ∀ other ∈ (if recent.len = 4 then recent.order
      else recent.evicted.toList ++ recent.order), other ∈ pushed := by
    intro other hother
    split_ifs at hother
    · exact h.past other (List.mem_append_right _ hother)
    · exact h.past other hother
  have hheld : ∀ other ∈ (recent.push start).evicted.toList ++ (recent.push start).order,
      other ∈ (recent.push start).order ∨ ∃ e ∈ (recent.push start).evicted, other ≤ e := by
    intro other hother
    rcases List.mem_append.mp hother with hevicted | horder
    · exact .inr ⟨other, Option.mem_toList.mp hevicted, le_refl other⟩
    · exact .inl horder
  refine ⟨(List.length_set ..).trans h.length, Nat.mod_lt _ (by decide), ?_, ?_, ?_, ?_⟩
  · rcases h.filling with hfull | ⟨hlen, hevicted⟩
    · exact .inl ((if_pos hfull).trans hfull)
    · have hnext := h.next
      dsimp only [Recent.push]
      rw [if_neg (by omega), if_neg (by omega), hlen]
      rcases (by omega : recent.next = 3 ∨ recent.next < 3) with hlast | hmore
      · exact .inl (by rw [hlast])
      · exact .inr ⟨by omega, hevicted⟩
  · rw [hpush]
    refine List.pairwise_append.mpr ⟨?_, List.pairwise_singleton .., ?_⟩
    · split_ifs
      · exact h.order_sorted
      · exact h.sorted
    · intro other hother last hnew
      rw [List.mem_singleton.mp hnew]
      exact hlast other (hkept other hother)
  · intro other hother
    rw [hpush] at hother
    rcases List.mem_append.mp hother with hold | hnew
    · exact List.mem_cons_of_mem _ (hkept other hold)
    · exact List.mem_singleton.mp hnew ▸ List.mem_cons_self
  · intro other hother
    rcases List.mem_cons.mp hother with rfl | hold
    · refine hheld other ?_
      rw [hpush]
      exact List.mem_append_right _ List.mem_cons_self
    rcases h.covers other hold with horder | ⟨evicted, hevicted, hle⟩
    · refine hheld other ?_
      rw [hpush]
      refine List.mem_append_left _ ?_
      split_ifs
      · exact horder
      · exact List.mem_append_right _ horder
    -- A start was evicted before, so the ring is full and the oldest one in it goes.
    rcases h.filling with hfull | ⟨-, hnone⟩
    · have hgone : (recent.push start).evicted = recent.starts[recent.next]? := if_pos hfull
      obtain ⟨oldest, holdest⟩ : ∃ oldest, oldest ∈ (recent.push start).evicted := by
        rw [hgone]
        exact ⟨_, List.getElem?_eq_getElem (by rw [h.length]; exact h.next)⟩
      refine .inr ⟨oldest, holdest, ?_⟩
      have hmem := List.mem_append_left (recent.push start).order (Option.mem_toList.mpr holdest)
      rw [hpush, if_pos hfull] at hmem
      rcases List.mem_append.mp hmem with horder | hnew
      · exact hle.trans (h.evicted_le hevicted horder)
      · exact List.mem_singleton.mp hnew ▸ hlast other hold
    · rw [hnone] at hevicted
      cases hevicted

theorem Recalls.earliestAfter (h : recent.Recalls pushed) {floor : Option Instant}
    (hstart : start ∈ pushed) (hinside : inside floor start = true) :
    ∃ earliest ∈ recent.earliestAfter floor, earliest ≤ start := by
  unfold Recent.earliestAfter
  split_ifs with hevicted
  · refine ⟨_, rfl, ?_⟩
    cases floor with
    | none => exact Nat.zero_le start
    | some floor => exact (of_decide_eq_true hinside).le
  · have hmem : start ∈ recent.starts.take recent.len := by
      rcases h.covers start hstart with horder | ⟨evicted, hin, hle⟩
      · unfold order at horder
        split_ifs at horder with hfull
        · rw [hfull, List.take_of_length_le h.length.le]
          rcases List.mem_append.mp horder with hdrop | htake
          · exact List.mem_of_mem_drop hdrop
          · exact List.mem_of_mem_take htake
        · exact horder
      · refine absurd ?_ hevicted
        rw [Option.mem_def.mp hin]
        cases floor with
        | none => rfl
        | some floor => exact decide_eq_true (lt_of_lt_of_le (of_decide_eq_true hinside) hle)
    have hfilter := List.mem_filter.mpr ⟨hmem, hinside⟩
    obtain ⟨earliest, hmin⟩ := Option.isSome_iff_exists.mp (List.isSome_min?_of_mem hfilter)
    exact ⟨earliest, hmin, (List.min?_eq_some_iff.mp hmin).2 start hfilter⟩

end Recent

/-! ## Runs -/

def BroadcastDecision.count : BroadcastDecision → ℕ
  | .hold => 1
  | .send _ | .full => 0

namespace Lifecycle

/-- A call on the lifecycle, but for its time. -/
inductive Call where
  | admitted
  | sent
  | accepted
  | refused
  | failed (outcome : Option AttemptOutcome)
  | lapse
  | dueNow
  | notBefore (at_ : Instant)
  | hint
  | admitBroadcast
  | retarget (foreign : Foreign) (sameBbmd : Bool)

/-- The lifecycle at its latest time, with the starts of the attempts sent to its BBMD, those of
them sent since the last answer, and the broadcasts held, released and discarded so far. -/
structure Log where
  lifecycle : Lifecycle
  now : Instant
  sent : List Instant
  unanswered : List Instant
  holds : ℕ
  released : ℕ
  discarded : ℕ

namespace Log

def settle (log : Log) (verdict : Option HeldVerdict) : Log :=
  match verdict with
  | some ⟨true, count⟩ => { log with released := log.released + count }
  | some ⟨false, count⟩ => { log with discarded := log.discarded + count }
  | none => log

def answered (log : Log) (verdict : Option HeldVerdict) (lifecycle : Lifecycle) : Log :=
  { log with lifecycle := lifecycle, unanswered := [] }.settle verdict

def perform (log : Log) : Call → Log
  | .admitted => { log with lifecycle := log.lifecycle.admitted log.now }
  | .sent =>
    { log with
      lifecycle := log.lifecycle.sent
      sent := log.lifecycle.attempt.toList ++ log.sent
      unanswered := log.lifecycle.attempt.toList ++ log.unanswered }
  | .accepted =>
    let (_, verdict, lifecycle) := log.lifecycle.accepted log.now
    log.answered verdict lifecycle
  | .refused =>
    let (verdict, lifecycle) := log.lifecycle.refused log.now
    log.answered verdict lifecycle
  | .failed outcome =>
    let (verdict, lifecycle) := log.lifecycle.failed log.now outcome
    { log with lifecycle := lifecycle }.settle verdict
  | .lapse => { log with lifecycle := log.lifecycle.lapse }
  | .dueNow => { log with lifecycle := log.lifecycle.dueNow log.now }
  | .notBefore at_ => { log with lifecycle := log.lifecycle.notBefore at_ }
  | .hint => { log with lifecycle := log.lifecycle.hint log.now }
  | .admitBroadcast =>
    let (decision, lifecycle) := log.lifecycle.admitBroadcast log.now
    { log with
      lifecycle := lifecycle
      holds := log.holds + decision.count }
  | .retarget foreign sameBbmd =>
    { log with
      lifecycle := log.lifecycle.retarget foreign log.now sameBbmd
      sent := if sameBbmd then log.sent else []
      unanswered := if sameBbmd then log.unanswered else [] }

/-- A call at a time, or at the latest one if the caller's clock is behind it. -/
def step (log : Log) (call : Instant × Call) : Log :=
  { log with now := max call.1 log.now }.perform call.2

def run (foreign : Foreign) (start : Instant) (calls : List (Instant × Call)) : Log :=
  calls.foldl step ⟨Lifecycle.new foreign start, start, [], [], 0, 0, 0⟩

/-- What every run keeps. -/
structure Sound (log : Log) : Prop where
  recalls : log.lifecycle.recent.Recalls log.sent
  past : ∀ start ∈ log.sent, start ≤ log.now
  attempt : ∀ start ∈ log.lifecycle.attempt, start ≤ log.now ∧ ∀ other ∈ log.sent, other ≤ start
  since : ∀ start ∈ log.lifecycle.unansweredSince, start ∈ log.sent
  first : ∀ start ∈ log.unanswered, ∃ since ∈ log.lifecycle.unansweredSince, since ≤ start
  resolved : log.lifecycle.firstResolved = true → log.lifecycle.held = 0
  account : log.holds = log.released + log.discarded + log.lifecycle.held

variable {log : Log}

/-- The parts of the lifecycle that `Sound` is about. -/
structure SameBooks (a b : Lifecycle) : Prop where
  recent : a.recent = b.recent
  attempt : a.attempt = b.attempt
  since : a.unansweredSince = b.unansweredSince
  resolved : a.firstResolved = b.firstResolved
  held : a.held = b.held

/-- Nor are its time-to-live and lease touched. -/
structure Unmoved (a b : Lifecycle) : Prop extends SameBooks a b where
  ttl : a.ttl = b.ttl
  lease : a.lease = b.lease

theorem Sound.congr (h : Sound log) {lifecycle : Lifecycle}
    (hsame : SameBooks lifecycle log.lifecycle) : Sound { log with lifecycle := lifecycle } := by
  obtain ⟨hrecent, hattempt, hsince, hresolved, hheld⟩ := hsame
  refine ⟨?_, h.past, ?_, ?_, ?_, ?_, ?_⟩
  · rw [hrecent]
    exact h.recalls
  · rw [hattempt]
    exact h.attempt
  · rw [hsince]
    exact h.since
  · rw [hsince]
    exact h.first
  · rw [hresolved, hheld]
    exact h.resolved
  · rw [hheld]
    exact h.account

theorem Sound.later (h : Sound log) (at_ : Instant) : Sound { log with now := max at_ log.now } :=
  { h with
    past := fun start hstart => (h.past start hstart).trans (le_max_right _ _)
    attempt := fun start hstart =>
      ⟨(h.attempt start hstart).1.trans (le_max_right _ _), (h.attempt start hstart).2⟩ }

theorem Sound.resolve (h : Sound log) (release : Bool) :
    Sound ({ log with lifecycle := (log.lifecycle.resolveFirst release).2 }.settle
      (log.lifecycle.resolveFirst release).1) := by
  unfold resolveFirst
  by_cases hresolved : log.lifecycle.firstResolved = true
  · rw [if_pos hresolved]
    exact h
  rw [if_neg hresolved]
  have haccount := h.account
  by_cases hheld : 0 < log.lifecycle.held
  · rw [if_pos hheld]
    cases release with
    | true =>
      exact { h with resolved := fun _ => rfl, account := by dsimp only [settle]; omega }
    | false =>
      exact { h with resolved := fun _ => rfl, account := by dsimp only [settle]; omega }
  · rw [if_neg hheld]
    exact { h with resolved := fun _ => rfl, account := by dsimp only [settle]; omega }

theorem Sound.answer (h : Sound log) {lifecycle : Lifecycle}
    (hsame : SameBooks lifecycle { log.lifecycle with attempt := none, unansweredSince := none }) :
    Sound { log with lifecycle := lifecycle, unanswered := [] } := by
  have hnone : Sound { log with
      lifecycle := { log.lifecycle with attempt := none, unansweredSince := none }
      unanswered := [] } :=
    { h with attempt := nofun, since := nofun, first := nofun }
  exact hnone.congr hsame

theorem Sound.sent (h : Sound log) : Sound (log.perform .sent) := by
  dsimp only [perform, Lifecycle.sent]
  cases hattempt : log.lifecycle.attempt with
  | none => exact h
  | some start =>
    obtain ⟨hnow, hlast⟩ := h.attempt start hattempt
    refine ⟨h.recalls.push hlast, ?_, ?_, ?_, ?_, h.resolved, h.account⟩
    · exact List.forall_mem_cons.mpr ⟨hnow, h.past⟩
    · rintro other hother
      obtain rfl := Option.some.inj hother
      exact ⟨hnow, List.forall_mem_cons.mpr ⟨le_refl _, hlast⟩⟩
    · rintro since hsince
      cases hopen : log.lifecycle.unansweredSince with
      | none =>
        rw [hopen] at hsince
        exact Option.some.inj hsince ▸ List.mem_cons_self
      | some first =>
        rw [hopen] at hsince
        exact Option.some.inj hsince ▸ List.mem_cons_of_mem _ (h.since first hopen)
    · refine fun other hother => ⟨_, rfl, ?_⟩
      cases hopen : log.lifecycle.unansweredSince with
      | none =>
        rcases List.mem_cons.mp hother with rfl | hold
        · exact le_refl _
        · obtain ⟨since, hsince, -⟩ := h.first other hold
          rw [hopen] at hsince
          cases hsince
      | some first =>
        rcases List.mem_cons.mp hother with rfl | hold
        · exact hlast first (h.since first hopen)
        · obtain ⟨since, hsince, hle⟩ := h.first other hold
          rw [hopen] at hsince
          exact Option.some.inj hsince ▸ hle

theorem unmoved_dueNow (lifecycle : Lifecycle) (now : Instant) :
    Unmoved (lifecycle.dueNow now) lifecycle := by
  unfold dueNow
  split_ifs <;> exact ⟨⟨rfl, rfl, rfl, rfl, rfl⟩, rfl, rfl⟩

theorem unmoved_notBefore (lifecycle : Lifecycle) (at_ : Instant) :
    Unmoved (lifecycle.notBefore at_) lifecycle := by
  unfold notBefore
  split_ifs <;> exact ⟨⟨rfl, rfl, rfl, rfl, rfl⟩, rfl, rfl⟩

theorem unmoved_hint (lifecycle : Lifecycle) (now : Instant) :
    Unmoved (lifecycle.hint now) lifecycle := by
  unfold hint
  split_ifs
  · exact ⟨⟨rfl, rfl, rfl, rfl, rfl⟩, rfl, rfl⟩
  · dsimp only
    split_ifs <;> exact ⟨⟨rfl, rfl, rfl, rfl, rfl⟩, rfl, rfl⟩

theorem Sound.admitBroadcast (h : Sound log) : Sound (log.perform .admitBroadcast) := by
  dsimp only [perform, Lifecycle.admitBroadcast]
  by_cases hholding : (!log.lifecycle.firstResolved &&
      (0 < log.lifecycle.holdLimit || log.lifecycle.waiting)) = true
  · rw [if_pos hholding]
    by_cases hfull : log.lifecycle.holdLimit ≤ log.lifecycle.held
    · rw [if_pos hfull]
      exact h
    · rw [if_neg hfull]
      have haccount := h.account
      refine { h with resolved := fun hresolved => ?_, account := ?_ }
      · rw [Bool.and_eq_true, Bool.not_eq_true'] at hholding
        exact absurd (hresolved.symm.trans hholding.1) (by decide)
      · dsimp only [BroadcastDecision.count]
        omega
  · rw [if_neg hholding]
    exact h

theorem Sound.perform (h : Sound log) (call : Call) : Sound (log.perform call) := by
  cases call with
  | admitted =>
    exact { h with
      attempt := fun start hstart => Option.some.inj hstart ▸ ⟨le_refl _, h.past⟩ }
  | sent => exact h.sent
  | accepted =>
    have hsame : SameBooks (log.lifecycle.accept log.now)
        { log.lifecycle with attempt := none, unansweredSince := none } := ⟨rfl, rfl, rfl, rfl, rfl⟩
    exact (h.answer hsame).resolve true
  | refused =>
    have hsame : SameBooks (log.lifecycle.refuse log.now)
        { log.lifecycle with attempt := none, unansweredSince := none } := ⟨rfl, rfl, rfl, rfl, rfl⟩
    exact (h.answer hsame).resolve false
  | failed outcome =>
    have hended : Sound { log with lifecycle := { log.lifecycle with attempt := none } } :=
      { h with attempt := nofun }
    have hsame : SameBooks (log.lifecycle.fail log.now outcome)
        { log.lifecycle with attempt := none } := ⟨rfl, rfl, rfl, rfl, rfl⟩
    exact (hended.congr hsame).resolve true
  | lapse => exact h.congr ⟨rfl, rfl, rfl, rfl, rfl⟩
  | dueNow => exact h.congr (unmoved_dueNow log.lifecycle log.now).toSameBooks
  | notBefore at_ => exact h.congr (unmoved_notBefore log.lifecycle at_).toSameBooks
  | hint => exact h.congr (unmoved_hint log.lifecycle log.now).toSameBooks
  | admitBroadcast => exact h.admitBroadcast
  | retarget foreign sameBbmd =>
    cases sameBbmd with
    | true => exact { h with attempt := nofun }
    | false =>
      exact ⟨Recent.recalls_new, nofun, nofun, nofun, nofun, nofun, h.account⟩

theorem Sound.run (foreign : Foreign) (start : Instant) (calls : List (Instant × Call)) :
    Sound (run foreign start calls) := by
  refine List.foldlRecOn calls step ?_ fun log h call _ => (Sound.later h call.1).perform call.2
  exact ⟨Recent.recalls_new, nofun, nofun, nofun, nofun, nofun, rfl⟩

theorem foldl_min_le (list : List Instant) (first : Instant) :
    ∀ time ∈ first :: list, list.foldl min first ≤ time := by
  induction list generalizing first with
  | nil => exact fun time htime => (List.mem_singleton.mp htime).ge
  | cons next list ih =>
    intro time htime
    have hfirst := ih (min first next) _ List.mem_cons_self
    rcases List.mem_cons.mp htime with rfl | htime
    · exact hfirst.trans (min_le_left _ _)
    rcases List.mem_cons.mp htime with rfl | htime
    · exact hfirst.trans (min_le_right _ _)
    · exact ih (min first next) time (List.mem_cons_of_mem _ htime)

theorem Sound.proven (h : Sound log) :
    (log.lifecycle.proven log.now).since ≤ log.now ∧
      (∀ start ∈ log.unanswered, (log.lifecycle.proven log.now).since ≤ start) ∧
      ∀ start ∈ log.sent, log.now < start + log.lifecycle.answerWindow →
        (log.lifecycle.proven log.now).since ≤ start := by
  refine ⟨?_, fun start hstart => ?_, fun start hstart hwindow => ?_⟩
  · refine (foldl_min_le _ _ _ List.mem_cons_self).trans ?_
    cases hattempt : log.lifecycle.attempt with
    | none => exact le_refl _
    | some start => exact (h.attempt start hattempt).1
  · obtain ⟨since, hsince, hle⟩ := h.first start hstart
    refine (foldl_min_le _ _ since (List.mem_cons_of_mem _ ?_)).trans hle
    exact List.reduceOption_mem_iff.mpr (Option.mem_def.mp hsince ▸ List.mem_cons_self)
  · have hinside : Recent.inside (if log.lifecycle.answerWindow ≤ log.now then
        some (log.now - log.lifecycle.answerWindow) else none) start = true := by
      split_ifs with hreach
      · exact decide_eq_true (Nat.sub_lt_right_of_lt_add hreach hwindow)
      · rfl
    obtain ⟨earliest, hearliest, hle⟩ := h.recalls.earliestAfter hstart hinside
    refine (foldl_min_le _ _ earliest (List.mem_cons_of_mem _ ?_)).trans hle
    exact List.reduceOption_mem_iff.mpr
      (List.mem_cons_of_mem _ (Option.mem_def.mp hearliest ▸ List.mem_cons_self))

/-- In every run a success starts the lease no later than any attempt to the BBMD that is not
answered yet, or was sent less than the answer window ago, and ends it one time-to-live later. -/
theorem lease_conservative (foreign : Foreign) (start : Instant) (calls : List (Instant × Call))
    (at_ : Instant) :
    let log := run foreign start calls
    let now := max at_ log.now
    let lease := log.lifecycle.proven now
    (log.lifecycle.accepted now).2.2.lease = some lease ∧
      lease.until_ = satAdd lease.since log.lifecycle.ttl ∧ lease.since ≤ now ∧
      (∀ sent ∈ log.unanswered, lease.since ≤ sent) ∧
      ∀ sent ∈ log.sent, now < sent + log.lifecycle.answerWindow → lease.since ≤ sent := by
  refine ⟨?_, rfl, ((Sound.run foreign start calls).later at_).proven⟩
  dsimp only [accepted, resolveFirst]
  split_ifs <;> rfl

/-- In every run each broadcast held is released or discarded once, or still held; and none is held
once the first attempt ended. -/
theorem held_broadcasts_settled (foreign : Foreign) (start : Instant)
    (calls : List (Instant × Call)) :
    (run foreign start calls).holds = (run foreign start calls).released
        + (run foreign start calls).discarded + (run foreign start calls).lifecycle.held ∧
      ((run foreign start calls).lifecycle.firstResolved = true →
        (run foreign start calls).lifecycle.held = 0) :=
  ⟨(Sound.run foreign start calls).account, (Sound.run foreign start calls).resolved⟩

end Log

end Lifecycle

end RustyBacnet.Bip.Node
