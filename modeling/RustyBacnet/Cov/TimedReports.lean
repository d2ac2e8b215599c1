import RustyBacnet.Cov.TimedClaims

/-!
# Reports of timestamped changes

What the server does with `TimedHistories` and `TimedClaim`: a report drains a reference's changes
into its claim at once, with a change of the current state when no producer captured it; claims are
split, sent, committed and dropped in any order. `take_due` hands out the references whose context's
deadline has passed.

The instant of a capture belongs to its sequence: the parts of a change share both, and returned
parts rejoin under it. So the deadlines are kept apart from the histories.
-/

namespace RustyBacnet.Cov

/-! ## Deadlines -/

/-- Instants in nanoseconds. -/
structure Deadlines where
  capturedAt : ℕ → ℕ
  delay : CovSubscriptionKey → ℕ
  /-- Since when an untimestamped reference is owed. -/
  owedSince : List (CovSubscriptionKey × ℕ)
  notBefore : List (MultipleContextKey × ℕ)

def DEADLINE_FLOOR : ℕ := 1000000000

namespace TimedHistories

/-- The timestamped references with changes, and the instant of the first one. -/
def timedSince (store : TimedHistories) (deadlines : Deadlines) : List (CovSubscriptionKey × ℕ) :=
  store.histories.filterMap fun pair =>
    pair.2.entries.head?.map fun change => (pair.1, deadlines.capturedAt change.seq)

/-- One more pending reference: its context's earliest change and shortest delay. -/
def notePending (deadlines : Deadlines) (pending : List (MultipleContextKey × ℕ × ℕ))
    (found : CovSubscriptionKey × ℕ) : List (MultipleContextKey × ℕ × ℕ) :=
  match found.1.multipleContext with
  | none => pending
  | some context =>
    match Pairs.get pending context with
    | some (at_, shortest) =>
      Pairs.insert pending context
        (min at_ found.2, min shortest (deadlines.delay found.1))
    | none => Pairs.insert pending context (found.2, deadlines.delay found.1)

def deadlineOf (deadlines : Deadlines) (context : MultipleContextKey) (first delay : ℕ) : ℕ :=
  let deadline := first + max delay DEADLINE_FLOOR
  match Pairs.get deadlines.notBefore context with
  | some wait => max deadline wait
  | none => deadline

/-- The references whose context is due, timestamped ones first, and the next deadline ahead. -/
def takeDue (store : TimedHistories) (deadlines : Deadlines) (now : ℕ) :
    (List CovSubscriptionKey × List CovSubscriptionKey × Option ℕ) × Deadlines :=
  let pending := (store.timedSince deadlines ++ deadlines.owedSince).foldl
    (notePending deadlines) []
  let deadline := fun entry : MultipleContextKey × ℕ × ℕ =>
    deadlineOf deadlines entry.1 entry.2.1 entry.2.2
  let due := pending.filter fun entry => deadline entry ≤ now
  let next := (pending.filter fun entry => ¬deadline entry ≤ now).foldl
    (fun next entry => some (match next with
      | some at_ => min at_ (deadline entry)
      | none => deadline entry)) none
  let kept := deadlines.notBefore.filter fun wait => (Pairs.get pending wait.1).isSome
  let notBefore := due.foldl
    (fun notBefore entry =>
      Pairs.insert notBefore entry.1 (now + max entry.2.2 DEADLINE_FLOOR)) kept
  let isDue := fun key : CovSubscriptionKey =>
    key.multipleContext.any fun context => (Pairs.get due context).isSome
  let timed := store.histories.filter fun pair => !pair.2.entries.isEmpty && isDue pair.1
  let owed := deadlines.owedSince.filter fun pair => isDue pair.1
  ((timed.map Prod.fst, owed.map Prod.fst, next), { deadlines with notBefore := notBefore })

theorem takeDue_pending {store : TimedHistories} (hdistinct : Pairs.Distinct store.histories)
    {deadlines : Deadlines} {now : ℕ} {key : CovSubscriptionKey}
    (hdue : key ∈ (store.takeDue deadlines now).1.1) :
    ∃ history, Pairs.get store.histories key = some history ∧ history.entries ≠ [] := by
  obtain ⟨pair, hpair, rfl⟩ := List.mem_map.mp hdue
  obtain ⟨hmem, hkept⟩ := List.mem_filter.mp hpair
  refine ⟨pair.2, (Pairs.mem_iff_get hdistinct).mp hmem, ?_⟩
  intro hempty
  rw [hempty] at hkept
  exact Bool.false_ne_true hkept

end TimedHistories

/-! ## Reports -/

/-- What a producer or a report captures. -/
structure Captured where
  frame : ClockFrame
  values : List COVNotificationValue

def Captured.change (captured : Captured) : TimedChange := .new captured.frame captured.values

inductive ReportOp where
  | reset (key : CovSubscriptionKey) (generation : ℕ)
  | remove (key : CovSubscriptionKey)
  | setSizing (context : MultipleContextKey) (subscriber : Option UInt16) (timeRemaining : UInt32)
  | noteReserve (context : MultipleContextKey) (octets : ℕ)
  /-- A field of its own time takes a sequence. -/
  | fieldTime
  | push (key : CovSubscriptionKey) (generation : ℕ) (captured : Captured)
  | newClaim
  /-- Drain a reference into a claim, with a change of its current state. -/
  | take (claim : ℕ) (key : CovSubscriptionKey) (generation : ℕ) (current : Option Captured)
  | withoutEviction (claim : ℕ)
  | splitOldest (claim count : ℕ)
  | splitValues (claim : ℕ) (fit : CovSubscriptionKey → TimedChange → ValueFit)
  | goingOut (claim : ℕ)
  | commitClaim (claim : ℕ)
  | dropClaim (claim : ℕ)

/-- A reference's changes for a claim, and its incarnation. -/
def TimedHistories.takeChanges (store : TimedHistories) (key : CovSubscriptionKey)
    (generation : ℕ) (current : Option Captured) : (ℕ × List TimedChange) × TimedHistories :=
  let ((incarnation, changes), store) := store.drain key generation
  match current with
  | none => ((incarnation, changes), store)
  | some captured =>
    let (change, store) := store.adopt key generation captured.change
    ((incarnation, changes ++ [change]), store)

def TimedRun.report (run : TimedRun) : ReportOp → TimedRun
  | .reset key generation => run.perform (.reset key generation)
  | .remove key => run.perform (.remove key)
  | .setSizing context subscriber timeRemaining =>
    run.perform (.setSizing context subscriber timeRemaining)
  | .noteReserve context octets => run.perform (.noteReserve context octets)
  | .fieldTime => { run with store := { run.store with nextSeq := run.store.nextSeq + 1 } }
  | .push key generation captured => run.perform (.push key generation captured.change)
  | .newClaim => run.perform .newClaim
  | .take index key generation current =>
    run.withClaim index fun claim =>
      let ((incarnation, changes), store) := run.store.takeChanges key generation current
      ⟨store, run.claims.set index (claim.add key incarnation changes)⟩
  | .withoutEviction index => run.perform (.withoutEviction index)
  | .splitOldest index count => run.perform (.splitOldest index count)
  | .splitValues index fit => run.perform (.splitValues index fit)
  | .goingOut index => run.perform (.goingOut index)
  | .commitClaim index => run.perform (.commitClaim index)
  | .dropClaim index => run.perform (.dropClaim index)

def TimedRun.reports (run : TimedRun) (ops : List ReportOp) : TimedRun := ops.foldl report run

/-- The claimed changes, each with its reference and incarnation. -/
def TimedRun.parts (run : TimedRun) : List (CovSubscriptionKey × ℕ × List TimedChange) :=
  run.claims.flatMap TimedClaim.changes

end RustyBacnet.Cov
