import RustyBacnet.Cov.Timed

/-!
# Claims on timestamped changes

`TimedClaim` holds changes drained for a notification: committed they are delivered, dropped they
return to their references. A run is any sequence of store operations and claim operations; the
changes put into a claim are any changes, not only those a drain just gave.
-/

namespace RustyBacnet.Cov

/-- Changes of references, each with the incarnation of its history. -/
structure TimedClaim where
  changes : List (CovSubscriptionKey × ℕ × List TimedChange)
  evict : Bool

/-- How the notification of one value would go out. -/
inductive ValueFit where
  | fits
  | tooLarge
  | empty
  deriving DecidableEq

namespace TimedClaim

def new : TimedClaim := ⟨[], true⟩

def withoutEviction (claim : TimedClaim) : TimedClaim := { claim with evict := false }

def add (claim : TimedClaim) (key : CovSubscriptionKey) (incarnation : ℕ)
    (changes : List TimedChange) : TimedClaim :=
  if changes.isEmpty then claim
  else { claim with changes := claim.changes ++ [(key, incarnation, changes)] }

def inOrder (claim : TimedClaim) : List (CovSubscriptionKey × ℕ × TimedChange) :=
  (claim.changes.flatMap fun part => part.2.2.map fun change => (part.1, part.2.1, change)).mergeSort
    fun a b => a.2.2.seq ≤ b.2.2.seq

/-- The `count` oldest changes as a claim of their own, and what is left. -/
def splitOldest (claim : TimedClaim) (count : ℕ) : TimedClaim × TimedClaim :=
  let all := claim.inOrder
  match (all.take (min count all.length)).getLast? with
  | none => (⟨[], claim.evict⟩, claim)
  | some last =>
    let cut := last.2.2.seq
    let moved := claim.changes.map fun part =>
      (part.1, part.2.1, part.2.2.takeWhile fun change => change.seq ≤ cut)
    let kept := claim.changes.map fun part =>
      (part.1, part.2.1, part.2.2.dropWhile fun change => change.seq ≤ cut)
    (⟨moved.filter fun part => !part.2.2.isEmpty, claim.evict⟩,
      { claim with changes := kept.filter fun part => !part.2.2.isEmpty })

/-- The parts of one change that go out: the last of them no longer continues. -/
def keptValues (fit : CovSubscriptionKey → TimedChange → ValueFit) (key : CovSubscriptionKey)
    (change : TimedChange) : List TimedChange :=
  let kept := change.intoValues.filter fun value => fit key value = .fits
  kept.mapIdx fun at_ value =>
    if at_ + 1 = kept.length then { value with continues := false } else value

/-- One claim for each value that fits, and the references that lose one. -/
def splitValues (claim : TimedClaim) (fit : CovSubscriptionKey → TimedChange → ValueFit) :
    List TimedClaim × List CovSubscriptionKey :=
  (claim.inOrder.flatMap fun part =>
      (keptValues fit part.1 part.2.2).map fun value =>
        ⟨[(part.1, part.2.1, [value])], claim.evict⟩,
    (claim.inOrder.filter fun part =>
      part.2.2.intoValues.any fun value => fit part.1 value = .tooLarge).map Prod.fst)

def commit (claim : TimedClaim) (store : TimedHistories) : TimedHistories :=
  claim.changes.foldl (fun store part =>
    match part.2.2.reverse.find? fun change => !change.continues with
    | some last => store.commit part.1 part.2.1 last.seq
    | none =>
      match part.2.2.getLast? with
      | some change => store.deliverByValue part.1 part.2.1 change.seq
      | none => store) store

/-- The part goes out ahead of the rest of its report. -/
def goingOut (claim : TimedClaim) (store : TimedHistories) : TimedHistories :=
  claim.changes.foldl (fun store part =>
    match part.2.2.getLast?.filter fun change => change.continues with
    | some change => store.deliverByValue part.1 part.2.1 change.seq
    | none => store) store

def drop (claim : TimedClaim) (store : TimedHistories) : TimedHistories :=
  claim.changes.foldl (fun store part =>
    store.requeue part.1 part.2.1 part.2.2 claim.evict) store

end TimedClaim

/-! ## Runs -/

/-- The store and the claims not yet committed or dropped. -/
structure TimedRun where
  store : TimedHistories
  claims : List TimedClaim

inductive TimedOp where
  | reset (key : CovSubscriptionKey) (generation : ℕ)
  | remove (key : CovSubscriptionKey)
  | setSizing (context : MultipleContextKey) (subscriber : Option UInt16) (timeRemaining : UInt32)
  | noteReserve (context : MultipleContextKey) (octets : ℕ)
  | push (key : CovSubscriptionKey) (generation : ℕ) (change : TimedChange)
  | adopt (key : CovSubscriptionKey) (generation : ℕ) (change : TimedChange)
  | drain (key : CovSubscriptionKey) (generation : ℕ)
  | commit (key : CovSubscriptionKey) (incarnation seq : ℕ)
  | newClaim
  | add (claim : ℕ) (key : CovSubscriptionKey) (incarnation : ℕ) (changes : List TimedChange)
  | withoutEviction (claim : ℕ)
  | splitOldest (claim count : ℕ)
  | splitValues (claim : ℕ) (fit : CovSubscriptionKey → TimedChange → ValueFit)
  | goingOut (claim : ℕ)
  | commitClaim (claim : ℕ)
  | dropClaim (claim : ℕ)

namespace TimedRun

def new (localApdu : ℕ) : TimedRun := ⟨.new localApdu, []⟩

/-- What a claim operation does to the run, if there is such a claim. -/
def withClaim (run : TimedRun) (index : ℕ) (f : TimedClaim → TimedRun) : TimedRun :=
  match run.claims[index]? with
  | none => run
  | some claim => f claim

def perform (run : TimedRun) : TimedOp → TimedRun
  | .reset key generation => { run with store := run.store.reset key generation }
  | .remove key => { run with store := run.store.remove key }
  | .setSizing context subscriber timeRemaining =>
    { run with store := run.store.setSizing context subscriber timeRemaining }
  | .noteReserve context octets => { run with store := run.store.noteReserve context octets }
  | .push key generation change => { run with store := (run.store.push key generation change).2 }
  | .adopt key generation change => { run with store := (run.store.adopt key generation change).2 }
  | .drain key generation => { run with store := (run.store.drain key generation).2 }
  | .commit key incarnation seq => { run with store := run.store.commit key incarnation seq }
  | .newClaim => { run with claims := run.claims ++ [.new] }
  | .add index key incarnation changes =>
    run.withClaim index fun claim =>
      { run with claims := run.claims.set index (claim.add key incarnation changes) }
  | .withoutEviction index =>
    run.withClaim index fun claim =>
      { run with claims := run.claims.set index claim.withoutEviction }
  | .splitOldest index count =>
    run.withClaim index fun claim =>
      { run with
        claims := run.claims.set index (claim.splitOldest count).2
          ++ [(claim.splitOldest count).1] }
  | .splitValues index fit =>
    run.withClaim index fun claim =>
      { store := (claim.splitValues fit).2.foldl (fun store key =>
          store.dropped key 1 .tooLarge) run.store
        claims := run.claims.eraseIdx index ++ (claim.splitValues fit).1 }
  | .goingOut index =>
    run.withClaim index fun claim => { run with store := claim.goingOut run.store }
  | .commitClaim index =>
    run.withClaim index fun claim => ⟨claim.commit run.store, run.claims.eraseIdx index⟩
  | .dropClaim index =>
    run.withClaim index fun claim => ⟨claim.drop run.store, run.claims.eraseIdx index⟩

def performAll (run : TimedRun) (ops : List TimedOp) : TimedRun := ops.foldl perform run

end TimedRun

end RustyBacnet.Cov
