import RustyBacnet.Cov.Reports

/-!
# Runs of the table

Every call a host can make of a table, as one step. A run is a list of calls made one after another
on a table that started empty.
-/

namespace RustyBacnet.Cov

open Encoding

/-- A call, with its arguments. -/
inductive Op (O V L : Type) where
  | subscribe (sub : CovSubscription O) (now : Instant)
  | subscribeMultiple (context : MultipleContextKey) (route : SubscriberEndpoint)
      (expiresAt : Instant) (maxNotificationDelay : UInt32) (subscriberMaxApdu : Option UInt16)
      (subscriptions : List (CovSubscription O)) (now : Instant)
  | unsubscribe (key : CovSubscriptionKey)
  | unsubscribeCovMultipleContext (context : MultipleContextKey)
  | removeForObject (oid : ObjectIdentifier)
  | removePeerSubscriptions (mac : List UInt8) (network : Option NpduAddress)
  | expire (now : Instant)
  | expireAll (now : Instant)
  | subscriptionsFor (oid : ObjectIdentifier) (now : Instant)
  | evaluate (subscriptions : List (CovSubscriptionSnapshot O)) (sources : Sources O V L)
      (budget : EventBudget) (now : Instant)
  | prepareCompletion (snapshot : CovSubscriptionSnapshot O)
  | beginConfirmed (completion : PreparedCovCompletion)
      (references : List (CovSubscriptionSnapshot O × O)) (now : Instant)
  | delivered (token : Token) (outcome : Delivery) (now : Instant)
  | completeObservation (snapshot : CovSubscriptionSnapshot O)
      (completion : PreparedCovCompletion) (value : O) (now : Instant)
  | takeOwedContext (context : MultipleContextKey) (now : Instant)
  | takeCounts
  | takeFenced
  | withFlightTiming (timing : FlightTiming)

variable {O V L : Type}

def Op.now? : Op O V L → Option Instant
  | .subscribe _ now => some now
  | .subscribeMultiple _ _ _ _ _ _ now => some now
  | .expire now => some now
  | .expireAll now => some now
  | .subscriptionsFor _ now => some now
  | .evaluate _ _ _ now => some now
  | .beginConfirmed _ _ now => some now
  | .delivered _ _ now => some now
  | .completeObservation _ _ _ now => some now
  | .takeOwedContext _ now => some now
  | _ => none

namespace CovTable

def perform (table : CovTable O) : Op O V L → CovTable O
  | .subscribe sub now => (table.subscribe sub now).2
  | .subscribeMultiple context route expiresAt delay maxApdu subscriptions now =>
    (table.subscribeMultiple context route expiresAt delay maxApdu subscriptions now).2
  | .unsubscribe key => (table.unsubscribe key).2
  | .unsubscribeCovMultipleContext context => table.unsubscribeCovMultipleContext context
  | .removeForObject oid => table.removeForObject oid
  | .removePeerSubscriptions mac network => (table.removePeerSubscriptions mac network).2
  | .expire now => (table.expire now).2
  | .expireAll now => table.expireAll now
  | .subscriptionsFor oid now => (table.subscriptionsFor oid now).2
  | .evaluate subscriptions sources budget now =>
    (table.evaluate subscriptions sources budget now).2.2
  | .prepareCompletion snapshot => (table.prepareCompletion snapshot).2
  | .beginConfirmed completion references now => (table.beginConfirmed completion references now).2
  | .delivered token outcome now => (table.delivered token outcome now).2
  | .completeObservation snapshot completion value now =>
    (table.completeObservation snapshot completion value now).2
  | .takeOwedContext context now => (table.takeOwedContext context now).2
  | .takeCounts => table.takeCounts
  | .takeFenced => table.takeFenced.2
  | .withFlightTiming timing => table.withFlightTiming timing

def performAll (table : CovTable O) (ops : List (Op O V L)) : CovTable O :=
  ops.foldl perform table

theorem performAll_concat (table : CovTable O) (ops : List (Op O V L)) (op : Op O V L) :
    table.performAll (ops ++ [op]) = (table.performAll ops).perform op :=
  List.foldl_concat ..

end CovTable

end RustyBacnet.Cov
