import RustyBacnet.Router.Table.Entries

/-!
# Runs of table operations

Every public operation of the table as a value, so that a run is a list of them.
-/

namespace RustyBacnet.Router

/-- A call of one of the table's operations. -/
inductive TableOp where
  | setConvergence (convergence : Convergence)
  | remove (network : UInt16)
  | addDirect (network : UInt16) (port : PortId)
  | addLearned (network : UInt16) (port : PortId) (nextHop : Mac) (now : Instant)
  | markBusy (network : UInt16) (deadline : Instant)
  | markAvailable (network : UInt16)
  | markBusyViaPeer (port : PortId) (peer : List UInt8) (deadline : Instant)
  | markAvailableViaPeer (port : PortId) (peer : List UInt8)
  | markUnreachable (network : UInt16)
  | clearExpiredBusy (now : Instant)
  | touch (network : UInt16) (now : Instant)
  | purgeStale (now : Instant) (maxAge : Duration)
  | applyClaim (network : UInt16) (port : PortId) (nextHop : Mac) (now : Instant)
      (timing : Timing)
  | learn (network : UInt16) (port : PortId) (nextHop : Mac) (now : Instant)
  | expirePending (now : Instant) (timing : Timing)
  | applyManagementUpdate (network : UInt16) (port : PortId) (nextHop : Mac) (now : Instant)
  | applyManagementRemoval (network : UInt16)
  | applyReject (network : UInt16) (port : PortId) (reason : RejectMessageReason)
      (now : Instant) (timing : Timing)
  deriving DecidableEq

/-- What a call returns. -/
inductive TableOutcome where
  | done
  | flag (value : Bool)
  | removed (route : Option Route)
  | marked (routes : ℕ)
  | networks (networks : List UInt16)
  | learned (result : Learned)
  | reject (effect : RejectEffect)
  deriving DecidableEq

/-- A call that returned `false`, found nothing to remove or was refused. -/
def TableOutcome.refused : TableOutcome → Bool
  | flag value => !value
  | removed route => route.isNone
  | learned (.refused _) => true
  | _ => false

namespace Table

variable {R H : ℕ}

def apply (table : Table R H) : TableOp → Table R H × TableOutcome
  | .setConvergence convergence => (table.setConvergence convergence, .done)
  | .remove network => ((table.remove network).1, .removed (table.remove network).2)
  | .addDirect network port =>
    ((table.addDirect network port).1, .flag (table.addDirect network port).2)
  | .addLearned network port nextHop now =>
    ((table.addLearned network port nextHop now).1,
      .flag (table.addLearned network port nextHop now).2)
  | .markBusy network deadline => (table.markBusy network deadline, .done)
  | .markAvailable network => (table.markAvailable network, .done)
  | .markBusyViaPeer port peer deadline =>
    ((table.markBusyViaPeer port peer deadline).1,
      .marked (table.markBusyViaPeer port peer deadline).2)
  | .markAvailableViaPeer port peer =>
    ((table.markAvailableViaPeer port peer).1, .marked (table.markAvailableViaPeer port peer).2)
  | .markUnreachable network => (table.markUnreachable network, .done)
  | .clearExpiredBusy now =>
    ((table.clearExpiredBusy now).1, .marked (table.clearExpiredBusy now).2)
  | .touch network now => (table.touch network now, .done)
  | .purgeStale now maxAge =>
    ((table.purgeStale now maxAge).1, .networks (table.purgeStale now maxAge).2)
  | .applyClaim network port nextHop now timing =>
    ((table.applyClaim network port nextHop now timing).1,
      .learned (table.applyClaim network port nextHop now timing).2)
  | .learn network port nextHop now =>
    ((table.learn network port nextHop now).1,
      .learned (table.learn network port nextHop now).2)
  | .expirePending now timing =>
    ((table.expirePending now timing).1, .networks (table.expirePending now timing).2)
  | .applyManagementUpdate network port nextHop now =>
    ((table.applyManagementUpdate network port nextHop now).1,
      .flag (table.applyManagementUpdate network port nextHop now).2)
  | .applyManagementRemoval network =>
    ((table.applyManagementRemoval network).1, .flag (table.applyManagementRemoval network).2)
  | .applyReject network port reason now timing =>
    ((table.applyReject network port reason now timing).1,
      .reject (table.applyReject network port reason now timing).2)

def run (table : Table R H) (ops : List TableOp) : Table R H :=
  ops.foldl (fun table op => (table.apply op).1) table

/-- Whether an operation stores a network's route anew, or removes it. -/
def renews (table : Table R H) (op : TableOp) (network : UInt16) : Bool :=
  match op with
  | .addDirect n port => n == network && (table.addDirect n port).2
  | .addLearned n port nextHop now => n == network && (table.addLearned n port nextHop now).2
  | .applyManagementUpdate n port nextHop now =>
    n == network && (table.applyManagementUpdate n port nextHop now).2
  | .learn n port nextHop now => n == network && (table.learn n port nextHop now).2.isApplied
  | .applyClaim n port nextHop now timing =>
    n == network && (table.applyClaim n port nextHop now timing).2.isApplied
  | .remove n => n == network && (table.remove n).2.isSome
  | .applyManagementRemoval n => n == network && (table.applyManagementRemoval n).2
  | .purgeStale now maxAge => (table.purgeStale now maxAge).2.contains network
  | _ => false

end Table

end RustyBacnet.Router
