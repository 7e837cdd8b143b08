import AgentsCommander.Foundation.Machine
import Mathlib.Data.List.Nodup

/-! The worker of a purge batch and its observer, each split at its sections and waits. -/
namespace AgentsCommander.Purge
open Foundation

/-- 128 bits that are only compared. -/
abbrev Uuid := ℕ
abbrev Instant := ℕ
abbrev Duration := ℕ

inductive TeardownOutcome where
  | closed
  | alreadyGone
  | failed (reason : String)
  | uncertain (reason : String) (mayCompleteLater : Bool)
  deriving DecidableEq, Repr

def TeardownOutcome.isUncertain : TeardownOutcome → Bool
  | .uncertain _ _ => true
  | _ => false

/-- The caller leaves out what it has seen. -/
structure PurgeTargets where
  ids : List Uuid
  sessionIds : List Uuid
  fqns : List String
  nodup : ids.Nodup

inductive PurgePhase where
  | acquiring
  | acquiredAwaitGrant
  | started (sid : Uuid)
  | settling
  | stopped
  deriving DecidableEq, Repr

structure PurgeSnapshot where
  phase : PurgePhase
  results : List (Uuid × TeardownOutcome)
  ids : List Uuid
  stop : Bool
  granted : Bool
  started : Bool
  deadline : Instant
  reason : Option String
  deriving DecidableEq, Repr

inductive LeaseOwner where
  | batch
  | other (n : ℕ)
  deriving DecidableEq, Repr

structure PurgeGuard where
  active : Bool
  targetSids : List Uuid
  targetFqns : List String
  lock : Option LeaseOwner
  deriving DecidableEq, Repr

namespace PurgeGuard

def blocksSession (guard : PurgeGuard) (sid : Uuid) : Bool := guard.active && sid ∈ guard.targetSids

def blocksAgent (guard : PurgeGuard) (fqn : String) : Bool := guard.active && fqn ∈ guard.targetFqns

/-- `acquire` once the lock is free. -/
def acquire (owner : LeaseOwner) (sids : List Uuid) (fqns : List String) : PurgeGuard :=
  ⟨true, sids, fqns, some owner⟩

/-- The drop of a lease. -/
def release : PurgeGuard := ⟨false, [], [], none⟩

end PurgeGuard

/-- Where `run_purge_batch` stands. -/
inductive WorkerStage where
  | acquiring
  | acquired
  | notifyAcquired
  | checkGrant
  | awaitGrant
  | starting (rest : List Uuid)
  | notifyStarted (sid : Uuid) (rest : List Uuid)
  | attempting (sid : Uuid) (rest : List Uuid)
  | recording (sid : Uuid) (outcome : TeardownOutcome) (rest : List Uuid)
  | notifyRecorded (rest : List Uuid)
  | settling
  | releasing
  | stopping
  | notifyStopped
  /-- Returning, or unwinding, with the lease. -/
  | leaving (ok : Bool)
  | gone (ok : Bool)
  deriving DecidableEq, Repr

/-- Where `observe_purge` stands; a result of `none` is that of a dropped observer. -/
inductive ObserverStage where
  | unpolled
  | looking
  | cancelling (snapshot : PurgeSnapshot)
  | joining (snapshot : PurgeSnapshot)
  | waiting (deadline : Instant)
  | losing (ok : Bool)
  | freezing
  | frozen (snapshot : PurgeSnapshot)
  /-- `StopOnDrop`. -/
  | guarding (result : Option PurgeSnapshot)
  | parentLost (result : Option PurgeSnapshot)
  | parentCancel (result : Option PurgeSnapshot)
  | ended (result : Option PurgeSnapshot)
  deriving DecidableEq, Repr

/-- `changed` and `grant`: a notification that no one has taken. `attempts`: the attempts in the
order in which they were announced under the state lock. `outcomes`: what they returned. -/
structure Batch where
  guard : PurgeGuard
  progress : PurgeSnapshot
  changed : Bool
  grant : Bool
  cancelled : Bool
  worker : WorkerStage
  observer : ObserverStage
  attempts : List Uuid
  outcomes : List (Uuid × TeardownOutcome)
  deriving DecidableEq, Repr

/-- The branch that wakes the observer. -/
inductive Wake where
  | changed
  | deadline
  | worker
  deriving DecidableEq, Repr

inductive PurgeEvent where
  | worker (now : Instant)
  | outcome (outcome : TeardownOutcome)
  | unwind
  | observer (now : Instant) (wake : Wake)
  | dropObserver
  | otherAcquire (n : ℕ) (sids : List Uuid) (fqns : List String)
  | otherRelease (n : ℕ)

def observerTimeout : String := "observer_timeout: settlement_unconfirmed"

namespace Batch
variable (targets : PurgeTargets) (attemptBudget : Duration) (s : Batch)

/-- Before the worker and the observer have done anything. -/
def spawned (deadline : Instant) : Batch where
  guard := .release
  progress := ⟨.acquiring, [], targets.ids, false, false, false, deadline, none⟩
  changed := false
  grant := false
  cancelled := false
  worker := .acquiring
  observer := .unpolled
  attempts := []
  outcomes := []

def acquire : Batch :=
  if s.cancelled then { s with worker := .gone true }
  else if s.guard.lock = none then
    { s with
      guard := .acquire .batch targets.sessionIds targets.fqns
      worker := .acquired }
  else s

def awaitsGrant : Batch :=
  if s.progress.stop then { s with worker := .leaving true }
  else { s with
    progress := { s.progress with phase := .acquiredAwaitGrant }
    worker := .notifyAcquired }

def checkGrant : Batch :=
  { s with worker := if s.progress.stop then .leaving true
    else if s.progress.granted then .starting targets.ids else .awaitGrant }

def awaitGrant : Batch :=
  if s.cancelled then { s with worker := .leaving true }
  else if s.grant then { s with grant := false, worker := .checkGrant }
  else s

/-- An attempt starts where it is announced: Stop and Started share this section's lock. -/
def start (now : Instant) (sid : Uuid) (rest : List Uuid) : Batch :=
  if s.progress.stop then { s with worker := .settling }
  else { s with
    progress := { s.progress with
      phase := .started sid
      started := true
      deadline := now + attemptBudget }
    worker := .notifyStarted sid rest
    attempts := s.attempts ++ [sid] }

def record (now : Instant) (sid : Uuid) (outcome : TeardownOutcome) (rest : List Uuid) : Batch :=
  let late := s.progress.deadline ≤ now
  { s with
    progress := { s.progress with
      results := s.progress.results ++ [(sid, outcome)]
      reason := if late then some observerTimeout else s.progress.reason
      stop := s.progress.stop || late || outcome.isUncertain }
    worker := .notifyRecorded rest }

def workerStep (now : Instant) : Batch :=
  match s.worker with
  | .acquiring => s.acquire targets
  | .acquired => s.awaitsGrant
  | .notifyAcquired => { s with changed := true, worker := .checkGrant }
  | .checkGrant => s.checkGrant targets
  | .awaitGrant => s.awaitGrant
  | .starting [] => { s with worker := .settling }
  | .starting (sid :: rest) => s.start attemptBudget now sid rest
  | .notifyStarted sid rest => { s with changed := true, worker := .attempting sid rest }
  | .attempting _ _ => s
  | .recording sid outcome rest => s.record now sid outcome rest
  | .notifyRecorded rest => { s with changed := true, worker := .starting rest }
  | .settling => { s with progress := { s.progress with phase := .settling }, worker := .releasing }
  | .releasing => { s with guard := .release, worker := .stopping }
  | .stopping =>
    { s with progress := { s.progress with phase := .stopped }, worker := .notifyStopped }
  | .notifyStopped => { s with changed := true, worker := .gone true }
  | .leaving ok => { s with guard := .release, worker := .gone ok }
  | .gone _ => s

def outcome (outcome : TeardownOutcome) : Batch :=
  match s.worker with
  | .attempting sid rest => { s with
      worker := .recording sid outcome rest
      outcomes := s.outcomes ++ [(sid, outcome)] }
  | _ => s

def unwind : Batch :=
  match s.worker with
  | .attempting _ _ => { s with worker := .leaving false }
  | _ => s

def freeze (reason : String) : PurgeSnapshot :=
  { s.progress with stop := true, reason := some reason }

/-- What the observer does with the snapshot that it took. -/
def conclude (snapshot : PurgeSnapshot) : ObserverStage :=
  if snapshot.stop then .cancelling snapshot else .waiting snapshot.deadline

def look (now : Instant) : Batch :=
  if s.progress.phase = .stopped then { s with observer := .guarding (some s.progress) }
  else if s.progress.deadline ≤ now then
    { s with
      progress := s.freeze observerTimeout
      observer := conclude (s.freeze observerTimeout) }
  else if s.progress.phase = .acquiredAwaitGrant ∧ ¬ s.progress.granted then
    let granted := { s.progress with granted := true }
    { s with progress := granted, grant := true, observer := conclude granted }
  else { s with observer := conclude s.progress }

def wakeUp (now deadline : Instant) : Wake → Batch
  | .changed => if s.changed then { s with changed := false, observer := .looking } else s
  | .deadline => if deadline ≤ now then { s with observer := .looking } else s
  | .worker => match s.worker with
    | .gone ok => { s with observer := .losing ok }
    | _ => s

def observerStep (now : Instant) (wake : Wake) : Batch :=
  match s.observer with
  | .unpolled => { s with observer := .looking }
  | .looking => s.look now
  | .cancelling snapshot => { s with
      cancelled := true
      observer := if snapshot.started then .guarding (some snapshot) else .joining snapshot }
  | .joining snapshot => match s.worker with
    | .gone _ => { s with observer := .guarding (some snapshot) }
    | _ => s
  | .waiting deadline => s.wakeUp now deadline wake
  | .losing ok =>
    if ok ∧ s.progress.phase = .stopped then { s with observer := .guarding (some s.progress) }
    else { s with observer := .freezing }
  | .freezing => { s with
      progress := s.freeze "worker_lost: outcome_unknown"
      observer := .frozen (s.freeze "worker_lost: outcome_unknown") }
  | .frozen snapshot => { s with cancelled := true, observer := .guarding (some snapshot) }
  | .guarding result =>
    if s.progress.phase = .stopped then { s with observer := .ended result }
    else { s with observer := .parentLost result }
  | .parentLost result => { s with
      progress := s.freeze "parent_lost"
      observer := .parentCancel result }
  | .parentCancel result => { s with cancelled := true, observer := .ended result }
  | .ended _ => s

/-- The observer may be dropped before its first poll and at each wait. -/
def dropObserver : Batch :=
  match s.observer with
  | .unpolled | .joining _ | .waiting _ => { s with observer := .guarding none }
  | _ => s

def step : PurgeEvent → Batch × Unit
  | .worker now => (s.workerStep targets attemptBudget now, ())
  | .outcome outcome => (s.outcome outcome, ())
  | .unwind => (s.unwind, ())
  | .observer now wake => (s.observerStep now wake, ())
  | .dropObserver => (s.dropObserver, ())
  | .otherAcquire n sids fqns =>
    (if s.guard.lock = none then { s with guard := .acquire (.other n) sids fqns } else s, ())
  | .otherRelease n =>
    (if s.guard.lock = some (.other n) then { s with guard := .release } else s, ())

end Batch

def purgeBatch (targets : PurgeTargets) (attemptBudget : Duration) :
    Machine Batch PurgeEvent Unit := ⟨Batch.step targets attemptBudget⟩

end AgentsCommander.Purge
