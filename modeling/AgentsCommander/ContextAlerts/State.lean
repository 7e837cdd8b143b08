import AgentsCommander.Foundation.Assoc
import Mathlib.Data.List.Sort
import Mathlib.Tactic.Common

/-! What the context-alert actor keeps: sessions, pending batches, and the one delivery. -/
namespace AgentsCommander.ContextAlerts
open Foundation

abbrev Uuid := ℕ

/-- Nanoseconds. -/
def second : ℤ := 1000000000

def firstRetryDelay : ℤ := 5 * second
def holdRecheckDelay : ℤ := 2 * second
def maxRetryDelay : ℤ := 60 * second

def retryDelay (failureCount : ℕ) : ℤ :=
  if failureCount = 0 then 0
  else min (firstRetryDelay * 2 ^ min (failureCount - 1) 4) maxRetryDelay

structure MemberIdentityFingerprint where
  sessionId : Uuid
  agentId : String
  workingDirectory : String
  projectDir : String
  acRoot : String
  workgroupDir : String
  replicaDir : String
  matrixDir : String
  project : String
  team : String
  workgroup : String
  member : String
  deriving DecidableEq, Repr

/-- The percentages of a team, which its configuration lists once each. -/
structure ResolvedPolicy where
  fingerprint : MemberIdentityFingerprint
  thresholds : List ℕ
  distinct : thresholds.Nodup
  deriving DecidableEq

inductive MemberPolicyResolution where
  | eligible (policy : ResolvedPolicy)
  | disabled (fingerprint : MemberIdentityFingerprint)
  | permanentIneligible (reason : String)
  | paused (fingerprint : MemberIdentityFingerprint) (cls message : String)
  | retryableFailure (message : String)
  deriving DecidableEq

inductive LatchState where
  | armed | latched
  deriving DecidableEq, Repr

structure ErrorMarker where
  cls : String
  message : String
  deriving DecidableEq, Repr

structure SessionAlertState where
  fingerprint : Option MemberIdentityFingerprint
  policy : List ℕ
  lastValidPercent : Option ℕ
  latches : AList fun _ : ℕ => LatchState
  outstanding : AList fun _ : ℕ => ℕ
  policyError : Option ErrorMarker
  runtimeError : Option ErrorMarker

namespace SessionAlertState
variable (session : SessionAlertState)

def empty : SessionAlertState := ⟨none, [], none, ∅, ∅, none, none⟩

/-- The thresholds no longer wait for the batch. -/
def release (thresholds : List ℕ) (generation : ℕ) : SessionAlertState :=
  { session with
    outstanding := thresholds.foldl (fun outstanding threshold =>
      if outstanding.lookup threshold = some generation then outstanding.erase threshold
      else outstanding) session.outstanding }

def hold (thresholds : List ℕ) (generation : ℕ) : SessionAlertState :=
  { session with
    outstanding := thresholds.foldl (fun outstanding threshold =>
      outstanding.insert threshold generation) session.outstanding }

def setPolicyError (cls message : String) : SessionAlertState :=
  { session with policyError := some ⟨cls, message⟩ }

def setRuntimeError (message : String) : SessionAlertState :=
  { session with runtimeError := some ⟨"runtime", message⟩ }

def clearResolutionErrors : SessionAlertState :=
  { session with policyError := none, runtimeError := none }

/-- The end of `reconcile_policy`: thresholds that are new are armed. -/
def adopt (newPolicy : List ℕ) : SessionAlertState :=
  { session with
    policy := newPolicy
    latches := newPolicy.foldl (fun latches threshold =>
        if (latches.lookup threshold).isSome then latches else latches.insert threshold .armed)
      (Assoc.keep session.latches fun threshold _ => threshold ∈ newPolicy)
    outstanding := Assoc.keep session.outstanding fun threshold _ => threshold ∈ newPolicy }

end SessionAlertState

structure AlertBatch where
  generation : ℕ
  sessionId : Uuid
  fingerprint : MemberIdentityFingerprint
  observed : ℕ
  thresholds : List ℕ
  failureCount : ℕ
  dueAt : ℤ
  inFlight : Bool
  deriving DecidableEq

/-- `cancelled`: the token of the delivery. -/
structure InFlightSlot where
  generation : ℕ
  cancelled : Bool
  deriving DecidableEq, Repr

def InFlightSlot.cancel (slot : InFlightSlot) : InFlightSlot := { slot with cancelled := true }

structure DeliveryCompletion where
  generation : ℕ
  result : Except String Unit

/-- The state of the actor, its slot, the delivery that runs and the completion on its way. -/
structure Actor where
  sessions : AList fun _ : Uuid => SessionAlertState
  batches : AList fun _ : ℕ => AlertBatch
  nextGeneration : Option ℕ
  generationExhaustionLogged : Bool
  inFlight : Option InFlightSlot
  delivering : Option ℕ
  completion : Option DeliveryCompletion
  closed : Bool

namespace Actor
variable (a : Actor)

def new : Actor := ⟨∅, ∅, some 1, false, none, none, none, false⟩

def allocateGeneration : Option ℕ × Actor :=
  match a.nextGeneration with
  | none => (none, a)
  | some generation =>
    (some generation,
      { a with
        nextGeneration := if generation + 1 < 2 ^ 64 then some (generation + 1) else none })

def removeBatch (generation : ℕ) : Actor :=
  match a.batches.lookup generation with
  | none => a
  | some batch =>
    { a with
      batches := a.batches.erase generation
      sessions := Assoc.adjust a.sessions batch.sessionId
        fun session => session.release batch.thresholds generation }

def delivers (p : AlertBatch → Bool) : Bool :=
  a.inFlight.any fun slot => (a.batches.lookup slot.generation).any p

def cancelInFlight : Actor := { a with inFlight := a.inFlight.map InFlightSlot.cancel }

def removeSession (sessionId : Uuid) : Actor :=
  let cancelled := if a.delivers fun batch => batch.sessionId = sessionId then a.cancelInFlight
    else a
  { cancelled with
    sessions := a.sessions.erase sessionId
    batches := Assoc.keep a.batches fun _ batch => batch.sessionId ≠ sessionId }

def earlier (best : Option (ℤ × ℕ)) (due : ℤ × ℕ) : Option (ℤ × ℕ) :=
  match best with
  | none => some due
  | some found =>
    if due.1 < found.1 ∨ due.1 = found.1 ∧ due.2 < found.2 then some due else some found

def earliestDue : Option (ℤ × ℕ) :=
  (((Assoc.values a.batches).filter fun batch => !batch.inFlight).map fun batch =>
    (batch.dueAt, batch.generation)).foldl earlier none

/-- `entry(..).or_insert_with(empty)`, changed. -/
def onEntry (sessionId : Uuid) (f : SessionAlertState → SessionAlertState) : Actor :=
  let session := (a.sessions.lookup sessionId).getD .empty
  { a with sessions := a.sessions.insert sessionId (f session) }

def createBatch (sessionId : Uuid) (fingerprint : MemberIdentityFingerprint) (observed : ℕ)
    (thresholds : List ℕ) (failureCount : ℕ) (dueAt : ℤ) : Actor :=
  match a.allocateGeneration with
  | (none, a) => { a with generationExhaustionLogged := true }
  | (some generation, a) =>
    { a with
      sessions := Assoc.adjust a.sessions sessionId fun session =>
        session.hold thresholds generation
      batches := a.batches.insert generation
        ⟨generation, sessionId, fingerprint, observed, thresholds, failureCount, dueAt, false⟩ }

end Actor

end AgentsCommander.ContextAlerts
