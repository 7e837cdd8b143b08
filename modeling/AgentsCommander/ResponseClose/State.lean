import AgentsCommander.Foundation.Assoc
import AgentsCommander.Sessions.Session

/-! The tracker that decides when an agent that answered its coordinator may be closed: its
records, its lock, and the two ways a route notes that something happened to it. -/
namespace AgentsCommander.ResponseClose
open Foundation Sessions

/-- Nanoseconds of the monotonic clock. -/
abbrev Instant := ℕ

abbrev Duration := ℕ

def Duration.fromSecs (seconds : ℕ) : Duration := seconds * 10 ^ 9

/-- The counters are 64 bits wide. -/
def checkedSucc (n : ℕ) : Option ℕ := if n + 1 < 2 ^ 64 then some (n + 1) else none

structure ResponseRouteIdentity where
  target : String
  sessionId : Uuid
  token : Uuid
  generation : ℕ
  carrierVersion : ℕ
  backend : SessionBackendKind
  deriving DecidableEq, Repr

inductive ResponseClosePublisher where
  | manager
  | pty
  | rawOutput
  | detector
  | menu
  | hold
  deriving DecidableEq, Repr

/-- One request to an agent: what was asked, and the returns it still owes. -/
structure ResponseClosePolicy where
  nonce : Uuid
  member : ResponseRouteIdentity
  coordinator : ResponseRouteIdentity
  workEpoch : ℕ
  settingsEpoch : ℕ
  requestKey : String
  requestDigest : String
  openedAt : Instant
  submitted : Bool
  registeredAt : Option Instant
  successAt : Option Instant
  returns : AList fun _ : String => String × ℕ
  selected : Option Uuid

structure ResponseCloseCommittedBinding where
  member : ResponseRouteIdentity
  closeNonce : Uuid
  deriving DecidableEq, Repr

structure ResponseCloseRoute where
  generation : ℕ
  facts : Option ResponseRouteIdentity
  eligible : Bool
  managerToken : Option Uuid
  managerVersion : ℕ
  managerWorking : Option Bool
  detectorWorking : Option Bool
  menuBlocked : Option Bool
  holdUntil : Option Instant
  holdKnown : Bool
  holdWindow : Option Duration
  held : Finset String
  writers : ℕ
  workEpoch : ℕ
  activityVersion : ℕ
  lastChange : Instant
  policy : Option ResponseClosePolicy
  closing : Option Uuid
  closingTarget : Option String
  committedBinding : Option ResponseCloseCommittedBinding

structure ResponseCloseWork where
  provisional : ℕ := 0
  dispatch : ℕ := 0
  pending : AList fun _ : String => String := ∅
  terminal : AList fun _ : String => String := ∅

structure ResponseCloseInner where
  ready : Bool
  publishers : Finset ResponseClosePublisher
  workBootstrapped : Bool
  enabled : Bool
  seconds : ℕ
  settingsEpoch : ℕ
  failed : Bool
  routes : AList fun _ : Uuid => ResponseCloseRoute
  work : AList fun _ : String => ResponseCloseWork
  createOwners : AList fun _ : String => AList fun _ : Uuid => Bool
  nextReturnSequence : ℕ
  unknownSpawns : ℕ
  terminalReturns : AList fun _ : ResponseRouteIdentity × ResponseRouteIdentity × String => String

/-- The record behind its mutex. -/
structure ResponseCloseState where
  inner : ResponseCloseInner
  poisoned : Bool

inductive ResponseCloseError where
  | closingDeferred
  | unknown
  | conflict
  | unavailable
  deriving DecidableEq, Repr

namespace ResponseCloseRoute

/-- Returns whether the activity counter had room. -/
def touch (r : ResponseCloseRoute) (now : Instant) : ResponseCloseRoute × Bool :=
  let r : ResponseCloseRoute := { r with
    lastChange := max r.lastChange now
    policy := r.policy.map fun p : ResponseClosePolicy => { p with selected := none } }
  match checkedSucc r.activityVersion with
  | some next => ({ r with activityVersion := next }, true)
  | none => ({ r with policy := none }, false)

def invalidate (r : ResponseCloseRoute) (now : Instant) : ResponseCloseRoute × Bool :=
  let r : ResponseCloseRoute := { r with policy := none }
  match checkedSucc r.workEpoch with
  | some next => { r with workEpoch := next }.touch now
  | none => (r, false)

end ResponseCloseRoute

namespace ResponseCloseInner

def default : ResponseCloseInner := ⟨false, ∅, false, false, 0, 0, false, ∅, ∅, ∅, 0, 0, ∅⟩

def targetIsClosing (s : ResponseCloseInner) (target : String) : Bool :=
  (Assoc.values s.routes).any fun r => r.closing.isSome && decide (r.closingTarget = some target)

/-- A change of the routes, each of which may fail the tracker. -/
def revise (s : ResponseCloseInner)
    (f : Uuid → ResponseCloseRoute → ResponseCloseRoute × Bool) : ResponseCloseInner :=
  { s with
    routes := Assoc.mapValues s.routes fun id r => (f id r).1
    failed := s.failed || s.routes.entries.any fun e => !(f e.1 e.2).2 }

/-- A change of one route. -/
def reviseAt (s : ResponseCloseInner) (id : Uuid)
    (f : ResponseCloseRoute → ResponseCloseRoute × Bool) : ResponseCloseInner :=
  s.revise fun j r => if j = id then f r else (r, true)

/-- A change of the routes that answer to a condition. -/
def reviseAll (s : ResponseCloseInner) (p : ResponseCloseRoute → Bool)
    (f : ResponseCloseRoute → ResponseCloseRoute × Bool) : ResponseCloseInner :=
  s.revise fun _ r => if p r then f r else (r, true)

/-- The routes whose facts name the target. -/
def touchTarget (s : ResponseCloseInner) (target : String) (now : Instant) : ResponseCloseInner :=
  s.reviseAll (fun r => r.facts.any fun f => decide (f.target = target)) (·.touch now)

def workFor (s : ResponseCloseInner) (target : String) : ResponseCloseWork :=
  (s.work.lookup target).getD {}

def setWork (s : ResponseCloseInner) (target : String) (work : ResponseCloseWork) :
    ResponseCloseInner := { s with work := s.work.insert target work }

def fail (s : ResponseCloseInner) : ResponseCloseInner := { s with failed := true }

def failClosed (s : ResponseCloseInner) : ResponseCloseInner :=
  (s.revise fun _ r => ({ r with policy := none }, true)).fail

theorem lookup_revise (s : ResponseCloseInner)
    (f : Uuid → ResponseCloseRoute → ResponseCloseRoute × Bool) (id : Uuid) :
    (s.revise f).routes.lookup id = (s.routes.lookup id).map fun r => (f id r).1 :=
  Assoc.lookup_mapValues s.routes _ id

theorem failed_revise (s : ResponseCloseInner)
    (f : Uuid → ResponseCloseRoute → ResponseCloseRoute × Bool) (h : s.failed = true) :
    (s.revise f).failed = true := by
  unfold revise
  rw [h, Bool.true_or]

theorem lookup_setWork (s : ResponseCloseInner) (target : String) (work : ResponseCloseWork)
    (other : String) :
    (s.setWork target work).workFor other = if other = target then work else s.workFor other := by
  unfold workFor setWork
  rw [Assoc.lookup_insert_eq]
  split_ifs <;> rfl

end ResponseCloseInner

namespace ResponseCloseState

def default : ResponseCloseState := ⟨.default, false⟩

/-- What a panic inside a critical section leaves behind. -/
def poison (s : ResponseCloseState) : ResponseCloseState := { s with poisoned := true }

/-- The lock taken over a poisoning, which fails the tracker. -/
def lockAnyway (s : ResponseCloseState) : ResponseCloseState :=
  if s.poisoned then { s with inner := s.inner.fail } else s

/-- A section under the lock. `refused` is what its caller answers where the tracker has failed. -/
def withInner {α : Type} (s : ResponseCloseState) (refused : α)
    (f : ResponseCloseInner → ResponseCloseInner × α) : ResponseCloseState × α :=
  if s.poisoned then ({ s with inner := s.inner.fail }, refused)
  else if s.inner.failed then (s, refused)
  else ({ s with inner := (f s.inner).1 }, (f s.inner).2)

end ResponseCloseState
end AgentsCommander.ResponseClose
