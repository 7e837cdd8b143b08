import Mathlib.Algebra.Order.Ring.Int
import Mathlib.Data.Finset.Basic

/-! Session rows and the selection payload the frontend is shown. -/
namespace AgentsCommander.Sessions

/-- 128 bits that are only compared. -/
abbrev Uuid := ℕ

def u64Max : ℕ := 2 ^ 64 - 1

inductive SessionStatus where
  | active
  | running
  | idle
  | exited (code : ℤ)
  deriving DecidableEq, Repr

def SessionStatus.isExited : SessionStatus → Bool
  | .exited _ => true
  | _ => false

inductive SessionBackendKind where
  | localProcess
  | containerTransport
  deriving DecidableEq, Repr

inductive CodingAgentKind where
  | claude
  | codex
  | antigravity
  | pi
  | muse
  deriving DecidableEq, Repr

inductive SessionCommunicationKind where
  | raiseHand
  | blockedMenu
  | coManaged
  deriving DecidableEq, Repr

structure SessionCommunication where
  kind : SessionCommunicationKind
  visible : Bool
  updatedAt : String
  message : Option String
  deriving DecidableEq, Repr

structure SessionRepo where
  label : String
  sourcePath : String
  branch : Option String
  dirty : Option Bool
  deriving DecidableEq, Repr

structure Session where
  id : Uuid
  name : String
  shell : String
  shellArgs : List String
  backendKind : SessionBackendKind
  effectiveShellArgs : Option (List String)
  createdAt : ℤ
  workingDirectory : String
  status : SessionStatus
  waitingForInput : Bool
  communication : Option SessionCommunication
  lastPrompt : Option String
  agentId : Option String
  agentLabel : Option String
  gitRepos : List SessionRepo
  isCoordinator : Bool
  isRootAgent : Bool
  gitReposGen : ℕ
  agentTurnArmed : Bool
  token : Uuid
  agentKind : Option CodingAgentKind
  requestedProfile : Option String
  effectiveProfile : Option String
  profileFallbackChain : List String
  profileFallbackApplied : Bool
  matchTier : Option String
  originalProfileLetter : Option String
  effectiveCodexHome : Option String
  resolvedClaudeProjectsDir : Option String
  profileContentHash : Option String
  trustedConfiguredSpawn : Bool
  telegramBotId : Option String
  wasDetached : Bool
  startFreshOnRestore : Bool

def isWorking (s : Session) : Bool :=
  !s.waitingForInput && (s.status = .active || s.status = .running)

def Session.raisesHand (s : Session) : Bool :=
  s.communication.any fun c => c.kind = .raiseHand && c.visible

/-- The domain a prompt is kept for across sessions. -/
structure PromptKey where
  canonicalCwd : String
  agentId : String
  requestedProfile : Option String
  effectiveProfile : String
  deriving DecidableEq, Repr

def PromptKey.matches (k : PromptKey) (row : Session) : Bool :=
  row.agentId = some k.agentId && row.requestedProfile = k.requestedProfile &&
    row.effectiveProfile = some k.effectiveProfile && row.backendKind = .localProcess

/-- `stable_carrier_equal`: the turn, the prompt and the armed flag may differ. -/
def stableCarrierEqual (a b : Session) : Bool :=
  a.id = b.id && a.createdAt = b.createdAt && a.token = b.token && a.name = b.name &&
    a.workingDirectory = b.workingDirectory && a.shell = b.shell && a.shellArgs = b.shellArgs &&
    a.backendKind = b.backendKind && a.effectiveShellArgs = b.effectiveShellArgs &&
    a.agentId = b.agentId && a.agentLabel = b.agentLabel &&
    a.gitRepos.map (fun r => (r.label, r.sourcePath)) =
      b.gitRepos.map (fun r => (r.label, r.sourcePath)) &&
    a.isCoordinator = b.isCoordinator && a.isRootAgent = b.isRootAgent &&
    a.agentKind = b.agentKind && a.requestedProfile = b.requestedProfile &&
    a.effectiveProfile = b.effectiveProfile &&
    a.profileFallbackChain = b.profileFallbackChain &&
    a.profileFallbackApplied = b.profileFallbackApplied && a.matchTier = b.matchTier &&
    a.originalProfileLetter = b.originalProfileLetter &&
    a.effectiveCodexHome = b.effectiveCodexHome &&
    a.resolvedClaudeProjectsDir = b.resolvedClaudeProjectsDir &&
    a.profileContentHash = b.profileContentHash &&
    a.trustedConfiguredSpawn = b.trustedConfiguredSpawn && a.telegramBotId = b.telegramBotId &&
    a.wasDetached = b.wasDetached && a.startFreshOnRestore = b.startFreshOnRestore &&
    a.communication = b.communication &&
    decide (a.status = .active) = decide (b.status = .active) &&
    match a.status, b.status with
    | .exited x, .exited y => x = y
    | .exited _, _ | _, .exited _ => false
    | _, _ => true

inductive SelectionSource where
  | initialHydration
  | sessionCreated
  | userSwitch
  | manualClose
  | autoClose
  | restart
  | restore
  | detach
  | attach
  | spawnRollback
  | resourceMonitor
  | backgroundCleanup
  | livenessReconcile
  deriving DecidableEq, Repr

/-- Who asked, where the cause tells: the user, or the process itself (also as a watchdog). -/
inductive TrustedIntent where
  | user
  | background
  deriving DecidableEq, Repr

inductive SelectionCause where
  | sessionCreated (intent : TrustedIntent)
  | userSwitch
  | manualClose
  | autoClose
  | restart (intent : TrustedIntent)
  | restore
  | detach
  | attach
  | spawnRollback
  | resourceMonitor (intent : TrustedIntent)
  | backgroundCleanup
  | livenessReconcile
  deriving DecidableEq, Repr

namespace SelectionCause

def source : SelectionCause → SelectionSource
  | .sessionCreated _ => .sessionCreated
  | .userSwitch => .userSwitch
  | .manualClose => .manualClose
  | .autoClose => .autoClose
  | .restart _ => .restart
  | .restore => .restore
  | .detach => .detach
  | .attach => .attach
  | .spawnRollback => .spawnRollback
  | .resourceMonitor _ => .resourceMonitor
  | .backgroundCleanup => .backgroundCleanup
  | .livenessReconcile => .livenessReconcile

def userInitiated : SelectionCause → Bool
  | .sessionCreated intent | .restart intent | .resourceMonitor intent => intent = .user
  | .userSwitch | .manualClose | .detach | .attach => true
  | .autoClose | .restore | .spawnRollback | .backgroundCleanup | .livenessReconcile => false

def isRestart : SelectionCause → Bool
  | .restart _ => true
  | _ => false

end SelectionCause

inductive SelectionMode where
  | none
  | live
  | dormant
  deriving DecidableEq, Repr

structure SessionSelection where
  epoch : Uuid
  source : SelectionSource
  userInitiated : Bool
  revision : ℕ
  mode : SelectionMode
  id : Option Uuid
  status : Option SessionStatus
  hasPty : Bool
  detached : Bool
  displayable : Bool
  deriving DecidableEq, Repr

namespace SessionSelection

def initial (epoch : Uuid) : SessionSelection where
  epoch := epoch
  source := .initialHydration
  userInitiated := false
  revision := 0
  mode := .none
  id := none
  status := none
  hasPty := false
  detached := false
  displayable := false

def none (epoch : Uuid) (revision : ℕ) (cause : SelectionCause) : SessionSelection where
  epoch := epoch
  source := cause.source
  userInitiated := cause.userInitiated
  revision := revision
  mode := .none
  id := Option.none
  status := Option.none
  hasPty := false
  detached := false
  displayable := false

def live (epoch : Uuid) (revision : ℕ) (cause : SelectionCause) (id : Uuid) :
    SessionSelection where
  epoch := epoch
  source := cause.source
  userInitiated := cause.userInitiated
  revision := revision
  mode := .live
  id := some id
  status := some .active
  hasPty := true
  detached := false
  displayable := true

def dormant (epoch : Uuid) (revision : ℕ) (cause : SelectionCause) (id : Uuid) (exitCode : ℤ)
    (hasPty : Bool) : SessionSelection where
  epoch := epoch
  source := cause.source
  userInitiated := cause.userInitiated
  revision := revision
  mode := .dormant
  id := some id
  status := some (.exited exitCode)
  hasPty := hasPty
  detached := false
  displayable := false

end SessionSelection

/-- What a runtime answered about a session, for a selection that displays it. -/
structure LiveRuntimeWitness where
  sessionId : Uuid
  hasPty : Bool
  detached : Bool
  deriving DecidableEq, Repr

structure DormantRuntimeWitness where
  sessionId : Uuid
  hasPty : Bool
  detached : Bool
  deriving DecidableEq, Repr

structure PendingCreateBinding where
  sessionId : Uuid
  nonce : Uuid
  deriving DecidableEq, Repr

inductive CarrierDisposition where
  | «protected»
  | foreign
  | unknown
  deriving DecidableEq, Repr

end AgentsCommander.Sessions
