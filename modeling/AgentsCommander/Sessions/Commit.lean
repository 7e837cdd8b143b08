import AgentsCommander.Foundation.Transaction
import AgentsCommander.Sessions.Operations

/-! The two operations that select: the lifecycle commit and the sweep of exited rows. -/
namespace AgentsCommander.Sessions
open Foundation

inductive CommitDecision where
  | keep
  | clear
  | live (witness : LiveRuntimeWitness)
  | dormant (witness : DormantRuntimeWitness)

inductive FinalizeMutation where
  | live (binding : PendingCreateBinding) (witness : LiveRuntimeWitness)
  | dormant (binding : PendingCreateBinding) (witness : DormantRuntimeWitness) (exitCode : ℤ)

def FinalizeMutation.binding : FinalizeMutation → PendingCreateBinding
  | .live binding _ | .dormant binding _ _ => binding

def FinalizeMutation.sessionId (m : FinalizeMutation) : Uuid := m.binding.sessionId

/-- The status a finalized row is given. -/
def FinalizeMutation.status : FinalizeMutation → SessionStatus
  | .live .. => .running
  | .dormant _ _ exitCode => .exited exitCode

structure LifecycleMutations where
  removals : List Uuid
  markExited : List (Uuid × ℤ)
  detachedIntent : List (Uuid × Bool)
  finalizations : List FinalizeMutation
  promptTransfers : List (Uuid × PendingCreateBinding)

namespace LifecycleMutations

def exits (m : LifecycleMutations) : List Uuid := m.markExited.map (·.1)

def finalized (m : LifecycleMutations) : List Uuid := m.finalizations.map (·.sessionId)

end LifecycleMutations

inductive LifecycleList where
  | removal
  | markExited
  | detachedIntent
  | finalization
  | promptTransferSource
  | promptTransferTarget
  deriving DecidableEq, Repr

inductive CommitError where
  | duplicate (label : LifecycleList)
  | removeAndMarkExited
  | removeAndFinalize
  | markExitedAndFinalize
  | addressesPendingCreate
  | finalizationCapabilityMismatch (id : Uuid)
  | liveFinalizationWitness (id : Uuid)
  | pendingRecordMissing (id : Uuid)
  | liveFinalizationExited (id : Uuid)
  | dormantFinalizationInvalid (id : Uuid)
  | promptTransferSourceMissing
  | promptTransferTargetMissing
  | invalidPromptTransfer
  | incompatiblePromptTransfer
  | keepTouchesSelected
  | liveWitness (id : Uuid)
  | livePending (id : Uuid)
  | liveRemoved (id : Uuid)
  | liveExited (id : Uuid)
  | liveMissing (id : Uuid)
  | dormantDetached (id : Uuid)
  | dormantPending (id : Uuid)
  | dormantRemoved (id : Uuid)
  | dormantMissing (id : Uuid)
  | dormantNotExited (id : Uuid)
  | revisionOverflow
  | invalidCanonicalTarget
  deriving DecidableEq, Repr

structure CommitResult where
  removedRows : List Session
  missingIds : List Uuid
  changedRows : List Session
  finalizedRows : List Session
  clearedRaiseHandIds : List Uuid
  selection : Option SessionSelection
  activity : List Uuid

/-- Run a check over a list, up to the first that fails. -/
def forEach {α ε : Type} (l : List α) (check : α → Except ε Unit) : Except ε Unit :=
  l.foldr (fun a rest => do check a; rest) (.ok ())

namespace SessionManagerState

def validateFinalizationWitness (s : SessionManagerState) :
    FinalizeMutation → Except CommitError Unit
  | .live binding witness => do
    ensure (s.bindingMatches binding) (.finalizationCapabilityMismatch binding.sessionId)
    ensure (witness.sessionId = binding.sessionId && witness.hasPty && !witness.detached)
      (.liveFinalizationWitness binding.sessionId)
    let record ← require (s.sessions.lookup binding.sessionId)
      (.pendingRecordMissing binding.sessionId)
    ensure (!record.status.isExited) (.liveFinalizationExited binding.sessionId)
  | .dormant binding witness _ =>
    ensure (s.bindingMatches binding && witness.sessionId = binding.sessionId && !witness.detached)
      (.dormantFinalizationInvalid binding.sessionId)

def validatePromptTransfer (s : SessionManagerState) (m : LifecycleMutations)
    (transfer : Uuid × PendingCreateBinding) : Except CommitError Unit := do
  let source ← require (s.sessions.lookup transfer.1) .promptTransferSourceMissing
  let target ← require (s.sessions.lookup transfer.2.sessionId) .promptTransferTargetMissing
  ensure (transfer.1 ∈ m.removals && transfer.2.sessionId ∈ m.finalized &&
    s.bindingMatches transfer.2 && !source.startFreshOnRestore && !target.startFreshOnRestore &&
    source.agentId = target.agentId && source.requestedProfile = target.requestedProfile &&
    source.effectiveProfile = target.effectiveProfile &&
    source.workingDirectory = target.workingDirectory) .invalidPromptTransfer
  match s.promptKeys.lookup transfer.1, s.pendingPrompts.lookup transfer.2.sessionId with
  | some key, some pending =>
    ensure (key = pending.key && pending.continuation && !pending.fresh) .incompatiblePromptTransfer
  | _, _ => .ok ()

def validateLifecycleMutations (s : SessionManagerState) (m : LifecycleMutations) :
    Except CommitError Unit := do
  ensure m.removals.Nodup (.duplicate .removal)
  ensure m.exits.Nodup (.duplicate .markExited)
  ensure (m.detachedIntent.map (·.1)).Nodup (.duplicate .detachedIntent)
  ensure m.finalized.Nodup (.duplicate .finalization)
  ensure (m.removals.all (· ∉ m.exits)) .removeAndMarkExited
  ensure (m.removals.all (· ∉ m.finalized)) .removeAndFinalize
  ensure (m.exits.all (· ∉ m.finalized)) .markExitedAndFinalize
  ensure ((m.removals ++ m.exits).all fun id => !s.isPending id) .addressesPendingCreate
  forEach m.finalizations s.validateFinalizationWitness
  ensure (m.promptTransfers.map (·.1)).Nodup (.duplicate .promptTransferSource)
  ensure (m.promptTransfers.map (·.2.sessionId)).Nodup (.duplicate .promptTransferTarget)
  forEach m.promptTransfers (s.validatePromptTransfer m)

/-- The status a row will have once the mutations are applied. -/
def projectedStatus (s : SessionManagerState) (m : LifecycleMutations) (id : Uuid) :
    Option SessionStatus :=
  if id ∈ m.removals then none
  else
    match m.finalizations.find? (·.sessionId = id) with
    | some mutation => some mutation.status
    | none =>
      match s.sessions.lookup id with
      | none => none
      | some row =>
        if row.status.isExited then some row.status
        else
          match m.markExited.find? (·.1 = id) with
          | some exit => some (.exited exit.2)
          | none => some row.status

/-- Mode, id and status of the selection to be. -/
structure SelectionTarget where
  mode : SelectionMode
  id : Option Uuid
  status : Option SessionStatus
  deriving DecidableEq, Repr

def resolveSelectionCommitTarget (s : SessionManagerState) (decision : CommitDecision)
    (m : LifecycleMutations) : Except CommitError SelectionTarget :=
  match decision with
  | .keep => do
    ensure (!s.selection.id.any fun id => id ∈ m.removals || id ∈ m.exits ||
      m.detachedIntent.any fun d => d.1 = id && d.2) .keepTouchesSelected
    .ok ⟨s.selection.mode, s.selection.id, s.selection.status⟩
  | .clear => .ok ⟨.none, none, none⟩
  | .live witness => do
    let id := witness.sessionId
    ensure (witness.hasPty && !witness.detached) (.liveWitness id)
    ensure (!(s.isPending id && id ∉ m.finalized)) (.livePending id)
    ensure (id ∉ m.removals) (.liveRemoved id)
    let status ← require (s.projectedStatus m id) (.liveMissing id)
    ensure (!status.isExited) (.liveExited id)
    .ok ⟨.live, some id, some .active⟩
  | .dormant witness => do
    let id := witness.sessionId
    ensure (!witness.detached) (.dormantDetached id)
    ensure (!(s.isPending id && id ∉ m.finalized)) (.dormantPending id)
    ensure (id ∉ m.removals) (.dormantRemoved id)
    let status ← require (s.projectedStatus m id) (.dormantMissing id)
    ensure status.isExited (.dormantNotExited id)
    .ok ⟨.dormant, some id, some status⟩

/-- `validate_canonical_selection_target`. -/
def SelectionTarget.canonical (t : SelectionTarget) : Bool :=
  match t.mode, t.id, t.status with
  | .none, none, _ => true
  | .live, some _, _ => true
  | .dormant, some _, some (.exited _) => true
  | _, _, _ => false

def finalizePromptDomain (s : SessionManagerState) (id : Uuid) (predecessor : Option Uuid)
    (allowFreshReopen : Bool) : SessionManagerState :=
  match s.pendingPrompts.lookup id with
  | none => s
  | some prepared =>
    let s := { s with pendingPrompts := s.pendingPrompts.erase id }
    match s.sessions.lookup id with
    | none => s
    | some row =>
      if !prepared.key.matches row then s
      else
        let entry := (s.retainedPrompts.lookup prepared.key).getD .default
        let put (s : SessionManagerState) (entry : RetainedPrompt) (prompt : Option String) :=
          { s.editRow id fun row => { row with lastPrompt := prompt } with
            retainedPrompts := s.retainedPrompts.insert prepared.key entry }
        let s :=
          if !s.promptDomainExclusive prepared.key predecessor then put s ⟨none, true⟩ row.lastPrompt
          else if !prepared.continuation && !prepared.fresh then put s ⟨none, true⟩ none
          else if prepared.fresh || row.startFreshOnRestore then
            put { s with promptSeedBlocked := insert id s.promptSeedBlocked }
              ⟨none, !allowFreshReopen && entry.blocked⟩ none
          else
            let prompt := if prepared.allowRetainedLookup && row.lastPrompt.isNone &&
              !entry.blocked && s.promptsReusable then entry.lastPrompt else row.lastPrompt
            put s { entry with
              lastPrompt := if !entry.blocked && prompt.isSome then prompt else entry.lastPrompt }
              prompt
        let keys := s.promptKeys.insert id prepared.key
        { s with promptKeys := predecessor.elim keys fun source => keys.erase source }

/-- The row whose prompt domain a finalized one succeeds to: the source of its transfer, or on
a restart the removed row with the same key. -/
def predecessorOf (s : SessionManagerState) (m : LifecycleMutations) (cause : SelectionCause)
    (id : Uuid) : Option Uuid :=
  let transferred := (m.promptTransfers.find? fun t => t.2.sessionId = id).map (·.1)
  if cause.isRestart then
    match s.pendingPrompts.lookup id with
    | none => transferred
    | some target =>
      match m.removals.find? fun source => s.promptKeys.lookup source = some target.key with
      | some source => some source
      | none => transferred
  else transferred

def applyCommitPromptDomains (s : SessionManagerState) (m : LifecycleMutations)
    (cause : SelectionCause) : SessionManagerState :=
  let predecessor := s.predecessorOf m cause
  let transferred := m.promptTransfers.foldl (fun t transfer =>
    t.editRow transfer.2.sessionId fun row =>
      { row with lastPrompt := (t.sessions.lookup transfer.1).bind (·.lastPrompt) }) s
  m.finalized.foldl (fun t id =>
    t.finalizePromptDomain id (predecessor id) (cause ≠ .restore)) transferred

/-- The state on its way through the mutations, and what they leave for the result. -/
structure Applied where
  state : SessionManagerState
  result : CommitResult
  changedIds : List Uuid
  finalizedLiveIds : List Uuid

def applyFinalization (a : Applied) (m : FinalizeMutation) : Applied :=
  let id := m.sessionId
  let s := { a.state with pendingCreate := a.state.pendingCreate.erase id }
  let s := s.clearFailedRecipeForRuntimeBinding id
  let s := s.editRow id fun row => { row with status := m.status }
  match s.sessions.lookup id with
  | none => { a with state := s }
  | some row =>
    { a with
      state := s
      result := { a.result with finalizedRows := a.result.finalizedRows ++ [row] }
      finalizedLiveIds := match m with
        | .live .. => a.finalizedLiveIds ++ [id]
        | .dormant .. => a.finalizedLiveIds }

def missing (a : Applied) (id : Uuid) : Applied :=
  { a with result := { a.result with missingIds := a.result.missingIds ++ [id] } }

/-- A row that exits lowers its hand. -/
def exitRow (row : Session) (exitCode : ℤ) : Session :=
  if row.status.isExited then row
  else
    { row with
      status := .exited exitCode
      communication := if row.raisesHand then none else row.communication }

def applyExit (a : Applied) (exit : Uuid × ℤ) : Applied :=
  match a.state.sessions.lookup exit.1 with
  | none => missing a exit.1
  | some row =>
    if row.status.isExited then a
    else
      { a with
        state := a.state.editRow exit.1 (exitRow · exit.2)
        result := if row.raisesHand then
          { a.result with clearedRaiseHandIds := a.result.clearedRaiseHandIds ++ [exit.1] }
          else a.result
        changedIds := exit.1 :: a.changedIds }

def applyDetachedIntent (a : Applied) (d : Uuid × Bool) : Applied :=
  match a.state.sessions.lookup d.1 with
  | none => missing a d.1
  | some row =>
    if row.wasDetached = d.2 then a
    else
      { a with
        state := a.state.editRow d.1 fun row => { row with wasDetached := d.2 }
        changedIds := d.1 :: a.changedIds }

/-- The row of a session goes, and everything kept for it. -/
def removeRow (s : SessionManagerState) (id : Uuid) : SessionManagerState :=
  retireCodingAgentBinding { s with
    sessions := s.sessions.erase id
    order := s.order.filter (· ≠ id)
    promptKeys := s.promptKeys.erase id
    promptSeedBlocked := s.promptSeedBlocked.erase id
    pendingPrompts := s.pendingPrompts.erase id
    pendingCreate := s.pendingCreate.erase id } id

def applyRemoval (a : Applied) (id : Uuid) : Applied :=
  match a.state.sessions.lookup id with
  | none => missing a id
  | some row =>
    { a with
      state := a.state.removeRow id
      result := { a.result with removedRows := a.result.removedRows ++ [row] } }

def applyLifecycleMutations (s : SessionManagerState) (m : LifecycleMutations) : Applied :=
  let a : Applied := ⟨s, ⟨[], [], [], [], [], none, []⟩, [], []⟩
  let a := m.finalizations.foldl applyFinalization a
  let a := m.markExited.foldl applyExit a
  let a := m.detachedIntent.foldl applyDetachedIntent a
  m.removals.foldl applyRemoval a

/-- Mode or session differ, or the exit of a dormant one. -/
def selectionChanged (s : SessionManagerState) (t : SelectionTarget) : Bool :=
  t.mode ≠ s.selection.mode || t.id ≠ s.selection.id ||
    (t.mode = .dormant && t.status ≠ s.selection.status)

/-- The row that was selected is no longer the active one. -/
def deactivate (s : SessionManagerState) (id : Uuid) : SessionManagerState :=
  s.editRow id fun row =>
    { row with status := if row.status = .active then .running else row.status }

def isActive (s : SessionManagerState) (id : Uuid) : Bool :=
  (s.sessions.lookup id).any (·.status = .active)

def activate (s : SessionManagerState) (id : Uuid) : SessionManagerState :=
  s.editRow id fun row => { row with status := .active }

/-- The selection a target stands for; a dormant decision says whether a PTY is left. -/
def SelectionTarget.selection (t : SelectionTarget) (epoch : Uuid) (revision : ℕ)
    (cause : SelectionCause) (decision : CommitDecision) : SessionSelection :=
  match t.mode, t.id, t.status with
  | .live, some id, _ => .live epoch revision cause id
  | .dormant, some id, some (.exited code) =>
    .dormant epoch revision cause id code (match decision with
      | .dormant witness => witness.hasPty
      | _ => false)
  | _, _, _ => .none epoch revision cause

/-- The part of a commit behind its checks, when the selection changes. -/
def select (a : Applied) (t : SelectionTarget) (revision : ℕ) (cause : SelectionCause)
    (decision : CommitDecision) : Applied :=
  let s := a.state
  let remains id := t.mode = .live && t.id = some id
  let (s, changedIds) := match s.selection.id with
    | none => (s, a.changedIds)
    | some previous =>
      if remains previous then (s, a.changedIds)
      else if s.isActive previous then
        (s.deactivate previous, previous :: a.changedIds)
      else (s, a.changedIds)
  let (s, changedIds) := match t.mode, t.id with
    | .live, some id => (s.activate id, id :: changedIds)
    | _, _ => (s, changedIds)
  let selection := t.selection s.epoch revision cause decision
  { a with
    state := { s with revision := revision, selection := selection }
    result := { a.result with selection := some selection }
    changedIds := changedIds }

/-- The rows the result shows, read once everything is in place. -/
def Applied.finish (a : Applied) : SessionManagerState × CommitResult :=
  let s := a.state
  (s, { a.result with
    changedRows := (s.order.filter fun id => id ∈ a.changedIds && !s.isPending id).filterMap
      fun id => s.sessions.lookup id
    activity := a.finalizedLiveIds.filter fun id => (s.sessions.lookup id).any isWorking })

def commitSelectionTransition (s : SessionManagerState) (decision : CommitDecision)
    (cause : SelectionCause) (m : LifecycleMutations) :
    SessionManagerState × Except CommitError CommitResult :=
  let checked : Except CommitError (SelectionTarget × ℕ) := do
    s.validateLifecycleMutations m
    let target ← s.resolveSelectionCommitTarget decision m
    let next ← if s.selectionChanged target then
      require (checkedAdd u64Max s.revision) .revisionOverflow else .ok s.revision
    ensure target.canonical .invalidCanonicalTarget
    .ok (target, next)
  match checked with
  | .error e => (s.touch, .error e)
  | .ok (target, next) =>
    let applied := applyLifecycleMutations (s.applyCommitPromptDomains m cause) m
    let selected := if s.selectionChanged target then select applied target next cause decision
      else applied
    (drop s selected.finish.1, .ok selected.finish.2)

/-- What the sweep does to one id of its list. The ids of the rows it removed are kept. -/
def sweepRow (disposition : Uuid → Option CarrierDisposition)
    (acc : SessionManagerState × List Uuid) (id : Uuid) : SessionManagerState × List Uuid :=
  if disposition id = some .foreign && (acc.1.sessions.lookup id).any (·.status.isExited) &&
      !acc.1.isPending id then
    (retireCodingAgentBinding { acc.1 with sessions := acc.1.sessions.erase id } id, acc.2 ++ [id])
  else acc

/-- The next selection after a sweep: the first row of the order that no carrier protects. -/
def sweepSuccessor (s : SessionManagerState) (disposition : Uuid → Option CarrierDisposition) :
    Option Uuid :=
  s.order.find? fun id => !s.isPending id && disposition id = some .foreign

/-- What the carriers say of each row when the sweep begins. -/
def dispositions (s : SessionManagerState) (classify : Session → ℕ → CarrierDisposition)
    (id : Uuid) : Option CarrierDisposition :=
  (s.sessions.lookup id).map fun row => classify row (s.version id)

/-- The selected row is asked for, but a carrier protects it: it stays, and is selected no
more. -/
def clearSurviving (s : SessionManagerState) (disposition : Uuid → Option CarrierDisposition)
    (ids : List Uuid) : Bool :=
  s.selection.id.any fun id => id ∈ ids && disposition id = some .«protected»

def willRemoveSelected (s : SessionManagerState) (disposition : Uuid → Option CarrierDisposition)
    (ids : List Uuid) : Bool :=
  s.selection.id.any fun id => id ∈ ids && disposition id = some .foreign && !s.isPending id &&
    (s.sessions.lookup id).any (·.status.isExited)

/-- The next selection, after the one so far is gone or cleared. -/
def reselect (s : SessionManagerState) (disposition : Uuid → Option CarrierDisposition)
    (clear : Bool) (revision : ℕ) : SessionManagerState :=
  let s := if clear then s.selection.id.elim s s.deactivate else s
  match s.sweepSuccessor disposition with
  | some id =>
    { s.activate id with
      revision := revision
      selection := .live s.epoch revision .backgroundCleanup id }
  | none =>
    { s with
      revision := revision
      selection := .none s.epoch revision .backgroundCleanup }

/-- `remove_exited_sessions_with_carrier_permit`. -/
def removeExitedSessions (s : SessionManagerState) (ids : List Uuid)
    (classify : Session → ℕ → CarrierDisposition) : SessionManagerState × ℕ :=
  let disposition := s.dispositions classify
  let clear := s.clearSurviving disposition ids
  match if clear || s.willRemoveSelected disposition ids then checkedAdd u64Max s.revision
    else some s.revision with
  | none => (s.touch, 0)
  | some revision =>
    let swept := ids.foldl (sweepRow disposition) (s, [])
    let kept := { swept.1 with order := swept.1.order.filter (· ∉ swept.2) }
    let selected := if clear || s.selection.id.any (· ∈ swept.2) then
      kept.reselect disposition clear revision else kept
    (drop s selected, swept.2.length)

end SessionManagerState
end AgentsCommander.Sessions
