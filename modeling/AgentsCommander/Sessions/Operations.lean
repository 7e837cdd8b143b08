import AgentsCommander.Sessions.State

/-! The operations of the session manager other than the two that select: creation, the turn,
communications, prompts, bindings and metadata. -/
namespace AgentsCommander.Sessions
open Foundation

/-- What a create is asked for. -/
structure NewSession where
  shell : String
  shellArgs : List String
  workingDirectory : String
  agentId : Option String
  agentLabel : Option String
  gitRepos : List SessionRepo
  isCoordinator : Bool
  backendKind : SessionBackendKind

/-- The row `insert_new_pending_session_with_carrier_permit` is born with. -/
def NewSession.toRow (r : NewSession) (id token : Uuid) (name : String) (createdAt : ℤ) : Session where
  id := id
  name := name
  shell := r.shell
  shellArgs := r.shellArgs
  backendKind := r.backendKind
  effectiveShellArgs := none
  createdAt := createdAt
  workingDirectory := r.workingDirectory
  status := .running
  waitingForInput := false
  communication := none
  lastPrompt := none
  agentId := r.agentId
  agentLabel := r.agentLabel
  gitRepos := r.gitRepos
  isCoordinator := r.isCoordinator
  isRootAgent := false
  gitReposGen := 0
  agentTurnArmed := false
  token := token
  agentKind := none
  requestedProfile := none
  effectiveProfile := none
  profileFallbackChain := []
  profileFallbackApplied := false
  matchTier := none
  originalProfileLetter := none
  effectiveCodexHome := none
  resolvedClaudeProjectsDir := none
  profileContentHash := none
  trustedConfiguredSpawn := false
  telegramBotId := none
  wasDetached := false
  startFreshOnRestore := false

/-- `restored_dormant_session`: what was persisted comes back as a running row, until it is
finalized. -/
def restoredDormantSession (persisted : Session) (id token : Uuid) (createdAt : ℤ) : Session where
  id := id
  name := persisted.name
  shell := persisted.shell
  shellArgs := persisted.shellArgs
  backendKind := .localProcess
  effectiveShellArgs := none
  createdAt := createdAt
  workingDirectory := persisted.workingDirectory
  status := .running
  waitingForInput := false
  communication := persisted.communication
  lastPrompt := if persisted.startFreshOnRestore then none else persisted.lastPrompt
  agentId := persisted.agentId
  agentLabel := persisted.agentLabel
  gitRepos := persisted.gitRepos
  isCoordinator := persisted.isCoordinator
  isRootAgent := persisted.isRootAgent
  gitReposGen := 0
  agentTurnArmed := false
  token := token
  agentKind := none
  requestedProfile := persisted.requestedProfile
  effectiveProfile := persisted.effectiveProfile
  profileFallbackChain := []
  profileFallbackApplied := false
  matchTier := none
  originalProfileLetter := none
  effectiveCodexHome := none
  resolvedClaudeProjectsDir := none
  profileContentHash := none
  trustedConfiguredSpawn := false
  telegramBotId := persisted.telegramBotId
  wasDetached := persisted.wasDetached
  startFreshOnRestore := persisted.startFreshOnRestore

/-- The generation wraps. -/
def Session.withGitRepos (row : Session) (repos : List SessionRepo) : Session :=
  { row with gitRepos := repos, gitReposGen := (row.gitReposGen + 1) % 2 ^ 64 }

inductive ManagerError where
  | bindingAlreadyUsed
  | sessionNumberOverflow
  | capabilityMismatch (id : Uuid)
  | bindingTargetsAnotherSession
  | sessionAlreadyExists (id : Uuid)
  | pendingPromptMismatch
  | pendingPromptRowMissing
  | codingAgentBindingMismatch
  | codingAgentBindingInvalid
  | codingAgentBindingSeedInvalid
  | codingAgentBindingSeedConflict
  deriving DecidableEq, Repr

namespace SessionManagerState

/-- A row and its claim, in the last place of the order. -/
def insertPending (s : SessionManagerState) (row : Session) (nonce : Uuid) : SessionManagerState :=
  { s with
    sessions := s.sessions.insert row.id row
    order := s.order ++ [row.id]
    pendingCreate := s.pendingCreate.insert row.id nonce }

/-- `insert_new_pending_session_with_carrier_permit`. -/
def createPendingSession (s : SessionManagerState) (binding : PendingCreateBinding)
    (r : NewSession) (token : Uuid) (createdAt : ℤ) :
    SessionManagerState × Except ManagerError Unit :=
  if (s.sessions.lookup binding.sessionId).isSome then
    (s.touch, .error .bindingAlreadyUsed)
  else
    match checkedAdd (2 ^ 32 - 1) s.nextNumber with
    | none => (s.touch, .error .sessionNumberOverflow)
    | some next =>
      (s.write fun s => { s with nextNumber := next }.insertPending
        (r.toRow binding.sessionId token ("Session " ++ toString s.nextNumber) createdAt)
        binding.nonce, .ok ())

/-- `insert_transaction_pending_record_with_carrier_permit`, as restoring a dormant row calls
it. -/
def restorePendingRecord (s : SessionManagerState) (persisted : Session)
    (binding : PendingCreateBinding) (token : Uuid) (createdAt : ℤ) :
    SessionManagerState × Except ManagerError Unit :=
  if (s.sessions.lookup binding.sessionId).isSome then
    (s.touch, .error (.sessionAlreadyExists binding.sessionId))
  else
    match checkedAdd (2 ^ 32 - 1) s.nextNumber with
    | none => (s.touch, .error .sessionNumberOverflow)
    | some next =>
      (s.write fun s => { s with nextNumber := next }.insertPending
        (restoredDormantSession persisted binding.sessionId token createdAt) binding.nonce, .ok ())

def rollbackPendingCreate (s : SessionManagerState) (binding : PendingCreateBinding) :
    SessionManagerState × Except ManagerError Unit :=
  if !s.bindingMatches binding then
    if (s.sessions.lookup binding.sessionId).isNone then (s.touch, .ok ())
    else (s.touch, .error (.capabilityMismatch binding.sessionId))
  else
    (s.write fun s =>
      let s := { s with
        pendingCreate := s.pendingCreate.erase binding.sessionId
        pendingPrompts := s.pendingPrompts.erase binding.sessionId
        sessions := s.sessions.erase binding.sessionId }
      let s := s.retireCodingAgentBinding binding.sessionId
      { s with order := s.order.filter (· ≠ binding.sessionId) }, .ok ())

def markIdle (s : SessionManagerState) (id : Uuid) : SessionManagerState :=
  s.editPublic id fun row =>
    { row with
      waitingForInput := true
      status := if row.status = .running then .idle else row.status }

def markBusy (s : SessionManagerState) (id : Uuid) : SessionManagerState :=
  s.editPublic id fun row =>
    { row with
      waitingForInput := false
      status := if row.status = .idle then .running else row.status }

/-- `prepare_pty_input_boundary`. `verified` stands for the checks of paths, teams, routes,
settings and the recipe, which read nothing of the manager but its rows. -/
def preparePtyInputBoundary (s : SessionManagerState) (id : Uuid)
    (expectedBackend : SessionBackendKind) (authorityId : Uuid)
    (authorityBackend : SessionBackendKind) (verified : Session → Session → Bool) :
    SessionManagerState × Bool :=
  let refused := (s.touch, false)
  if s.isPending id || s.isPending authorityId then refused
  else
    match s.sessions.lookup authorityId, s.sessions.lookup id with
    | some authority, some row =>
      let liveTokenMatches := s.rows.countP fun candidate =>
        !s.isPending candidate.id && candidate.token = authority.token &&
          !candidate.status.isExited
      if authority.status.isExited || authority.backendKind ≠ authorityBackend ||
          (authorityBackend = .localProcess && liveTokenMatches ≠ 1) ||
          row.status.isExited || !row.waitingForInput || row.backendKind ≠ expectedBackend ||
          !verified authority row then refused
      else
        (s.write fun s => s.editRow id fun row =>
          { row with
            waitingForInput := false
            status := if row.status = .idle then .running else row.status
            agentTurnArmed := true }, true)
    | _, _ => refused

def armAgentTurn (s : SessionManagerState) (id : Uuid) : SessionManagerState :=
  s.editPublic id fun row => { row with agentTurnArmed := true }

def setAgentKind (s : SessionManagerState) (id : Uuid) (kind : Option CodingAgentKind) :
    SessionManagerState :=
  s.editPublic id fun row => { row with agentKind := kind }

/-- The columns `set_profile_metadata` replaces together. -/
structure ProfileMetadata where
  requestedProfile : Option String
  effectiveProfile : Option String
  profileFallbackChain : List String
  profileFallbackApplied : Bool
  matchTier : Option String
  originalProfileLetter : Option String
  effectiveCodexHome : Option String
  profileContentHash : Option String

def ProfileMetadata.apply (m : ProfileMetadata) (row : Session) : Session :=
  { row with
    requestedProfile := m.requestedProfile
    effectiveProfile := m.effectiveProfile
    profileFallbackChain := m.profileFallbackChain
    profileFallbackApplied := m.profileFallbackApplied
    matchTier := m.matchTier
    originalProfileLetter := m.originalProfileLetter
    effectiveCodexHome := m.effectiveCodexHome
    profileContentHash := m.profileContentHash }

def setProfileMetadata (s : SessionManagerState) (id : Uuid) (m : ProfileMetadata) :
    SessionManagerState := s.editPublic id m.apply

def renameSession (s : SessionManagerState) (id : Uuid) (name : String) : SessionManagerState :=
  s.editPublic id fun row => { row with name := name }

def setResolvedClaudeProjectsDir (s : SessionManagerState) (id : Uuid) (path : Option String) :
    SessionManagerState :=
  s.editPublic id fun row => { row with resolvedClaudeProjectsDir := path }

def setTelegramBotId (s : SessionManagerState) (id : Uuid) (botId : Option String) :
    SessionManagerState := s.editPublic id fun row => { row with telegramBotId := botId }

def setWasDetached (s : SessionManagerState) (id : Uuid) (detached : Bool) : SessionManagerState :=
  s.editPublic id fun row => { row with wasDetached := detached }

def setEffectiveShellArgs (s : SessionManagerState) (id : Uuid) (args : List String) :
    SessionManagerState := s.editPublic id fun row => { row with effectiveShellArgs := some args }

def setGitRepos (s : SessionManagerState) (id : Uuid) (repos : List SessionRepo) :
    SessionManagerState := s.editPublic id (·.withGitRepos repos)

def setGitReposIfGen (s : SessionManagerState) (id : Uuid) (repos : List SessionRepo)
    (expectedGen : ℕ) : SessionManagerState :=
  s.editPublic id fun row => if row.gitReposGen = expectedGen then row.withGitRepos repos else row

def setIsCoordinator (s : SessionManagerState) (id : Uuid) (isCoordinator : Bool) :
    SessionManagerState := s.editPublic id fun row => { row with isCoordinator := isCoordinator }

def setIsRootAgent (s : SessionManagerState) (id : Uuid) (value : Bool) : SessionManagerState :=
  s.editPublic id fun row => { row with isRootAgent := value }

/-- A change of every row that is not a pending create. -/
def editAllPublic (s : SessionManagerState) (f : Session → Session) : SessionManagerState :=
  s.write fun s => (s.sessions.keys.filter fun id => !s.isPending id).foldl
    (fun t id => t.editRow id f) s

/-- `coordinator` stands for `is_coordinator_for_cwd` over the current teams. -/
def refreshCoordinatorFlags (s : SessionManagerState) (coordinator : String → Bool) :
    SessionManagerState :=
  s.editAllPublic fun row => { row with isCoordinator := coordinator row.workingDirectory }

/-- The first public row of each name; which one is first is the map's business. -/
def refreshGitReposForSessions (s : SessionManagerState)
    (updates : List (String × List SessionRepo)) : SessionManagerState :=
  s.write fun s => updates.foldl (fun t update =>
    match t.sessions.entries.find? fun e => !t.isPending e.1 && e.2.name = update.1 with
    | some e => t.editRow e.1 fun row =>
        if row.gitRepos = update.2 then row else row.withGitRepos update.2
    | none => t) s

def setPendingAgentKind (s : SessionManagerState) (binding : PendingCreateBinding)
    (kind : Option CodingAgentKind) : SessionManagerState :=
  s.updatePending binding fun row => { row with agentKind := kind }

def setPendingTrustedConfiguredSpawn (s : SessionManagerState) (binding : PendingCreateBinding)
    (trusted : Bool) : SessionManagerState :=
  s.updatePending binding fun row => { row with trustedConfiguredSpawn := trusted }

def setPendingProfileMetadata (s : SessionManagerState) (binding : PendingCreateBinding)
    (m : ProfileMetadata) : SessionManagerState := s.updatePending binding m.apply

def setPendingResolvedClaudeProjectsDir (s : SessionManagerState)
    (binding : PendingCreateBinding) (path : Option String) : SessionManagerState :=
  s.updatePending binding fun row => { row with resolvedClaudeProjectsDir := path }

def setPendingEffectiveShellArgs (s : SessionManagerState) (binding : PendingCreateBinding)
    (args : List String) : SessionManagerState :=
  s.updatePending binding fun row => { row with effectiveShellArgs := some args }

def renamePendingSession (s : SessionManagerState) (binding : PendingCreateBinding)
    (name : String) : SessionManagerState :=
  s.updatePending binding fun row => { row with name := name }

def setPendingIsRootAgent (s : SessionManagerState) (binding : PendingCreateBinding)
    (value : Bool) : SessionManagerState :=
  s.updatePending binding fun row => { row with isRootAgent := value }

def setPendingStartFreshOnRestore (s : SessionManagerState) (binding : PendingCreateBinding)
    (value : Bool) : SessionManagerState :=
  s.updatePending binding fun row => { row with startFreshOnRestore := value }

def setPendingCommunication (s : SessionManagerState) (binding : PendingCreateBinding)
    (communication : SessionCommunication) : SessionManagerState :=
  s.updatePending binding fun row => { row with communication := some communication }

/-- What `apply_finalized_owned_replacement_carry` carries over to the row that replaces
another. -/
structure FinalizedOwnedCarry where
  boundOperation : Bool
  sessionId : Uuid
  token : Uuid
  expectedVersion : ℕ
  telegramBotId : Option String
  communication : Option SessionCommunication
  startFreshOnRestore : Bool

def applyFinalizedOwnedReplacementCarry (s : SessionManagerState) (c : FinalizedOwnedCarry) :
    SessionManagerState × Bool :=
  if !c.boundOperation || c.expectedVersion = u64Max then (s, false)
  else if s.isPending c.sessionId || s.carrierVersions.lookup c.sessionId ≠ some c.expectedVersion ||
      !(s.sessions.lookup c.sessionId).any (·.token = c.token) then (s.touch, false)
  else
    (s.write fun s => s.editRow c.sessionId fun row =>
      { row with
        telegramBotId := c.telegramBotId
        communication := c.communication
        startFreshOnRestore := c.startFreshOnRestore }, true)

/-- What a raise answers, and what its rollback presents. -/
structure RaiseMutationReceipt where
  uuid : Uuid
  nonce : Uuid
  version : ℕ

/-- The receipt is written under a second write lock; under the carrier permit no mutation of
a row comes between. -/
def raiseHand (s : SessionManagerState) (id : Uuid) (updatedAt : String) (nonce : Uuid) :
    SessionManagerState × Option RaiseMutationReceipt :=
  if s.isPending id then (s.touch, none)
  else
    match s.sessions.lookup id with
    | none => (s.touch, none)
    | some row =>
      if !row.isCoordinator || row.status.isExited || row.raisesHand then (s.touch, none)
      else
        let s := s.write fun s => s.editRow id fun row =>
          { row with communication := some ⟨.raiseHand, true, updatedAt, none⟩ }
        ({ s with raiseNonces := s.raiseNonces.insert id nonce }, some ⟨id, nonce, s.version id⟩)

def rollbackRaise (s : SessionManagerState) (receipt : RaiseMutationReceipt) :
    SessionManagerState × Bool :=
  if (s.sessions.lookup receipt.uuid).any (·.raisesHand) &&
      s.raiseNonces.lookup receipt.uuid = some receipt.nonce &&
      s.carrierVersions.lookup receipt.uuid = some receipt.version then
    (s.write fun s =>
      { s.editRow receipt.uuid fun row => { row with communication := none } with
        raiseNonces := s.raiseNonces.erase receipt.uuid }, true)
  else (s.touch, false)

def clearCommunicationIfKind (s : SessionManagerState) (id : Uuid)
    (kind : SessionCommunicationKind) : SessionManagerState :=
  s.editPublic id fun row =>
    if row.communication.any fun c => c.kind = kind && c.visible then
      { row with communication := none }
    else row

/-- The slot a message for the user goes to, as `set_blocked_menu` and `set_co_managed` fill it:
an exited row keeps what it has, and the same visible message is not set again. -/
def setMessage (s : SessionManagerState) (kind : SessionCommunicationKind) (id : Uuid)
    (message updatedAt : String) : SessionManagerState :=
  s.editPublic id fun row =>
    if row.status.isExited ||
        row.communication.any fun c => c.kind = kind && c.visible && c.message = some message then row
    else { row with communication := some ⟨kind, true, updatedAt, some message⟩ }

def setBlockedMenu (s : SessionManagerState) : Uuid → String → String → SessionManagerState :=
  s.setMessage .blockedMenu

def setCoManaged (s : SessionManagerState) : Uuid → String → String → SessionManagerState :=
  s.setMessage .coManaged

def restoreCommunication (s : SessionManagerState) (id : Uuid)
    (communication : SessionCommunication) : SessionManagerState :=
  if communication.kind ≠ .raiseHand || !communication.visible then s
  else s.editPublic id fun row =>
    if row.isCoordinator then { row with communication := some communication } else row

def setStartFreshOnRestore (s : SessionManagerState) (id : Uuid) (value : Bool) :
    SessionManagerState := s.editPublic id fun row => { row with startFreshOnRestore := value }

def clearUserInputTransitions (s : SessionManagerState) (id : Uuid) (clearFresh : Bool) :
    SessionManagerState :=
  s.editPublic id fun row =>
    { row with
      startFreshOnRestore := if clearFresh then false else row.startFreshOnRestore
      communication := if row.raisesHand then none else row.communication }

def installRetainedPrompts (s : SessionManagerState)
    (entries : Option (AList fun _ : PromptKey => RetainedPrompt)) : SessionManagerState :=
  { s with
    promptsWritable := entries.isSome
    promptsReusable := entries.isSome
    retainedPrompts := entries.getD ∅ }

def disablePromptReuse (s : SessionManagerState) : SessionManagerState :=
  { s with promptsReusable := false }

def forgetRetainedPrompt (s : SessionManagerState) (key : PromptKey) : SessionManagerState :=
  { s with retainedPrompts := s.retainedPrompts.erase key }

def blockRetainedPromptDomains (s : SessionManagerState) (keys : List PromptKey) :
    SessionManagerState :=
  { s with retainedPrompts := keys.foldl (fun m key => m.insert key ⟨none, true⟩) s.retainedPrompts }

def setLastPrompt (s : SessionManagerState) (id : Uuid) (prompt : String) : SessionManagerState :=
  s.write fun s =>
    if s.isPending id || (s.sessions.lookup id).isNone then s
    else
      let s := s.editRow id fun row => { row with lastPrompt := some prompt }
      let s := { s with promptSeedBlocked := s.promptSeedBlocked.erase id }
      match s.promptKeys.lookup id with
      | none => s
      | some key =>
        let entry := (s.retainedPrompts.lookup key).getD .default
        let entry := if s.promptDomainExclusive key (some id) && !entry.blocked then
          { entry with lastPrompt := some prompt } else ⟨none, true⟩
        { s with retainedPrompts := s.retainedPrompts.insert key entry }

def initializePendingPrompt (s : SessionManagerState) (binding : PendingCreateBinding)
    (key : Option PromptKey) (initial : Option String) (continuation fresh allowRetainedLookup : Bool) :
    SessionManagerState × Except ManagerError Unit :=
  if !s.bindingMatches binding then (s.touch, .error .pendingPromptMismatch)
  else
    match s.sessions.lookup binding.sessionId with
    | none => (s.touch, .error .pendingPromptRowMissing)
    | some row =>
      (s.write fun s =>
        let s := s.editRow binding.sessionId fun row =>
          { row with lastPrompt := if continuation && !fresh then initial else none }
        match key.filter (·.matches row) with
        | none => s
        | some key =>
          let pending : PendingPrompt := ⟨key, continuation, fresh, allowRetainedLookup⟩
          { s with pendingPrompts := s.pendingPrompts.insert binding.sessionId pending }, .ok ())

def seedIfAbsent (s : SessionManagerState) (id : Uuid) (key : PromptKey) (prompt : String) :
    SessionManagerState × Bool :=
  if s.isPending id || id ∈ s.promptSeedBlocked || !s.promptDomainExclusive key (some id) ||
      (s.retainedPrompts.lookup key).any (·.blocked) ||
      !(s.sessions.lookup id).any fun row =>
        key.matches row && !row.startFreshOnRestore && row.lastPrompt.isNone then (s.touch, false)
  else
    (s.write fun s =>
      { s.editRow id fun row => { row with lastPrompt := some prompt } with
        promptKeys := s.promptKeys.insert id key
        retainedPrompts := s.retainedPrompts.insert key ⟨some prompt, false⟩ }, true)

/-- `validId` and `validSeed` are the checks of the UUID text and of the seed's two texts. -/
def installPendingCodingAgentBinding (s : SessionManagerState) (pending : PendingCreateBinding)
    (binding : Option CodingAgentBinding) (validId validSeed : String → Bool) :
    SessionManagerState × Except ManagerError Unit :=
  if !s.bindingMatches pending then (s.touch, .error .codingAgentBindingMismatch)
  else
    match binding with
    | none => (s.touch, .ok ())
    | some b =>
      if !validId b.id then (s.touch, .error .codingAgentBindingInvalid)
      else if !b.seed.all validSeed then (s.touch, .error .codingAgentBindingSeedInvalid)
      else if (s.bindingSeeds.lookup b.id).any fun before => b.seed.any (· ≠ before) then
        (s.touch, .error .codingAgentBindingSeedConflict)
      else
        (s.write fun s =>
          { s with
            bindingSeeds := b.seed.elim s.bindingSeeds (s.bindingSeeds.insert b.id)
            bindingOrigins := b.origin.elim s.bindingOrigins (s.bindingOrigins.insert b.id)
            codingAgentBindings := s.codingAgentBindings.insert pending.sessionId b.id }, .ok ())

def refreshFailedBindingRecipes (s : SessionManagerState)
    (recipes : List (CodingAgentBinding × String)) : SessionManagerState :=
  s.write fun s => recipes.foldl (fun s r =>
    { s with
      bindingSeeds := match r.1.seed, s.bindingSeeds.lookup r.1.id with
        | some seed, none => s.bindingSeeds.insert r.1.id seed
        | _, _ => s.bindingSeeds
      bindingOrigins := r.1.origin.elim s.bindingOrigins (s.bindingOrigins.insert r.1.id)
      failedBindingRecipes := Assoc.adjust s.failedBindingRecipes r.1.id fun _ => r.2 }) s

end SessionManagerState
end AgentsCommander.Sessions
