import AgentsCommander.Foundation.Machine
import AgentsCommander.Sessions.Commit

/-! The session manager as one machine: each operation holds the write lock to its end. -/
namespace AgentsCommander.Sessions
open Foundation

inductive ManagerOp where
  | createPendingSession (binding : PendingCreateBinding) (request : NewSession) (token : Uuid)
      (createdAt : ℤ)
  | restorePendingRecord (persisted : Session) (binding : PendingCreateBinding) (token : Uuid)
      (createdAt : ℤ)
  | rollbackPendingCreate (binding : PendingCreateBinding)
  | markIdle (id : Uuid)
  | markBusy (id : Uuid)
  | preparePtyInputBoundary (id : Uuid) (expectedBackend : SessionBackendKind) (authorityId : Uuid)
      (authorityBackend : SessionBackendKind) (verified : Session → Session → Bool)
  | armAgentTurn (id : Uuid)
  | commitSelectionTransition (decision : CommitDecision) (cause : SelectionCause)
      (mutations : LifecycleMutations)
  | removeExitedSessions (ids : List Uuid) (classify : Session → ℕ → CarrierDisposition)
  | setAgentKind (id : Uuid) (kind : Option CodingAgentKind)
  | setProfileMetadata (id : Uuid) (m : SessionManagerState.ProfileMetadata)
  | renameSession (id : Uuid) (name : String)
  | setResolvedClaudeProjectsDir (id : Uuid) (path : Option String)
  | setTelegramBotId (id : Uuid) (botId : Option String)
  | setWasDetached (id : Uuid) (detached : Bool)
  | setEffectiveShellArgs (id : Uuid) (args : List String)
  | setGitRepos (id : Uuid) (repos : List SessionRepo)
  | setGitReposIfGen (id : Uuid) (repos : List SessionRepo) (expectedGen : ℕ)
  | setIsCoordinator (id : Uuid) (isCoordinator : Bool)
  | setIsRootAgent (id : Uuid) (value : Bool)
  | refreshCoordinatorFlags (coordinator : String → Bool)
  | refreshGitReposForSessions (updates : List (String × List SessionRepo))
  | setPendingAgentKind (binding : PendingCreateBinding) (kind : Option CodingAgentKind)
  | setPendingTrustedConfiguredSpawn (binding : PendingCreateBinding) (trusted : Bool)
  | setPendingProfileMetadata (binding : PendingCreateBinding)
      (m : SessionManagerState.ProfileMetadata)
  | setPendingResolvedClaudeProjectsDir (binding : PendingCreateBinding) (path : Option String)
  | setPendingEffectiveShellArgs (binding : PendingCreateBinding) (args : List String)
  | renamePendingSession (binding : PendingCreateBinding) (name : String)
  | setPendingIsRootAgent (binding : PendingCreateBinding) (value : Bool)
  | setPendingStartFreshOnRestore (binding : PendingCreateBinding) (value : Bool)
  | setPendingCommunication (binding : PendingCreateBinding) (communication : SessionCommunication)
  | applyFinalizedOwnedReplacementCarry (carry : SessionManagerState.FinalizedOwnedCarry)
  | raiseHand (id : Uuid) (updatedAt : String) (nonce : Uuid)
  | rollbackRaise (receipt : SessionManagerState.RaiseMutationReceipt)
  | clearCommunicationIfKind (id : Uuid) (kind : SessionCommunicationKind)
  | setBlockedMenu (id : Uuid) (message updatedAt : String)
  | setCoManaged (id : Uuid) (message updatedAt : String)
  | restoreCommunication (id : Uuid) (communication : SessionCommunication)
  | setStartFreshOnRestore (id : Uuid) (value : Bool)
  | clearUserInputTransitions (id : Uuid) (clearFresh : Bool)
  | setLastPrompt (id : Uuid) (prompt : String)
  | installRetainedPrompts (entries : Option (AList fun _ : PromptKey => RetainedPrompt))
  | disablePromptReuse
  | forgetRetainedPrompt (key : PromptKey)
  | blockRetainedPromptDomains (keys : List PromptKey)
  | initializePendingPrompt (binding : PendingCreateBinding) (key : Option PromptKey)
      (initial : Option String) (continuation fresh allowRetainedLookup : Bool)
  | seedIfAbsent (id : Uuid) (key : PromptKey) (prompt : String)
  | installPendingCodingAgentBinding (pending : PendingCreateBinding)
      (binding : Option CodingAgentBinding) (validId validSeed : String → Bool)
  | refreshFailedBindingRecipes (recipes : List (CodingAgentBinding × String))

inductive ManagerReply where
  | done
  | changed (changed : Bool)
  | outcome (result : Except ManagerError Unit)
  | committed (result : Except CommitError CommitResult)
  | removed (n : ℕ)
  | raised (receipt : Option SessionManagerState.RaiseMutationReceipt)

namespace SessionManagerState

def step (s : SessionManagerState) : ManagerOp → SessionManagerState × ManagerReply
  | .createPendingSession binding request token createdAt =>
    (s.createPendingSession binding request token createdAt).map id .outcome
  | .restorePendingRecord persisted binding token createdAt =>
    (s.restorePendingRecord persisted binding token createdAt).map id .outcome
  | .rollbackPendingCreate binding => (s.rollbackPendingCreate binding).map id .outcome
  | .markIdle id => (s.markIdle id, .done)
  | .markBusy id => (s.markBusy id, .done)
  | .preparePtyInputBoundary sessionId expectedBackend authorityId authorityBackend verified =>
    (s.preparePtyInputBoundary sessionId expectedBackend authorityId authorityBackend verified).map
      id .changed
  | .armAgentTurn id => (s.armAgentTurn id, .done)
  | .commitSelectionTransition decision cause mutations =>
    (s.commitSelectionTransition decision cause mutations).map id .committed
  | .removeExitedSessions ids classify => (s.removeExitedSessions ids classify).map id .removed
  | .setAgentKind id kind => (s.setAgentKind id kind, .done)
  | .setProfileMetadata id m => (s.setProfileMetadata id m, .done)
  | .renameSession id name => (s.renameSession id name, .done)
  | .setResolvedClaudeProjectsDir id path => (s.setResolvedClaudeProjectsDir id path, .done)
  | .setTelegramBotId id botId => (s.setTelegramBotId id botId, .done)
  | .setWasDetached id detached => (s.setWasDetached id detached, .done)
  | .setEffectiveShellArgs id args => (s.setEffectiveShellArgs id args, .done)
  | .setGitRepos id repos => (s.setGitRepos id repos, .done)
  | .setGitReposIfGen id repos expectedGen => (s.setGitReposIfGen id repos expectedGen, .done)
  | .setIsCoordinator id isCoordinator => (s.setIsCoordinator id isCoordinator, .done)
  | .setIsRootAgent id value => (s.setIsRootAgent id value, .done)
  | .refreshCoordinatorFlags coordinator => (s.refreshCoordinatorFlags coordinator, .done)
  | .refreshGitReposForSessions updates => (s.refreshGitReposForSessions updates, .done)
  | .setPendingAgentKind binding kind => (s.setPendingAgentKind binding kind, .done)
  | .setPendingTrustedConfiguredSpawn binding trusted =>
    (s.setPendingTrustedConfiguredSpawn binding trusted, .done)
  | .setPendingProfileMetadata binding m => (s.setPendingProfileMetadata binding m, .done)
  | .setPendingResolvedClaudeProjectsDir binding path =>
    (s.setPendingResolvedClaudeProjectsDir binding path, .done)
  | .setPendingEffectiveShellArgs binding args => (s.setPendingEffectiveShellArgs binding args, .done)
  | .renamePendingSession binding name => (s.renamePendingSession binding name, .done)
  | .setPendingIsRootAgent binding value => (s.setPendingIsRootAgent binding value, .done)
  | .setPendingStartFreshOnRestore binding value =>
    (s.setPendingStartFreshOnRestore binding value, .done)
  | .setPendingCommunication binding communication =>
    (s.setPendingCommunication binding communication, .done)
  | .applyFinalizedOwnedReplacementCarry carry =>
    (s.applyFinalizedOwnedReplacementCarry carry).map id .changed
  | .raiseHand sessionId updatedAt nonce => (s.raiseHand sessionId updatedAt nonce).map id .raised
  | .rollbackRaise receipt => (s.rollbackRaise receipt).map id .changed
  | .clearCommunicationIfKind id kind => (s.clearCommunicationIfKind id kind, .done)
  | .setBlockedMenu id message updatedAt => (s.setBlockedMenu id message updatedAt, .done)
  | .setCoManaged id message updatedAt => (s.setCoManaged id message updatedAt, .done)
  | .restoreCommunication id communication => (s.restoreCommunication id communication, .done)
  | .setStartFreshOnRestore id value => (s.setStartFreshOnRestore id value, .done)
  | .clearUserInputTransitions id clearFresh => (s.clearUserInputTransitions id clearFresh, .done)
  | .setLastPrompt id prompt => (s.setLastPrompt id prompt, .done)
  | .installRetainedPrompts entries => (s.installRetainedPrompts entries, .done)
  | .disablePromptReuse => (s.disablePromptReuse, .done)
  | .forgetRetainedPrompt key => (s.forgetRetainedPrompt key, .done)
  | .blockRetainedPromptDomains keys => (s.blockRetainedPromptDomains keys, .done)
  | .initializePendingPrompt binding key initial continuation fresh allowRetainedLookup =>
    (s.initializePendingPrompt binding key initial continuation fresh allowRetainedLookup).map id
      .outcome
  | .seedIfAbsent sessionId key prompt => (s.seedIfAbsent sessionId key prompt).map id .changed
  | .installPendingCodingAgentBinding pending binding validId validSeed =>
    (s.installPendingCodingAgentBinding pending binding validId validSeed).map id .outcome
  | .refreshFailedBindingRecipes recipes => (s.refreshFailedBindingRecipes recipes, .done)

end SessionManagerState

def sessionManager : Machine SessionManagerState ManagerOp ManagerReply :=
  ⟨SessionManagerState.step⟩

end AgentsCommander.Sessions
