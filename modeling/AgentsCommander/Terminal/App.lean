import AgentsCommander.Sessions.Session
import AgentsCommander.Terminal.TaskHeader
import AgentsCommander.Foundation.Machine

/-! A central terminal window: the store of which selection is applied and which live session is
bound to it, and what the window does with selections, hydrations and its connection. -/
namespace AgentsCommander.Terminal
open Foundation Sessions

inductive TerminalBindingState where
  | pending
  | bound
  | unavailable
  deriving DecidableEq, Repr

/-- A row of the session list. -/
structure ListedSession where
  id : Uuid
  name : String
  shell : String
  effectiveShellArgs : Option (List String)
  workingDirectory : String
  status : SessionStatus
  workgroupTask : Option String
  isRootAgent : Bool

/-- Epochs are UUID texts and revisions safe integers in every payload that was decoded; before
the first one there is no epoch, and the revision is -1. -/
structure TerminalStore where
  selectionId : Option Uuid
  selectionMode : SelectionMode
  selectionEpoch : Option Uuid
  appliedRevision : ℤ
  retiredEpochs : Finset Uuid
  connectionGeneration : ℤ
  transportConnected : Bool
  awaitingHydrationGeneration : Option ℤ
  bindingState : TerminalBindingState
  activeSessionId : Option Uuid
  activeSessionName : String
  activeShell : String
  activeShellArgs : Option (List String)
  activeIsRootAgent : Bool
  header : TaskHeader

def TerminalStore.initial : TerminalStore where
  selectionId := none
  selectionMode := .none
  selectionEpoch := none
  appliedRevision := -1
  retiredEpochs := ∅
  connectionGeneration := -1
  transportConnected := false
  awaitingHydrationGeneration := none
  bindingState := .unavailable
  activeSessionId := none
  activeSessionName := ""
  activeShell := ""
  activeShellArgs := none
  activeIsRootAgent := false
  header := .initial

namespace TerminalStore

def clearLiveMetadata (s : TerminalStore) : TerminalStore :=
  { s with
    activeSessionId := none
    activeSessionName := ""
    activeShell := ""
    activeShellArgs := none
    activeIsRootAgent := false
    header := s.header.clear }

def matchesCurrentSelection (s : TerminalStore) (selection : SessionSelection) (generation : ℤ) :
    Bool :=
  s.connectionGeneration = generation && s.transportConnected &&
    s.selectionEpoch = some selection.epoch && s.appliedRevision = selection.revision &&
    s.selectionId = selection.id && s.selectionMode = selection.mode

def observeConnection (s : TerminalStore) (connected : Bool) (generation : ℤ) :
    TerminalStore × Bool :=
  if generation < s.connectionGeneration then (s, false)
  else
    let generationChanged : Bool := generation ≠ s.connectionGeneration
    let changed := generationChanged || connected ≠ s.transportConnected
    let s := { s with connectionGeneration := generation, transportConnected := connected }
    if !connected || generationChanged then
      ({ { s with awaitingHydrationGeneration := none }.clearLiveMetadata with
        bindingState := .unavailable }, changed)
    else (s, changed)

def beginHydration (s : TerminalStore) (generation : ℤ) : TerminalStore × Bool :=
  if generation ≠ s.connectionGeneration || !s.transportConnected then (s, false)
  else ({ s with awaitingHydrationGeneration := some generation }, true)

def cancelHydration (s : TerminalStore) (generation : Option ℤ) : TerminalStore :=
  if generation.all (s.awaitingHydrationGeneration = some ·) then
    { s with awaitingHydrationGeneration := none }
  else s

/-- An older payload of the current epoch, one that repeats its revision unasked, or one of an
epoch that is over. -/
def refuses (s : TerminalStore) (selection : SessionSelection) (generation : ℤ)
    (allowEqualReconnect : Bool) : Bool :=
  if s.selectionEpoch = some selection.epoch then
    selection.revision < s.appliedRevision || selection.revision = s.appliedRevision &&
      (!allowEqualReconnect || s.awaitingHydrationGeneration ≠ some generation)
  else selection.epoch ∈ s.retiredEpochs

/-- The epochs that are over once a payload is applied. -/
def retire (s : TerminalStore) (selection : SessionSelection) : Finset Uuid :=
  if s.selectionEpoch = some selection.epoch then s.retiredEpochs
  else s.selectionEpoch.elim s.retiredEpochs fun epoch => insert epoch s.retiredEpochs

def reserveSelection (s : TerminalStore) (selection : SessionSelection) (generation : ℤ)
    (allowEqualReconnect : Bool) : TerminalStore × Bool :=
  if generation ≠ s.connectionGeneration || !s.transportConnected ||
      s.refuses selection generation allowEqualReconnect then (s, false)
  else
    let s := { s with
      retiredEpochs := s.retire selection
      selectionEpoch := some selection.epoch
      appliedRevision := selection.revision
      selectionId := selection.id
      selectionMode := selection.mode
      awaitingHydrationGeneration := none }
    ({ s.clearLiveMetadata with
      bindingState := if selection.mode = .live then .pending else .unavailable }, true)

variable (toLowerCase : String → String)

def bindLive (s : TerminalStore) (selection : SessionSelection) (generation : ℤ)
    (session : ListedSession) (expectedTaskSeq : ℕ) : TerminalStore × Bool :=
  if selection.mode ≠ .live || some session.id ≠ selection.id || session.status.isExited ||
      !s.matchesCurrentSelection selection generation then (s, false)
  else
    ({ s with
      activeSessionId := some session.id
      activeSessionName := session.name
      activeShell := session.shell
      activeShellArgs := session.effectiveShellArgs
      activeIsRootAgent := session.isRootAgent
      bindingState := .bound
      header := s.header.bind toLowerCase session.workingDirectory session.workgroupTask
        expectedTaskSeq }, true)

def suspendLiveBinding (s : TerminalStore) : TerminalStore :=
  { s.clearLiveMetadata with bindingState := .unavailable }

def markUnavailable (s : TerminalStore) (selection : SessionSelection) (generation : ℤ) :
    TerminalStore :=
  if s.matchesCurrentSelection selection generation then s.suspendLiveBinding else s

def safetySuspendDestroyed (s : TerminalStore) (id : Uuid) : TerminalStore × Bool :=
  if s.activeSessionId ≠ some id then (s, false)
  else
    ({ s.clearLiveMetadata with
      bindingState := if s.selectionMode = .live && s.selectionId = some id then .pending
        else .unavailable }, true)

def renameBoundSession (s : TerminalStore) (id : Uuid) (name : String) : TerminalStore :=
  if s.activeSessionId = some id then { s with activeSessionName := name } else s

/-- An operation on the task header. -/
def onHeader (s : TerminalStore) (f : TaskHeader → TaskHeader) : TerminalStore :=
  { s with header := f s.header }

end TerminalStore

/-- The store outlives the mounts of the window's app. -/
structure TerminalApp where
  store : TerminalStore
  disposed : Bool
  observedConnected : Bool
  observedGeneration : ℤ
  hydrationInFlightGeneration : Option ℤ
  retryTimer : Option ℤ
  retryAttempt : ℕ

def TerminalApp.initial : TerminalApp where
  store := .initial
  disposed := false
  observedConnected := false
  observedGeneration := -1
  hydrationInFlightGeneration := none
  retryTimer := none
  retryAttempt := 0

/-- What reaches the window, in any order and any number of times. The answers of a hydration
and of a session list carry what their request was made with. -/
inductive AppEvent where
  | mounted
  | cleanedUp
  | sessionSwitched (selection : SessionSelection) (deliveryGeneration : ℤ)
  | connectionState (connected : Bool) (generation : ℤ)
  | hydrationAnswered (generation : ℤ) (selection : SessionSelection)
  | hydrationFailed (generation : ℤ) (busy : Bool)
  | hydrationSettled (generation : ℤ)
  | retryFired
  | sessionsListed (selection : SessionSelection) (generation : ℤ) (expectedTaskSeq : ℕ)
      (sessions : List ListedSession)
  | listFailed (selection : SessionSelection) (generation : ℤ)
  | sessionDestroyed (id : Uuid)
  | sessionRenamed (id : Uuid) (name : String)
  | taskReadBegan
  | taskRead (snapshot : TaskSnapshot) (generation expectedTaskSeq : ℕ)
  | taskReadFailed (generation : ℕ)
  | taskMutationBegan (workgroupRoot : String)
  | taskMutationFinished (workgroupRoot : String) (committedClean : Bool)
  | taskInvalidated (workgroupRoot : Option String)
  | taskApplied (workgroupRoot : String) (task : Option String)
  | taskSet (task : Option String)

/-- The selection that an event had applied, or the session it had bound. -/
inductive AppReply where
  | nothing
  | applied (selection : SessionSelection)
  | bound (selection : SessionSelection) (session : ListedSession)

namespace TerminalApp

def mount (a : TerminalApp) : TerminalApp := { TerminalApp.initial with store := a.store }

def cancelRetry (a : TerminalApp) : TerminalApp := { a with retryTimer := none }

/-- `reconcileSelection`, up to the session list a live selection waits for. -/
def reconcileSelection (a : TerminalApp) (selection : SessionSelection) (generation : ℤ)
    (allowEqualReconnect : Bool) : TerminalApp × AppReply :=
  if a.disposed then (a, .nothing)
  else
    let (store, accepted) := a.store.reserveSelection selection generation allowEqualReconnect
    if accepted then
      ({ a.cancelRetry with store := store, retryAttempt := 0 }, .applied selection)
    else (a, .nothing)

/-- The rest of `reconcileSelection`. -/
def resolveLive (toLowerCase : String → String) (a : TerminalApp) (selection : SessionSelection)
    (generation : ℤ) (expectedTaskSeq : ℕ) (sessions : List ListedSession) :
    TerminalApp × AppReply :=
  if a.disposed || !a.store.matchesCurrentSelection selection generation then (a, .nothing)
  else
    match sessions.find? (some ·.id = selection.id) with
    | none => ({ a with store := a.store.markUnavailable selection generation }, .nothing)
    | some session =>
      if session.status.isExited then
        ({ a with store := a.store.markUnavailable selection generation }, .nothing)
      else
        let (store, bound) :=
          a.store.bindLive toLowerCase selection generation session expectedTaskSeq
        ({ a with store := store }, if bound then .bound selection session else .nothing)

def liveUnresolved (a : TerminalApp) (selection : SessionSelection) (generation : ℤ) :
    TerminalApp :=
  if !a.disposed && a.store.matchesCurrentSelection selection generation then
    { a with store := a.store.markUnavailable selection generation }
  else a

def requestHydration (a : TerminalApp) (generation : ℤ) : TerminalApp :=
  if a.disposed || !a.observedConnected || a.observedGeneration ≠ generation ||
      a.hydrationInFlightGeneration = some generation then a
  else
    let (store, begun) := a.store.beginHydration generation
    if begun then { a with store := store, hydrationInFlightGeneration := some generation } else a

/-- Whether an answer is for the hydration that is awaited now. -/
def awaits (a : TerminalApp) (generation : ℤ) : Bool :=
  !a.disposed && a.observedConnected && a.observedGeneration = generation &&
    a.store.awaitingHydrationGeneration = some generation

def scheduleHydrationRetry (a : TerminalApp) (generation : ℤ) : TerminalApp :=
  if a.disposed || a.retryTimer.isSome || !a.observedConnected ||
      a.observedGeneration ≠ generation ||
      a.store.awaitingHydrationGeneration ≠ some generation then a
  else { a with retryTimer := some generation, retryAttempt := a.retryAttempt + 1 }

def hydrationAnswered (a : TerminalApp) (generation : ℤ) (selection : SessionSelection) :
    TerminalApp × AppReply :=
  if a.awaits generation then a.reconcileSelection selection generation true else (a, .nothing)

def hydrationFailed (a : TerminalApp) (generation : ℤ) (busy : Bool) : TerminalApp :=
  if !a.awaits generation then a
  else if busy then a.scheduleHydrationRetry generation
  else { a with store := (a.store.cancelHydration (some generation)).suspendLiveBinding }

/-- The `finally` of a hydration. -/
def hydrationSettled (a : TerminalApp) (generation : ℤ) : TerminalApp :=
  if a.hydrationInFlightGeneration = some generation then
    { a with hydrationInFlightGeneration := none }
  else a

def applyConnectionState (a : TerminalApp) (connected : Bool) (generation : ℤ) : TerminalApp :=
  if a.disposed || generation < a.observedGeneration ||
      (generation = a.observedGeneration && connected = a.observedConnected) then a
  else
    let a := { a with
      observedConnected := connected
      observedGeneration := generation
      store := (a.store.observeConnection connected generation).1
      retryTimer := none
      retryAttempt := 0 }
    if connected then a.requestHydration generation else a

def onStore (a : TerminalApp) (f : TerminalStore → TerminalStore) : TerminalApp × AppReply :=
  ({ a with store := f a.store }, .nothing)

def step (toLowerCase : String → String) (a : TerminalApp) : AppEvent → TerminalApp × AppReply
  | .mounted => (a.mount, .nothing)
  | .cleanedUp =>
    ({ a.cancelRetry with disposed := true, store := a.store.cancelHydration none }, .nothing)
  | .sessionSwitched selection deliveryGeneration =>
    a.reconcileSelection selection deliveryGeneration false
  | .connectionState connected generation => (a.applyConnectionState connected generation, .nothing)
  | .hydrationAnswered generation selection => a.hydrationAnswered generation selection
  | .hydrationFailed generation busy => (a.hydrationFailed generation busy, .nothing)
  | .hydrationSettled generation => (a.hydrationSettled generation, .nothing)
  | .retryFired =>
    match a.retryTimer with
    | some generation => (a.cancelRetry.requestHydration generation, .nothing)
    | none => (a, .nothing)
  | .sessionsListed selection generation expectedTaskSeq sessions =>
    a.resolveLive toLowerCase selection generation expectedTaskSeq sessions
  | .listFailed selection generation => (a.liveUnresolved selection generation, .nothing)
  | .sessionDestroyed id => a.onStore fun s => (s.safetySuspendDestroyed id).1
  | .sessionRenamed id name => a.onStore (·.renameBoundSession id name)
  | .taskReadBegan => a.onStore (·.onHeader (·.beginTaskRead))
  | .taskRead snapshot generation expectedTaskSeq => a.onStore (·.onHeader fun h =>
      let (accepted, ok) := h.acceptTaskSnapshot toLowerCase snapshot generation expectedTaskSeq
      if ok then accepted else h.failTaskRead generation)
  | .taskReadFailed generation => a.onStore (·.onHeader (·.failTaskRead generation))
  | .taskMutationBegan workgroupRoot =>
    a.onStore (·.onHeader (·.beginTaskMutation toLowerCase workgroupRoot))
  | .taskMutationFinished workgroupRoot committedClean =>
    a.onStore (·.onHeader (·.finishTaskMutation toLowerCase workgroupRoot committedClean))
  | .taskInvalidated workgroupRoot =>
    a.onStore (·.onHeader (·.invalidateTask toLowerCase workgroupRoot))
  | .taskApplied workgroupRoot task =>
    a.onStore (·.onHeader (·.applyLocalTask toLowerCase workgroupRoot task))
  | .taskSet task => a.onStore (·.onHeader (·.setActiveWorkgroupTask task))

end TerminalApp

def terminalWindow (toLowerCase : String → String) : Machine TerminalApp AppEvent AppReply :=
  ⟨TerminalApp.step toLowerCase⟩

end AgentsCommander.Terminal
