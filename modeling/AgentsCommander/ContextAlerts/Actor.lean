import AgentsCommander.ContextAlerts.State
import AgentsCommander.Foundation.Machine

/-! The context-alert actor: samples, policy changes, deliveries and maintenance. -/
namespace AgentsCommander.ContextAlerts
open Foundation

def errMenuGuardDeferred : String := "menu_guard_deferred"
def errTypingHoldDeferred : String := "typing_hold_deferred"
def responseClosingDeferred : String := "response_close_deferred"

def isMenuGuardDeferredError (e : String) : Bool := errMenuGuardDeferred.toList.isPrefixOf e.toList

def isTypingHoldDeferredError (e : String) : Bool :=
  errTypingHoldDeferred.toList.isPrefixOf e.toList

def isResponseClosingDeferred (error : String) : Bool :=
  error = responseClosingDeferred || error = "PTY error: response_close_deferred" ||
    error = "PTY write failed: PTY error: response_close_deferred"

def isDeferredInternalDeliveryError (error : String) : Bool :=
  isMenuGuardDeferredError error || isTypingHoldDeferredError error ||
    isResponseClosingDeferred error

structure AttemptSnapshot where
  generation : ℕ
  sessionId : Uuid
  fingerprint : MemberIdentityFingerprint
  observed : ℕ
  thresholds : List ℕ
  failureCount : ℕ

def AlertBatch.snapshot (batch : AlertBatch) : AttemptSnapshot where
  generation := batch.generation
  sessionId := batch.sessionId
  fingerprint := batch.fingerprint
  observed := batch.observed
  thresholds := batch.thresholds
  failureCount := batch.failureCount

structure ReadyAttempt where
  snapshot : AttemptSnapshot
  currentPolicy : ResolvedPolicy
  /-- The thresholds of the notice. -/
  thresholds : List ℕ

inductive AttemptPreparation where
  | ready (attempt : ReadyAttempt)
  | cancel (reason : String) (currentPolicy : Option ResolvedPolicy)
  | paused (fingerprint : MemberIdentityFingerprint) (cls message : String)
  | retryableFailure (message : String)

/-- `route`: whether the orchestrator can be reached now. -/
def prepareAttempt (snapshot : AttemptSnapshot) (resolution : MemberPolicyResolution)
    (route : Except String Unit) : AttemptPreparation :=
  match resolution with
  | .disabled fingerprint =>
    .cancel "context alert policy is disabled" (some ⟨fingerprint, [], .nil⟩)
  | .permanentIneligible reason => .cancel reason none
  | .paused fingerprint cls message => .paused fingerprint cls message
  | .retryableFailure message => .retryableFailure message
  | .eligible policy =>
    if policy.fingerprint ≠ snapshot.fingerprint then
      .cancel "sampled member identity changed before delivery" none
    else
      let thresholds := snapshot.thresholds.filter fun threshold => threshold ∈ policy.thresholds
      if thresholds = [] then
        .cancel "all pending context alert thresholds were removed" (some policy)
      else match route with
        | .error message => .retryableFailure message
        | .ok () => .ready ⟨snapshot, policy, thresholds⟩

/-- What is left of a batch whose delivery was cancelled. -/
structure Replacement where
  observed : ℕ
  thresholds : List ℕ
  failureCount : ℕ

namespace Actor
variable (a : Actor)

/-- One round of the loop over the batches that hold a removed threshold. -/
def cutBatch (sessionId : Uuid) (removed : List ℕ) (acc : Actor × List Replacement)
    (generation : ℕ) : Actor × List Replacement :=
  let (a, replacements) := acc
  match a.batches.lookup generation with
  | none => (a, replacements)
  | some batch =>
    let kept := batch.thresholds.filter fun threshold => threshold ∉ removed
    let released := { a with
      batches := a.batches.erase generation
      sessions := Assoc.adjust a.sessions sessionId
        fun session => session.release batch.thresholds generation }
    if a.inFlight.any fun slot => slot.generation = generation then
      (released.cancelInFlight,
        if kept = [] then replacements
        else replacements ++ [⟨batch.observed, kept, batch.failureCount⟩])
    else if kept = [] then (released, replacements)
    else
      ({ released with
        batches := a.batches.insert generation { batch with thresholds := kept }
        sessions := Assoc.adjust released.sessions sessionId
          fun session => session.hold kept generation }, replacements)

def affected (sessionId : Uuid) (removed : List ℕ) : List ℕ :=
  ((Assoc.values a.batches).filter fun batch => batch.sessionId = sessionId &&
    batch.thresholds.any fun threshold => threshold ∈ removed).map (·.generation)

def policyOf (sessionId : Uuid) : List ℕ := (a.sessions.lookup sessionId).elim [] (·.policy)

def dropRemoved (sessionId : Uuid) (fingerprint : MemberIdentityFingerprint) (removed : List ℕ)
    (now : ℤ) : Actor :=
  let (cut, replacements) :=
    (a.affected sessionId removed).foldl (cutBatch sessionId removed) (a, [])
  replacements.foldl (fun a replacement =>
    a.createBatch sessionId fingerprint replacement.observed replacement.thresholds
      replacement.failureCount now) cut

/-- Where the source passes no slot, there is none. -/
def reconcilePolicy (sessionId : Uuid) (fingerprint : MemberIdentityFingerprint)
    (newPolicy : List ℕ) (now : ℤ) : Actor :=
  let removed := (a.policyOf sessionId).filter fun threshold => threshold ∉ newPolicy
  let dropped := if removed = [] then a else a.dropRemoved sessionId fingerprint removed now
  dropped.onEntry sessionId fun session => session.adopt newPolicy

/-- A threshold against a reading: its latch, and whether it is newly crossed. -/
def crossing (percent : ℕ) (outstanding : AList fun _ : ℕ => ℕ)
    (acc : (AList fun _ : ℕ => LatchState) × List ℕ) (threshold : ℕ) :
    (AList fun _ : ℕ => LatchState) × List ℕ :=
  if percent < threshold then (acc.1.insert threshold .armed, acc.2)
  else if (acc.1.lookup threshold).getD .armed = .armed then
    (acc.1.insert threshold .latched,
      if (outstanding.lookup threshold).isSome then acc.2 else acc.2 ++ [threshold])
  else acc

def evaluateNumericSample (sessionId : Uuid) (percent : ℕ) (now : ℤ) : Actor :=
  match a.sessions.lookup sessionId with
  | none => a
  | some session =>
    match session.fingerprint with
    | none => a
    | some fingerprint =>
      let (latches, newlyCrossed) :=
        session.policy.foldl (crossing percent session.outstanding) (session.latches, [])
      let seen := { session with latches := latches, lastValidPercent := some percent }
      let evaluated := { a with sessions := a.sessions.insert sessionId seen }
      if newlyCrossed = [] then evaluated
      else evaluated.createBatch sessionId fingerprint percent
        (newlyCrossed.insertionSort (· ≤ ·)) 0 now

def makeSessionBatchesDueNow (sessionId : Uuid) (now : ℤ) : Actor :=
  { a with batches := Assoc.mapValues a.batches fun _ batch =>
      if batch.sessionId = sessionId ∧ batch.inFlight = false then { batch with dueAt := now }
      else batch }

def fingerprintOf (sessionId : Uuid) : Option MemberIdentityFingerprint :=
  (a.sessions.lookup sessionId).bind (·.fingerprint)

/-- A session that was watched under another identity is forgotten. -/
def changeIdentity (sessionId : Uuid) (fingerprint : MemberIdentityFingerprint) : Actor :=
  if (a.fingerprintOf sessionId).any (· ≠ fingerprint) then a.removeSession sessionId else a

def policyFailed (sessionId : Uuid) : Bool :=
  (a.sessions.lookup sessionId).any (·.policyError.isSome)

def clearResolutionErrorsForIdentity (sessionId : Uuid)
    (fingerprint : MemberIdentityFingerprint) : Actor :=
  if fingerprint.sessionId = sessionId ∧
      (a.sessions.lookup sessionId).any
        (fun session => session.fingerprint.all (· = fingerprint)) then
    { a with sessions := Assoc.adjust a.sessions sessionId (·.clearResolutionErrors) }
  else a

/-- The session as it is when the reading is evaluated. -/
def readyToEvaluate (sessionId : Uuid) (policy : ResolvedPolicy) (now : ℤ) : Actor :=
  let identified := (a.changeIdentity sessionId policy.fingerprint).onEntry sessionId
    fun session => { session with fingerprint := some policy.fingerprint }
  let cleared := identified.onEntry sessionId (·.clearResolutionErrors)
  let reconciled :=
    cleared.reconcilePolicy sessionId policy.fingerprint policy.thresholds now
  if identified.policyFailed sessionId then reconciled.makeSessionBatchesDueNow sessionId now
  else reconciled

def applyNumericResolution (sessionId : Uuid) (percent : ℕ) (resolution : MemberPolicyResolution)
    (now : ℤ) : Actor :=
  match resolution with
  | .eligible policy =>
    if policy.fingerprint.sessionId ≠ sessionId then a
    else (a.readyToEvaluate sessionId policy now).evaluateNumericSample sessionId percent now
  | .disabled fingerprint =>
    (a.clearResolutionErrorsForIdentity sessionId fingerprint).removeSession sessionId
  | .permanentIneligible _ => a.removeSession sessionId
  | .paused fingerprint cls message =>
    (a.changeIdentity sessionId fingerprint).onEntry sessionId fun session =>
      { session with fingerprint := some fingerprint }.setPolicyError cls message
  | .retryableFailure message => a.onEntry sessionId (·.setRuntimeError message)

def processReading (sessionId : Uuid) (percent : ℕ) (resolution : MemberPolicyResolution)
    (now : ℤ) : Actor :=
  if 100 < percent then a else a.applyNumericResolution sessionId percent resolution now

def reconcileCanceledBatch (sessionId : Uuid) (fingerprint : MemberIdentityFingerprint)
    (currentPolicy : Option ResolvedPolicy) (generation : ℕ) (now : ℤ) : Actor :=
  match currentPolicy with
  | none => a.removeSession sessionId
  | some policy =>
    if policy.fingerprint = fingerprint then
      let cleared := a.clearResolutionErrorsForIdentity sessionId policy.fingerprint
      if policy.thresholds = [] then cleared.removeSession sessionId
      else (cleared.reconcilePolicy sessionId policy.fingerprint policy.thresholds now).removeBatch
        generation
    else a.removeSession sessionId

def failBatch (generation : ℕ) (now : ℤ) : Actor :=
  { a with batches := Assoc.adjust a.batches generation fun batch =>
      { batch with
        inFlight := false
        failureCount := min (batch.failureCount + 1) (2 ^ 32 - 1)
        dueAt := now + retryDelay (min (batch.failureCount + 1) (2 ^ 32 - 1)) } }

def deferBatch (generation : ℕ) (now : ℤ) : Actor :=
  { a with batches := Assoc.adjust a.batches generation fun batch =>
      { batch with inFlight := false, dueAt := now + holdRecheckDelay } }

def pauseBatchForIdentity (sessionId : Uuid) (fingerprint : MemberIdentityFingerprint)
    (cls message : String) (generation : ℕ) (now : ℤ) : Actor :=
  if a.fingerprintOf sessionId = some fingerprint then
    let paused := { a with
      sessions := Assoc.adjust a.sessions sessionId (·.setPolicyError cls message) }
    paused.failBatch generation now
  else a.removeSession sessionId

def readyAttemptMatches (attempt : ReadyAttempt) (generation : ℕ) (now : ℤ) : Bool × Actor :=
  let sessionId := attempt.snapshot.sessionId
  if a.fingerprintOf sessionId = some attempt.snapshot.fingerprint then
    let reconciled := a.reconcilePolicy sessionId attempt.snapshot.fingerprint
      attempt.currentPolicy.thresholds now
    ((reconciled.batches.lookup generation).any fun current =>
      current.thresholds = attempt.thresholds && current.fingerprint = attempt.snapshot.fingerprint,
      reconciled)
  else (false, a.removeSession sessionId)

/-- The delivery of the batch is under way. -/
def launch (sessionId : Uuid) (generation : ℕ) : Actor :=
  { a with
    batches := Assoc.adjust a.batches generation fun batch => { batch with inFlight := true }
    sessions := Assoc.adjust a.sessions sessionId (·.clearResolutionErrors)
    inFlight := some ⟨generation, false⟩
    delivering := some generation }

def attemptBatch (batch : AlertBatch) (generation : ℕ) (resolution : MemberPolicyResolution)
    (route : Except String Unit) (now : ℤ) : Actor :=
  match prepareAttempt batch.snapshot resolution route with
  | .ready attempt =>
    let (isMatch, reconciled) := a.readyAttemptMatches attempt generation now
    if isMatch then reconciled.launch attempt.snapshot.sessionId generation else reconciled
  | .cancel _ currentPolicy =>
    a.reconcileCanceledBatch batch.sessionId batch.fingerprint currentPolicy generation now
  | .paused fingerprint cls message =>
    a.pauseBatchForIdentity batch.sessionId fingerprint cls message generation now
  | .retryableFailure _ => a.failBatch generation now

def dispatchDueBatch (resolution : MemberPolicyResolution) (route : Except String Unit) (now : ℤ) :
    Actor :=
  if a.inFlight.isSome then a
  else match a.earliestDue with
    | none => a
    | some (dueAt, generation) =>
      if now < dueAt then a
      else match a.batches.lookup generation with
        | none => a
        | some batch => a.attemptBatch batch generation resolution route now

/-- The delivery ends, and its completion is sent. -/
def endDelivery (result : Except String Unit) : Actor :=
  match a.delivering with
  | none => a
  | some generation => { a with delivering := none, completion := some ⟨generation, result⟩ }

def finishBatch (completion : DeliveryCompletion) (now : ℤ) : Actor :=
  match completion.result with
  | .ok () => a.removeBatch completion.generation
  | .error message =>
    if isDeferredInternalDeliveryError message then a.deferBatch completion.generation now
    else a.failBatch completion.generation now

def handleDeliveryCompletion (now : ℤ) : Actor :=
  match a.inFlight, a.completion with
  | some slot, some completion =>
    let taken := { a with inFlight := none, completion := none }
    if slot.generation ≠ completion.generation then taken
    else if (a.batches.lookup completion.generation).any (·.inFlight) then
      taken.finishBatch completion now
    else taken
  | _, _ => a

/-- `dead`: the sessions that turn out not to be live. -/
def runMaintenance (dead : List Uuid) : Actor :=
  a.sessions.keys.foldl (fun a sessionId =>
    if sessionId ∈ dead then a.removeSession sessionId else a) a

def shutDown : Actor :=
  { a with
    sessions := ∅
    batches := ∅
    inFlight := none
    delivering := none
    completion := none
    closed := true }

end Actor

inductive Event where
  | sessionOver (sessionId : Uuid)
  | unavailable (sessionId : Uuid) (live : Bool)
  | reading (sessionId : Uuid) (percent : ℕ) (resolution : MemberPolicyResolution) (now : ℤ)
  | dispatch (resolution : MemberPolicyResolution) (route : Except String Unit) (now : ℤ)
  | delivered (result : Except String Unit)
  | completed (now : ℤ)
  | maintenance (dead : List Uuid)
  | shutdown

def Actor.step (a : Actor) (e : Event) : Actor × Unit :=
  if a.closed then (a, ())
  else match e with
    | .sessionOver sessionId => (a.removeSession sessionId, ())
    | .unavailable sessionId live => (if live then a else a.removeSession sessionId, ())
    | .reading sessionId percent resolution now =>
      (a.processReading sessionId percent resolution now, ())
    | .dispatch resolution route now => (a.dispatchDueBatch resolution route now, ())
    | .delivered result => (a.endDelivery result, ())
    | .completed now => (a.handleDeliveryCompletion now, ())
    | .maintenance dead => (a.runMaintenance dead, ())
    | .shutdown => (a.shutDown, ())

def contextAlerts : Machine Actor Event Unit := ⟨Actor.step⟩

end AgentsCommander.ContextAlerts
