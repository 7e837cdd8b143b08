import AgentsCommander.Loops.Storage

/-! The Loop scheduler: scans, manual runs, and the commit sections that record them. -/
namespace AgentsCommander.Loops
open Foundation

/-- The Loop the threads work on: its directory's id, and the project's path. -/
structure Place where
  id : String
  projectPath : String
  deriving DecidableEq, Repr

structure LoopScanSnapshot where
  config : LoopConfigToml
  state : LoopState
  raw : Option Bytes
  generation : ℕ
  deriving DecidableEq, Repr

def loopGeneration : LoopProgram ℕ := call .loopGeneration

def bumpLoopGeneration : LoopProgram Unit := call .bumpLoopGeneration

def keepUnrecordedDelivery (record : UnrecordedDelivery) : LoopProgram Unit :=
  call (.keepUnrecordedDelivery record)

def peekUnrecordedDelivery : LoopProgram (Option UnrecordedDelivery) := call .peekUnrecordedDelivery

def takeUnrecordedDelivery : LoopProgram (Option UnrecordedDelivery) := call .takeUnrecordedDelivery

def emitTransition (kind : String) (message : Option String) : LoopProgram Unit :=
  call (.emit kind message)

def deliver (origin : Origin) (config : LoopConfigToml) (run : Uuid) (due : DateTime) :
    LoopProgram LoopDeliveryReport := call (.deliver origin config run due)

/-- `entry` for a transition of the scheduler's own. -/
def transitionEntry (place : Place) (config : LoopConfigToml) (runId : Uuid) (kind : LoopAuditKind)
    (dueAt now : DateTime) : LoopAuditEntry where
  runId := runId
  loopId := config.loopDef.id
  projectPath := place.projectPath
  kind := kind
  dueAt := dueAt
  startedAt := now
  completedAt := some now
  target := none
  sessionId := none
  busyCoordinatorPolicy := config.policy.busyCoordinator
  sessionStart := some config.policy.sessionStart
  error := none
  promptSnapshot := none

def reportEntry (place : Place) (config : LoopConfigToml) (report : LoopDeliveryReport)
    (runId : Uuid) (dueAt startedAt : DateTime) : LoopAuditEntry where
  runId := runId
  loopId := config.loopDef.id
  projectPath := place.projectPath
  kind := report.kind
  dueAt := dueAt
  startedAt := startedAt
  completedAt := report.completedAt
  target := report.target
  sessionId := report.sessionId
  busyCoordinatorPolicy := config.policy.busyCoordinator
  sessionStart := some config.policy.sessionStart
  error := report.error
  promptSnapshot := report.promptSnapshot

/-- The state a report leads to. -/
def reportedState (state : LoopState) (report : LoopDeliveryReport) (runId : Uuid)
    (dueAt now : DateTime) (nextDue : Option DateTime) : LoopState :=
  let next := { state with
    lastCheckedAt := some now
    lastDueAt := some dueAt
    nextDueAt := nextDue
    lastResult := some { kind := auditKindName report.kind, message := report.message } }
  match report.kind with
  | .delivered => { next with
      lastDeliveredAt := report.completedAt.or (some now), pendingDueAt := none, pendingRunId := none }
  | .pendingBusy => { next with pendingDueAt := some dueAt, pendingRunId := some runId }
  | .skippedBusy | .deliveryFailed | .targetUnresolved =>
    { next with pendingDueAt := none, pendingRunId := none }
  | .missedWhileClosed | .coalescedPending => next

section
variable (crates : Crates) (place : Place)

def readRawLoopState : LoopM (Option Bytes) := do
  currentRaw (← up resolvedLoopStatePath) readBytes

def guardedStateWrite (state : LoopState) (s0Raw : Option Bytes) : LoopM LoopStateWrite := do
  if (← readLoopConfigIfPresent crates).isNone then return .stale
  match s0Raw with
  | none => writeLoopStateIfUnchanged crates state none
  | some bytes =>
    if ByteArray.validateUTF8 ⟨bytes.toArray⟩ then
      writeLoopStateIfUnchanged crates state (some bytes)
    else do
      if (← readRawLoopState) ≠ some bytes then return .stale
      writeLoopStateAtomic crates state
      return .written

def readStateSnapshot : LoopM (LoopState × Option Bytes) := do
  match ← up (readLoopStateWithRaw crates).run with
  | .ok snapshot => return snapshot
  | .error _ => return ({}, ← readRawLoopState)

def loopIsCurrentForDelivery (expected : LoopConfigToml) : LoopM Bool := do
  return (← revalidateLoopCurrent crates expected) = .current

def scanWriteIsFresh (s0Generation : ℕ) (s0Raw : Option Bytes) : LoopM Bool := do
  if (← up loopGeneration) ≠ s0Generation then return false
  return (← readRawLoopState) = s0Raw

/-- The marks of a commit section, set once the Loop lock is held. -/
def markCommit {α : Type} (body : LoopM α) : LoopM α := ExceptT.mk do
  mark .commitEntered
  let r ← body.run
  mark .commitLeft
  return r

def auditAfterWrite (entry : LoopAuditEntry) : LoopM Unit := do
  match ← up (appendLoopAuditOnce entry).run with
  | .ok () => return ()
  | .error e => if (← readLoopConfigIfPresent crates).isSome then throw e

def commitScanSectionChecked (s0Generation : ℕ) (s0Raw : Option Bytes)
    (audit : Option LoopAuditEntry) (state : LoopState) (deliveryConfig : Option LoopConfigToml) :
    LoopM LoopStateWrite :=
  withLoopLock place.id <| markCommit do
    if !(← scanWriteIsFresh s0Generation s0Raw) then return .stale
    if let some config := deliveryConfig then
      if (← revalidateLoopCurrent crates config) ≠ .current then return .stale
    if (← guardedStateWrite crates state s0Raw) = .stale then return .stale
    if let some entry := audit then auditAfterWrite crates entry
    return .written

def commitScanSection (s0Generation : ℕ) (s0Raw : Option Bytes) (audit : Option LoopAuditEntry)
    (state : LoopState) : LoopM LoopStateWrite :=
  commitScanSectionChecked crates place s0Generation s0Raw audit state none

def maybeCoalescePending (config : LoopConfigToml) (state : LoopState) (s0Generation : ℕ)
    (s0Raw : Option Bytes) : LoopM Unit := do
  let outcome ← ExceptT.mk <| withIoLock <| ExceptT.run do
    if !(← loopIsCurrentForDelivery crates config) then return none
    let some pendingDue := state.pendingDueAt | return none
    let now ← up utcNow
    let some newDue ← ofExcept (latestDueBetween crates config.trigger.expr pendingDue now)
      | return none
    if newDue ≤ pendingDue then return none
    let runId ← match state.pendingRunId with
      | some id => pure id
      | none => up newUuid
    let nextDue ← ofExcept (nextDueAfter crates config.trigger.expr now)
    let coalesced := { state with
      lastCheckedAt := some now
      lastDueAt := some newDue
      nextDueAt := nextDue
      lastResult := some
        { kind := "coalescedPending"
          message := "A new due time occurred while the prior run was still pending" } }
    let entry := transitionEntry place config runId .coalescedPending newDue now
    some <$> commitScanSection crates place s0Generation s0Raw (some entry) coalesced
  if outcome = some .written then
    up (emitTransition "coalesced"
      (some "A due run was coalesced into the pending Loop delivery"))

def recordMissedWhileClosed (config : LoopConfigToml) (state : LoopState) (runId : Uuid)
    (dueAt : DateTime) (s0Generation : ℕ) (s0Raw : Option Bytes) : LoopM Unit := do
  let outcome ← ExceptT.mk <| withIoLock <| ExceptT.run do
    if !(← loopIsCurrentForDelivery crates config) then return .stale
    let now ← up utcNow
    let nextDue ← ofExcept (nextDueAfter crates config.trigger.expr now)
    let missed := { state with
      lastCheckedAt := some now
      lastDueAt := some dueAt
      lastMissedClosedAt := some dueAt
      nextDueAt := nextDue
      lastResult := some
        { kind := "missedWhileClosed"
          message := "Loop was due while AgentsCommander was closed; " ++
            "no catch-up run was injected" } }
    let entry := transitionEntry place config runId .missedWhileClosed dueAt now
    commitScanSection crates place s0Generation s0Raw (some entry) missed
  if outcome = .written then
    up (emitTransition "missed" (some "Loop was missed while AgentsCommander was closed"))

def recordUnrecordedDelivery (generation : ℕ) (config : LoopConfigToml) (entry : LoopAuditEntry)
    (reportMessage : String) (delivered : LoopState) (s0Raw : Option Bytes) : LoopProgram Unit :=
  match crates.jsonToString delivered with
  | .error _ => pure ()
  | .ok stateAfter => keepUnrecordedDelivery
      { generation := generation, config := config, entry := entry,
        reportMessage := reportMessage, delivered := delivered, stateBefore := s0Raw,
        stateAfter := stateAfter }

/-- The marks of a delivery report: how its commit ended. -/
def markReport {α : Type} (config : LoopConfigToml) (s0Generation : ℕ) (s0Raw : Option Bytes)
    (body : LoopM α) : LoopM α := ExceptT.mk do
  let r ← body.run
  mark (.reportApplied config s0Generation s0Raw r.toBool.not)
  return r

/-- The part under the I/O lock: `none` where the Loop is no longer the one delivered to. -/
def commitDeliveryReport (config : LoopConfigToml) (state : LoopState)
    (report : LoopDeliveryReport) (runId : Uuid) (dueAt startedAt : DateTime) (s0Generation : ℕ)
    (s0Raw : Option Bytes) : LoopM (Option (LoopStateWrite × LoopState)) := do
  if !(← loopIsCurrentForDelivery crates config) then return none
  let repeatUnresolved := report.kind = .targetUnresolved ∧
    state.lastResult.map LoopLastResult.kind = some "targetUnresolved"
  let now ← up utcNow
  let nextDue ← ofExcept (nextDueAfter crates config.trigger.expr now)
  let next := reportedState state report runId dueAt now nextDue
  up (mark (.prepared (crates.jsonToString next).toOption))
  let entry := reportEntry place config report runId dueAt startedAt
  let audit := if repeatUnresolved then none else some entry
  match ← up (commitScanSection crates place s0Generation s0Raw audit next).run with
  | .ok outcome => return some (outcome, next)
  | .error e =>
    if report.kind = .delivered then
      up (recordUnrecordedDelivery crates s0Generation config entry report.message next s0Raw)
    throw e

def applyDeliveryReport (config : LoopConfigToml) (state : LoopState) (report : LoopDeliveryReport)
    (runId : Uuid) (dueAt startedAt : DateTime) (s0Generation : ℕ) (s0Raw : Option Bytes) :
    LoopM LoopState := do
  let outcome ← ExceptT.mk <| withIoLock <| ExceptT.run <| markReport config s0Generation s0Raw <|
    commitDeliveryReport crates place config state report runId dueAt startedAt s0Generation s0Raw
  match outcome with
  | none | some (.stale, _) => return state
  | some (.written, next) =>
    let _ ← up takeUnrecordedDelivery
    if report.kind = .targetUnresolved ∧
        state.lastResult.map LoopLastResult.kind = some "targetUnresolved" then return next
    up (emitTransition (auditKindEvent report.kind) (some report.message))
    return next

def retryUnrecordedDelivery (record : UnrecordedDelivery) (s0Generation : ℕ)
    (s0Raw : Option Bytes) : LoopM Unit := do
  let outcome ← ExceptT.mk <| withIoLock <| ExceptT.run <|
    commitScanSectionChecked crates place s0Generation s0Raw (some record.entry) record.delivered
      (some record.config)
  if outcome = .written then
    let _ ← up takeUnrecordedDelivery
    up (emitTransition "delivered" (some record.reportMessage))

/-- The recorded delivery is of this Loop, as the scan read it. -/
def UnrecordedDelivery.replayable (record : UnrecordedDelivery) (config : LoopConfigToml)
    (s0Generation : ℕ) (s0Raw : Option Bytes) : Bool :=
  record.generation = s0Generation ∧
    (s0Raw = record.stateBefore ∨ s0Raw = some record.stateAfter) ∧
    loopDeliveryConfigMatches config record.config

def replayableDelivery (config : LoopConfigToml) (s0Generation : ℕ) (s0Raw : Option Bytes) :
    LoopProgram (Option UnrecordedDelivery) := do
  let some record ← peekUnrecordedDelivery | return none
  if !config.loopDef.enabled then
    let _ ← takeUnrecordedDelivery
    return none
  if !record.replayable config s0Generation s0Raw then
    let _ ← takeUnrecordedDelivery
    return none
  return some record

/-- S0: what a scan, or a manual run, reads of the Loop under both locks. -/
def scanSnapshot : LoopM (Option LoopScanSnapshot) :=
  ExceptT.mk <| withIoLock <| ExceptT.run <| withLoopLock place.id do
    if !(← up isDir) then return none
    let some config ← readLoopConfigIfPresent crates | return none
    let (state, raw) ← readStateSnapshot crates
    let generation ← up loopGeneration
    up (mark (.snapshot generation raw))
    return some { config := config, state := state, raw := raw, generation := generation }

def commitScanBaseline (config : LoopConfigToml) (s0Generation : ℕ) (s0Raw : Option Bytes) :
    LoopM Unit :=
  ExceptT.mk <| withIoLock <| ExceptT.run do
    if !(← loopIsCurrentForDelivery crates config) then return ()
    let state ← ofExcept (baselineLoopState crates config (← up utcNow))
    let _ ← commitScanSection crates place s0Generation s0Raw none state

def finishScanEntry (snapshot : LoopScanSnapshot) : LoopM Bool := do
  if let some record ← up (replayableDelivery snapshot.config snapshot.generation snapshot.raw) then
    retryUnrecordedDelivery crates place record snapshot.generation snapshot.raw
    return true
  if !snapshot.config.loopDef.enabled then return true
  if snapshot.state.lastCheckedAt.isNone then
    commitScanBaseline crates place snapshot.config snapshot.generation snapshot.raw
    return true
  return false

def readyScanSnapshot : LoopM (Option LoopScanSnapshot) := do
  let some snapshot ← scanSnapshot crates place | return none
  if ← finishScanEntry crates place snapshot then return none
  return some snapshot

def dueScanRun (config : LoopConfigToml) (state : LoopState) : LoopM (Option (Uuid × DateTime)) := do
  let now ← up utcNow
  let lastChecked := state.lastCheckedAt.getD now
  match ← ofExcept (latestDueBetween crates config.trigger.expr lastChecked now) with
  | none => return none
  | some dueAt => return some (← up newUuid, dueAt)

/-- A run left pending is delivered again until it is taken or another due time joins it. -/
def scanPending (snapshot : LoopScanSnapshot) (pendingDue : DateTime) (pendingRun : Uuid) :
    LoopM Unit := do
  if !(← loopIsCurrentForDelivery crates snapshot.config) then return ()
  let startedAt ← up utcNow
  let report ← up (deliver .scan snapshot.config pendingRun pendingDue)
  if report.kind = .pendingBusy then
    maybeCoalescePending crates place snapshot.config snapshot.state snapshot.generation snapshot.raw
  else
    let _ ← applyDeliveryReport crates place snapshot.config snapshot.state report pendingRun
      pendingDue startedAt snapshot.generation snapshot.raw

def scanDue (snapshot : LoopScanSnapshot) (startup : Bool) : LoopM Unit := do
  let some (runId, dueAt) ← dueScanRun crates snapshot.config snapshot.state | return ()
  if startup then
    if !(← loopIsCurrentForDelivery crates snapshot.config) then return ()
    recordMissedWhileClosed crates place snapshot.config snapshot.state runId dueAt
      snapshot.generation snapshot.raw
  else
    let startedAt ← up utcNow
    if !(← loopIsCurrentForDelivery crates snapshot.config) then return ()
    let report ← up (deliver .scan snapshot.config runId dueAt)
    let _ ← applyDeliveryReport crates place snapshot.config snapshot.state report runId dueAt
      startedAt snapshot.generation snapshot.raw

def scanLoop (startup pendingOnly : Bool) : LoopM Unit := do
  let some snapshot ← readyScanSnapshot crates place | return ()
  match snapshot.state.pendingDueAt, snapshot.state.pendingRunId with
  | some pendingDue, some pendingRun => scanPending crates place snapshot pendingDue pendingRun
  | _, _ => if !pendingOnly then scanDue crates place snapshot startup

def scanOnce (startup pendingOnly : Bool) : LoopProgram Unit := withScanLock do
  let _ ← (scanLoop crates place startup pendingOnly).run
  return ()

def runLoopNowSection : LoopM LoopState := do
  let some snapshot ← scanSnapshot crates place | throw ("Loop '" ++ place.id ++ "' not found")
  refuse (!snapshot.config.loopDef.enabled) ("Loop '" ++ place.id ++ "' is disabled")
  let runId ← up newUuid
  let dueAt ← up utcNow
  let startedAt ← up utcNow
  refuse (!(← loopIsCurrentForDelivery crates snapshot.config))
    ("Loop '" ++ place.id ++ "' changed before delivery")
  let report ← up (deliver .runLoopNow snapshot.config runId dueAt)
  applyDeliveryReport crates place snapshot.config snapshot.state report runId dueAt startedAt
    snapshot.generation snapshot.raw

def runLoopNow : LoopProgram Unit := withScanLock do
  let _ ← (runLoopNowSection crates place).run
  return ()

/-- A Loop command: its section of the files, then the new generation, under the I/O lock. -/
def loopCommand {α : Type} (files : LoopM α) (here : α → Bool) (kind : String) :
    LoopProgram Unit := withIoLock do
  match ← files.run with
  | .error _ => return ()
  | .ok a =>
    if here a then
      bumpLoopGeneration
      emitTransition kind none

def createLoop (config : LoopConfigToml) : LoopProgram Unit :=
  loopCommand (createLoopFiles crates place.id config) (fun _ => true) "created"

def updateLoop (patch : LoopUpdatePatch) : LoopProgram Unit :=
  loopCommand (updateLoopFiles crates place.id patch) (·.1) "updated"

def deleteLoop : LoopProgram Unit :=
  loopCommand (removeLoopFiles place.id) (fun _ => true) "deleted"

def toggleLoop (enabled : Bool) : LoopProgram Unit :=
  loopCommand (updateLoopFiles crates place.id { enabled := some enabled }) (·.1)
    (if enabled then "enabled" else "disabled")

/-- What a thread may run: scans, manual runs and commands in the application, and the
three writing commands of the CLI. -/
inductive Starts : Thread → LoopProgram Unit → Prop
  | scanOnce (n : ℕ) (startup pendingOnly : Bool) :
      Starts (.app n) (scanOnce crates place startup pendingOnly)
  | runLoopNow (n : ℕ) : Starts (.app n) (runLoopNow crates place)
  | createLoop (n : ℕ) (config : LoopConfigToml) :
      config.loopDef.id = place.id → Starts (.app n) (createLoop crates place config)
  | updateLoop (n : ℕ) (patch : LoopUpdatePatch) : Starts (.app n) (updateLoop crates place patch)
  | deleteLoop (n : ℕ) : Starts (.app n) (deleteLoop place)
  | toggleLoop (n : ℕ) (enabled : Bool) : Starts (.app n) (toggleLoop crates place enabled)
  | cliCreate (n : ℕ) (config : LoopConfigToml) : config.loopDef.id = place.id →
      Starts (.cli n) ((createLoopFiles crates place.id config).run >>= fun _ => pure ())
  | cliUpdate (n : ℕ) (patch : LoopUpdatePatch) :
      Starts (.cli n) ((updateLoopFiles crates place.id patch).run >>= fun _ => pure ())
  | cliRemove (n : ℕ) : Starts (.cli n) ((removeLoopFiles place.id).run >>= fun _ => pure ())

end
end AgentsCommander.Loops
