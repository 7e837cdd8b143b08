import AgentsCommander.Loops.Machine

/-! Reading and writing the Loop files, and the sections that hold the Loop lock. -/
namespace AgentsCommander.Loops
open Foundation
open Capture.TurnCodex (trim)

abbrev LoopM := ExceptT String LoopProgram

abbrev call (o : Act) : LoopProgram o.Res := Program.call (I := loopInterface) o

/-- A program that cannot fail, among those that can. -/
def up {α : Type} (p : LoopProgram α) : LoopM α := ExceptT.lift p

/-- Stop with the text when the condition holds. -/
def refuse (condition : Bool) (text : String) : LoopM Unit :=
  if condition then throw text else pure ()

/-- The action of a fallible call; the error is put after the text. -/
def attempt {α : Type} (text : String) (p : LoopProgram (Except IoError α)) : LoopM α :=
  ExceptT.mk do
    match ← p with
    | .ok a => return .ok a
    | .error e => return .error (text ++ e.text)

def isDir : LoopProgram Bool := call .isDir

def isFile (f : LoopFile) : LoopProgram Bool := call (.isFile f)

def readDocument (f : LoopFile) : LoopProgram (Except IoError Bytes) := call (.readDocument f)

def readBytes (f : LoopFile) : LoopProgram (Except IoError Bytes) := call (.readBytes f)

def utcNow : LoopProgram DateTime := call .now

def newUuid : LoopProgram Uuid := call .newUuid

def auditExists : LoopProgram Bool := call .auditExists

def resolveLoopTarget (workgroup : String) : LoopProgram (Except String Unit) :=
  call (.resolveLoopTarget workgroup)

def mark (n : Note) : LoopProgram Unit := call (.note n)

def resolvedLoopStatePath : LoopProgram LoopFile := do
  if ← isFile .state then return .state
  if ← isFile .legacyState then return .legacyState
  return .state

inductive LoopConfigRevalidation where
  | current
  | gone
  | disabled
  | changed
  deriving DecidableEq, Repr

inductive LoopStateWrite where
  | written
  | stale
  deriving DecidableEq, Repr

section
variable (crates : Crates)

def parseLoopConfig (content : Bytes) : Except String LoopConfigToml :=
  (crates.tomlFromStr content).mapError ("Failed to parse config.toml: " ++ ·)

def readLoopConfig : LoopM LoopConfigToml := do
  let content ← attempt "Failed to read config.toml: " (readDocument .config)
  ofExcept (parseLoopConfig crates content)

def readLoopConfigIfPresent : LoopM (Option LoopConfigToml) := do
  match ← up (readDocument .config) with
  | .ok content => some <$> ofExcept (parseLoopConfig crates content)
  | .error .notFound => return none
  | .error e => throw ("Failed to read config.toml: " ++ e.text)

def revalidateLoopCurrent (expected : LoopConfigToml) : LoopM LoopConfigRevalidation := do
  if !(← up isDir) then return .gone
  if !(← up (isFile .config)) then return .gone
  let current ← readLoopConfig crates
  if !current.loopDef.enabled then return .disabled
  if loopDeliveryConfigMatches current expected then return .current else return .changed

def ensureLoopConfigPresent : LoopM Unit := do
  if ← up (isFile .config) then return ()
  throw "Loop config no longer exists at config.toml"

def validateLoopConfig (config : LoopConfigToml) : LoopM Unit := do
  ofExcept (validateLoopId config.loopDef.id)
  refuse (trim config.loopDef.name).isEmpty "Loop name cannot be empty"
  refuse (config.trigger.timezone != "local") "Loop timezone must be 'local' for the MVP"
  ofExcept (validateCronExpr crates config.trigger.expr)
  refuse (!hasEntityPrefix config.target.workgroup)
    "Loop target room must be a `room-*` or legacy `wg-*` Room directory name"
  ofExcept (validateWorkgroupName config.target.workgroup)
  refuse (trim config.prompt.body).isEmpty "Loop prompt cannot be empty"
  if config.loopDef.enabled then
    match ← up (resolveLoopTarget config.target.workgroup) with
    | .ok () => return ()
    | .error e => throw (e ++ ". Disable the Loop or choose an existing room.")

/-- The configuration goes to the directory its own id names; the answer says whether that
is this Loop's. -/
def writeLoopConfig (id : String) (config : LoopConfigToml) : LoopM Bool := do
  ofExcept (validateLoopId config.loopDef.id)
  if config.loopDef.id ≠ id then return false
  attempt "Failed to create Loop directory: " (call .createDirectory)
  let content ← ofExcept
    ((crates.tomlToString config).mapError ("Failed to serialize Loop config: " ++ ·))
  attempt "Failed to write Loop config: " (call (.replace .config content))
  return true

def readLoopStateWithRaw : LoopM (LoopState × Option Bytes) := do
  let path ← up resolvedLoopStatePath
  if !(← up (isFile path)) then return ({}, none)
  let content ← attempt ("Failed to read " ++ path.name ++ ": ") (readDocument path)
  let state ← ofExcept ((crates.jsonFromStr content).mapError
    ("Failed to parse " ++ path.name ++ ": " ++ ·))
  return (state, some content)

def readLoopState : LoopM LoopState := do
  let (state, _) ← readLoopStateWithRaw crates
  return state

def writeLoopStateAtomicAt (path : LoopFile) (state : LoopState) : LoopM Unit := do
  ensureLoopConfigPresent
  let content ← ofExcept
    ((crates.jsonToString state).mapError ("Failed to serialize Loop state: " ++ ·))
  attempt "Failed to write temporary Loop state: " (call .stage)
  attempt "Failed to finalize Loop state: " (call (.replace path content))

def writeLoopStateAtomic (state : LoopState) : LoopM Unit := do
  writeLoopStateAtomicAt crates (← up resolvedLoopStatePath) state

/-- What is on disk, for the comparison: an absent file is `none`. -/
def currentRaw (path : LoopFile) (read : LoopFile → LoopProgram (Except IoError Bytes)) :
    LoopM (Option Bytes) := do
  match ← up (read path) with
  | .ok content => return some content
  | .error .notFound => return none
  | .error e => throw ("Failed to read " ++ path.name ++ ": " ++ e.text)

def writeLoopStateIfUnchanged (state : LoopState) (expectedRaw : Option Bytes) :
    LoopM LoopStateWrite := do
  let path ← up resolvedLoopStatePath
  let raw ← currentRaw path readDocument
  if raw ≠ expectedRaw then return .stale
  writeLoopStateAtomicAt crates path state
  return .written

def appendLoopAuditLine (entry : LoopAuditEntry) : LoopM Unit := do
  attempt "Failed to append audit.jsonl: " (call (.appendLine entry))
  attempt "Failed to append audit.jsonl: " (call .appendNewline)

def appendLoopAuditOnce (entry : LoopAuditEntry) : LoopM Unit := do
  ensureLoopConfigPresent
  if ← up auditExists then
    let content ← attempt "Failed to read audit.jsonl: " (call .readAudit)
    if (content.filterMap AuditLine.entry).any fun existing => existing.key = entry.key then
      return ()
  appendLoopAuditLine entry

/-- The migration to the new state name runs under the lock just taken. -/
def acquireLoopLock (id : String) : LoopM Unit := do
  ofExcept (validateLoopId id)
  attempt "Failed to resolve AC root for Loop lock: " (call .canonicalLoopRoot)
  attempt "loopLockTimeout: " (call .openLoopLock)
  if ← up isDir then up (call .moveLegacyState)

def withLoopLock {α : Type} (id : String) (body : LoopM α) : LoopM α := ExceptT.mk do
  match ← (acquireLoopLock id).run with
  | .error e => return .error e
  | .ok () =>
    let r ← body.run
    call .releaseLoopLock
    return r

def withIoLock {α : Type} (body : LoopProgram α) : LoopProgram α := do
  call .acquireIoLock
  let r ← body
  call .releaseIoLock
  return r

def withScanLock {α : Type} (body : LoopProgram α) : LoopProgram α := do
  call .acquireScanLock
  let r ← body
  call .releaseScanLock
  return r

def createLoopFiles (id : String) (config : LoopConfigToml) : LoopM LoopState :=
  withLoopLock id do
    refuse (← up isDir) ("Loop '" ++ id ++ "' already exists")
    validateLoopConfig crates config
    let here ← writeLoopConfig crates id config
    let state ← ofExcept (baselineLoopState crates config (← up utcNow))
    if here then writeLoopStateAtomic crates state
    return state

def updateLoopFiles (id : String) (patch : LoopUpdatePatch) :
    LoopM (Bool × LoopConfigToml × LoopState) :=
  withLoopLock id do
    refuse (!(← up isDir)) ("Loop '" ++ id ++ "' not found")
    let current ← readLoopConfig crates
    let (config, resetSchedule) ← ofExcept (applyLoopUpdatePatch current patch)
    validateLoopConfig crates config
    let here ← writeLoopConfig crates id config
    if resetSchedule then
      let state ← ofExcept (baselineLoopState crates config (← up utcNow))
      if here then writeLoopStateAtomic crates state
      return (here, config, state)
    if !here then return (here, config, {})
    match ← up (readLoopState crates).run with
    | .ok state => return (here, config, state)
    | .error _ => return (here, config, {})

def removeLoopFiles (id : String) : LoopM Unit :=
  withLoopLock id do
    refuse (!(← up isDir)) ("Loop '" ++ id ++ "' not found")
    attempt "Failed to remove Loop directory: " (call .removeDirectory)

end
end AgentsCommander.Loops
