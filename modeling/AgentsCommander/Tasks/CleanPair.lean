import AgentsCommander.Foundation.Device
import AgentsCommander.Tasks.Status
import AgentsCommander.Transcript.Utf8

/-! A clean replaces the document and the status log together. A journal names what the pair is to
become, and whoever comes next finishes what it finds there. -/
namespace AgentsCommander.Tasks
open Foundation Foundation.Lines Transcript

/-- The files of a room. What follows the fixed part of a name is the identifier of a transaction
or a process, or the stamp and the suffix of a backup. -/
inductive FileName where
  | task
  | status
  | journal
  | taskStage (id : Text)
  | statusStage (id : Text)
  | journalStage (id : Text)
  | taskBackup (stamp : Text) (suffix : ℕ)
  | statusBackup (stamp : Text) (suffix : ℕ)
  deriving DecidableEq

abbrev Folder := FileName → Option Bytes

structure CleanSide where
  existed : Bool
  originalHash : Option Text
  targetHash : Text
  backup : Option FileName
  stage : FileName
  deriving DecidableEq

structure CleanJournal where
  schemaVersion : ℕ
  txId : Text
  stamp : Text
  suffix : ℕ
  task : CleanSide
  status : CleanSide
  deriving DecidableEq

/-- What is taken from other packages besides: SHA-256 in hexadecimal, dates, and the JSON of a
journal. -/
structure CleanCrates extends StatusCrates where
  hashBytes : Bytes → Text
  parsesStamp : Text → Bool
  journalFromValue : Value → Except String CleanJournal
  journalToVec : CleanJournal → Bytes

/-! ### The folder -/

inductive FsAct where
  | sourceState (name : FileName)
  | read (name : FileName)
  | present (name : FileName)
  | create (name : FileName)
  | write (name : FileName) (bytes : Bytes)
  | copyArchive (source target : FileName) (existed : Bool)
  | sync (name : FileName)
  | rename (source target : FileName)
  | remove (name : FileName)

inductive CreateError where
  | alreadyExists
  | other
  deriving DecidableEq

/-- A failed copy says the hash of what it wrote. -/
def FsAct.Res : FsAct → Type
  | .sourceState _ => Except Unit (Option Text)
  | .read _ => Except Unit (Option Bytes)
  | .present _ => Bool
  | .create _ => Except CreateError Unit
  | .copyArchive _ _ _ => Except Text Unit
  | .write _ _ | .sync _ | .rename _ _ | .remove _ => Except Unit Unit

abbrev fsInterface : Interface := ⟨FsAct, FsAct.Res⟩

/-- An action succeeds, fails, or fails after it has written so much. -/
inductive IoChoice where
  | ok
  | fail
  | part (count : ℕ)
  deriving DecidableEq

def Folder.set (fs : Folder) (name : FileName) (content : Option Bytes) : Folder :=
  fun other => if other = name then content else fs other

def Folder.append (fs : Folder) (name : FileName) (bytes : Bytes) : Folder :=
  fs.set name ((fs name).map (· ++ bytes))

variable (crates : CleanCrates)

def Folder.digest (fs : Folder) (name : FileName) : Option Text := (fs name).map crates.hashBytes

def writeAct (name : FileName) (bytes : Bytes) (fs : Folder) : IoChoice → Except Unit Unit × Folder
  | .ok => (.ok (), fs.append name bytes)
  | .part count => (.error (), fs.append name (bytes.take count))
  | .fail => (.error (), fs)

def copyAct (source target : FileName) (existed : Bool) (fs : Folder) :
    IoChoice → Except Text Unit × Folder
  | .ok =>
    if existed then
      match fs source with
      | some content => (.ok (), fs.append target content)
      | none => (.error (crates.hashBytes []), fs)
    else (.ok (), fs)
  | .part count =>
    let written := if existed then ((fs source).getD []).take count else []
    (.error (crates.hashBytes written), fs.append target written)
  | .fail => (.error (crates.hashBytes []), fs)

def renameAct (source target : FileName) (fs : Folder) : IoChoice → Except Unit Unit × Folder
  | .ok =>
    match fs source with
    | some content => (.ok (), (fs.set target (some content)).set source none)
    | none => (.error (), fs)
  | _ => (.error (), fs)

def folderAct : (o : FsAct) → IoChoice → Folder → o.Res × Folder
  | .sourceState name, x, fs => (if x = .ok then .ok (fs.digest crates name) else .error (), fs)
  | .read name, x, fs => (if x = .ok then .ok (fs name) else .error (), fs)
  | .present name, _, fs => ((fs name).isSome, fs)
  | .create name, x, fs =>
    if x = .ok then
      if (fs name).isSome then (.error .alreadyExists, fs) else (.ok (), fs.set name (some []))
    else (.error .other, fs)
  | .write name bytes, x, fs => writeAct name bytes fs x
  | .copyArchive source target existed, x, fs => copyAct crates source target existed fs x
  | .sync name, x, fs => (if x = .ok ∧ (fs name).isSome then .ok () else .error (), fs)
  | .rename source target, x, fs => renameAct source target fs x
  | .remove name, x, fs =>
    if x = .ok ∧ (fs name).isSome then (.ok (), fs.set name none) else (.error (), fs)

abbrev folderDevice : Device fsInterface where
  State := Folder
  Choice := IoChoice
  act := folderAct crates

/-! ### Programs over the folder -/

abbrev TaskIo := ExceptT TaskOpError (Program fsInterface)

def perform (o : FsAct) : TaskIo o.Res := ExceptT.lift (Program.call (I := fsInterface) o)

def orThrow {α : Type} (e : TaskOpError) : Except Unit α → TaskIo α
  | .ok a => pure a
  | .error () => throw e

/-- Go on only if the condition holds. -/
def demand (c : Prop) [Decidable c] (e : TaskOpError) : TaskIo Unit :=
  if c then pure () else throw e

def taskSourceState (name : FileName) (e : TaskOpError) : TaskIo (Option Text) := do
  let found : Except Unit (Option Text) ← perform (.sourceState name)
  orThrow e found

def readTaskArtifact (name : FileName) (e : TaskOpError) : TaskIo Bytes := do
  let found : Except Unit (Option Bytes) ← perform (.read name)
  orThrow e (found.bind fun content => content.elim (.error ()) .ok)

/-- An action whose failure is this error. -/
def writeArtifact (name : FileName) (bytes : Bytes) (e : TaskOpError) : TaskIo Unit := do
  let done : Except Unit Unit ← perform (.write name bytes)
  orThrow e done

def syncArtifact (name : FileName) (e : TaskOpError) : TaskIo Unit := do
  let done : Except Unit Unit ← perform (.sync name)
  orThrow e done

def renameArtifact (source target : FileName) (e : TaskOpError) : TaskIo Unit := do
  let done : Except Unit Unit ← perform (.rename source target)
  orThrow e done

def removeArtifact (name : FileName) (e : TaskOpError) : TaskIo Unit := do
  let done : Except Unit Unit ← perform (.remove name)
  orThrow e done

def createTaskArtifact (name : FileName) : TaskIo (Except CreateError Unit) :=
  perform (.create name)

def cleanConflict (reason : String) : TaskOpError := .cleanRecoveryConflict (some reason)

/-- A file is removed if it still holds what this process wrote. -/
def cleanupOwned (name : FileName) (hash : Text) : TaskIo Unit := do
  let found : Except Unit (Option Text) ← perform (.sourceState name)
  if found.toOption.join = some hash then
    let _removed : Except Unit Unit ← perform (.remove name)
    pure ()
  else pure ()

/-! ### The journal -/

def hashOk (hash : Text) : Bool := hash.length = 64 && hash.all PtyInput.isLowerHexDigit

def stampOk (stamp : Text) : Bool :=
  stamp.length = 15 && stamp[8]? = some '-' &&
    (stamp.zipIdx.all fun c => c.2 = 8 || c.1.isDigit) && crates.parsesStamp stamp

def validSide (side : CleanSide) (stage backup : FileName) (any : Bool) : Bool :=
  side.stage = stage && side.backup = (if any then some backup else none) &&
    side.existed = side.originalHash.isSome && side.originalHash.all hashOk &&
    hashOk side.targetHash

def validateJournal (j : CleanJournal) : Except TaskOpError Unit :=
  if j.schemaVersion ≠ 1 ∨ !crates.isUuid j.txId ∨ !stampOk crates j.stamp ∨ 99 < j.suffix then
    .error (cleanConflict "invalid journal header")
  else
    let any := j.task.existed || j.status.existed
    if !validSide j.task (.taskStage j.txId) (.taskBackup j.stamp j.suffix) any ∨
        !validSide j.status (.statusStage j.txId) (.statusBackup j.stamp j.suffix) any then
      .error (cleanConflict "invalid journal side or basename")
    else .ok ()

def journalFields : List String := ["schemaVersion", "txId", "stamp", "suffix", "task", "status"]

def journalSideFields : List String := ["existed", "originalHash", "targetHash", "backup", "stage"]

def decodeJournal (bytes : Bytes) : Except TaskOpError CleanJournal :=
  if 16384 < bytes.length then .error (cleanConflict "oversized journal")
  else
    match crates.fromSlice bytes with
    | .error e => .error (cleanConflict e)
    | .ok value =>
      if journalFields.any fun field => (value.get field).isNone then
        .error (cleanConflict "missing journal field")
      else if ["task", "status"].any fun side => journalSideFields.any fun field =>
          (((value.get side).getD .null).get field).isNone then
        .error (cleanConflict "missing journal side field")
      else
        match crates.journalFromValue value with
        | .error e => .error (cleanConflict e)
        | .ok journal => (validateJournal crates journal).map fun _ => journal

/-! ### Finishing -/

def verifyBackup (side : CleanSide) : TaskIo Unit :=
  match side.backup with
  | none => pure ()
  | some backup => do
    let found ← taskSourceState backup (.cleanRecoveryConflict none)
    demand (found = some (side.originalHash.getD (crates.hashBytes [])))
      (cleanConflict "missing or changed backup")

def verifyStage (side : CleanSide) (reason : String) : TaskIo Unit := do
  let staged ← taskSourceState side.stage (.cleanRecoveryConflict none)
  demand (staged = some side.targetHash) (cleanConflict reason)

/-- One turn of the loop of `validate_clean_pair`. -/
def validateCleanSide (side : CleanSide) (target : FileName) : TaskIo Unit := do
  let current ← taskSourceState target .cleanRecoveryPending
  demand (current = some side.targetHash ∨ current = side.originalHash)
    (cleanConflict "external edit")
  verifyBackup crates side
  if current = some side.targetHash then pure ()
  else verifyStage side "missing or changed needed stage"

def replaceSide (side : CleanSide) (target : FileName) : TaskIo Unit := do
  let current ← taskSourceState target .cleanRecoveryPending
  if current = some side.targetHash then pure ()
  else do
    demand (current = side.originalHash) (cleanConflict "external edit before replacement")
    let again ← taskSourceState target .cleanRecoveryPending
    demand (again = side.originalHash)
      (cleanConflict "external edit immediately before replacement")
    verifyStage side "stage changed immediately before replacement"
    renameArtifact side.stage target .cleanRecoveryPending

/-- The target has to be what it was to become. -/
def checkTarget (side : CleanSide) (target : FileName) (reason : String) : TaskIo Unit := do
  let current ← taskSourceState target .cleanRecoveryPending
  demand (current = some side.targetHash) (cleanConflict reason)

/-- Whether the target could be synced. -/
def syncSide (side : CleanSide) (target : FileName) : TaskIo Bool := do
  checkTarget side target "target hash changed"
  let synced : Except Unit Unit ← perform (.sync target)
  pure synced.toOption.isSome

def finishClean (journal : CleanJournal) (journalBytes : Bytes) : TaskIo Unit := do
  validateCleanSide crates journal.task .task
  validateCleanSide crates journal.status .status
  replaceSide journal.task .task
  replaceSide journal.status .status
  let taskSynced ← syncSide journal.task .task
  let statusSynced ← syncSide journal.status .status
  demand (taskSynced = true ∧ statusSynced = true) .cleanRecoveryPending
  checkTarget journal.task .task "target changed after sync"
  checkTarget journal.status .status "target changed after sync"
  let found ← readTaskArtifact .journal .cleanRecoveryPending
  demand (found = journalBytes) (cleanConflict "journal changed")
  removeArtifact .journal .cleanRecoveryPending
  cleanupOwned journal.task.stage journal.task.targetHash
  cleanupOwned journal.status.stage journal.status.targetHash

/-- `recover_clean_pair_locked`. -/
def recoverCleanPair : TaskIo Unit := do
  let read : Except Unit (Option Bytes) ← perform (.read .journal)
  let found ← orThrow .cleanRecoveryPending read
  match found with
  | none => pure ()
  | some bytes =>
    match decodeJournal crates bytes with
    | .error e => throw e
    | .ok journal =>
      syncArtifact .journal .cleanRecoveryPending
      finishClean crates journal bytes

/-! ### Cleaning -/

/-- Both backups of the first free suffix, with so many left to try. -/
def reserveBackups (stamp : Text) (n : ℕ) : ℕ → TaskIo ℕ
  | 0 => throw .backupExhausted
  | left + 1 => do
    match ← createTaskArtifact (.taskBackup stamp n) with
    | .error .alreadyExists => reserveBackups stamp (n + 1) left
    | .error .other => throw .writeFailed
    | .ok () =>
      match ← createTaskArtifact (.statusBackup stamp n) with
      | .ok () => pure n
      | .error .alreadyExists => do
        cleanupOwned (.taskBackup stamp n) (crates.hashBytes [])
        reserveBackups stamp (n + 1) left
      | .error .other => do
        cleanupOwned (.taskBackup stamp n) (crates.hashBytes [])
        throw .writeFailed

def verifyArchive (backup : FileName) (original : Option Text) : TaskIo Unit := do
  let found ← taskSourceState backup .writeFailed
  demand (found = some (original.getD (crates.hashBytes [])))
    (cleanConflict "archive source changed")

/-- Both copies. A backup that was finished stays when the other one fails. -/
def copyPair (journal : CleanJournal) (taskBackup statusBackup : FileName) : TaskIo Unit := do
  let taskCopied : Except Text Unit ←
    perform (.copyArchive .task taskBackup journal.task.existed)
  match taskCopied with
  | .error owned => do
    cleanupOwned taskBackup owned
    cleanupOwned statusBackup (crates.hashBytes [])
    throw .writeFailed
  | .ok () => do
    let statusCopied : Except Text Unit ←
      perform (.copyArchive .status statusBackup journal.status.existed)
    match statusCopied with
    | .error owned => do
      cleanupOwned statusBackup owned
      throw .writeFailed
    | .ok () => pure ()

/-- `archive_clean_pair`: the journal with the suffix and the backups that were made. -/
def archiveCleanPair (journal : CleanJournal) : TaskIo CleanJournal :=
  if journal.task.existed || journal.status.existed then do
    let n ← reserveBackups crates journal.stamp 0 100
    copyPair crates journal (.taskBackup journal.stamp n) (.statusBackup journal.stamp n)
    verifyArchive crates (.taskBackup journal.stamp n) journal.task.originalHash
    verifyArchive crates (.statusBackup journal.stamp n) journal.status.originalHash
    pure { journal with
      suffix := n
      task := { journal.task with backup := some (.taskBackup journal.stamp n) }
      status := { journal.status with backup := some (.statusBackup journal.stamp n) } }
  else pure journal

def createOrFail (name : FileName) : TaskIo Unit := do
  let created ← createTaskArtifact name
  match created with
  | .error _ => throw .writeFailed
  | .ok () => pure ()

def stageFile (name : FileName) (bytes : Bytes) : TaskIo Unit := do
  createOrFail name
  writeArtifact name bytes .writeFailed
  syncArtifact name .writeFailed

def publishCleanJournal (journal : CleanJournal) : TaskIo Bytes := do
  let bytes := crates.journalToVec journal
  stageFile (.journalStage journal.txId) bytes
  let foreign : Bool ← perform (.present .journal)
  demand (foreign = false) (cleanConflict "foreign journal appeared")
  renameArtifact (.journalStage journal.txId) .journal .writeFailed
  syncArtifact .journal .cleanRecoveryPending
  pure bytes

/-- `clean_status_is_reset`. -/
def cleanStatusIsReset : TaskIo Bool := do
  let read : Except Unit (Option Bytes) ← perform (.read .status)
  match read.toOption.map (readLatestStatus crates.toStatusCrates) with
  | some (.ok tail) =>
    if tail.torn ≠ [] then pure false
    else if tail.len = 0 then pure true
    else if (tail.record.any fun r => r.kind = "topic_started".toList) &&
        tail.completeLen = tail.bytesRead && tail.bytesRead ≤ statusLimit then
      let bytes ← readTaskArtifact .status .writeFailed
      pure (decide (bytes.count lineFeed = 1))
    else pure false
  | _ => pure false

/-- What a clean takes from outside: its transaction, its stamp, and the topic and time of the
seed. -/
structure CleanRequest where
  tx : Text
  stamp : Text
  topic : Text
  recordedAt : Text
  deriving DecidableEq

inductive CleanOutcome where
  | wrote (backup : Option FileName)
  | noOp
  deriving DecidableEq

def seedBytes (request : CleanRequest) : Bytes :=
  crates.toVec (cleanStatusSeed request.topic request.recordedAt) ++ [lineFeed]

def cleanedBytes (existing : Text) : Bytes := encode (render (applyClean (parseTask existing)))

def newJournal (request : CleanRequest) (existing : Text) (task status : Option Text) :
    CleanJournal where
  schemaVersion := 1
  txId := request.tx
  stamp := request.stamp
  suffix := 0
  task := ⟨task.isSome, task, crates.hashBytes (cleanedBytes existing), none, .taskStage request.tx⟩
  status :=
    ⟨status.isSome, status, crates.hashBytes (seedBytes crates request), none,
      .statusStage request.tx⟩

/-- The steps of `clean_pair_locked` before the journal is published. -/
def prepareClean (request : CleanRequest) (existing : Text) : TaskIo CleanJournal := do
  let originalTask ← taskSourceState .task .writeFailed
  let originalStatus ← taskSourceState .status .writeFailed
  demand (∀ hash ∈ originalTask, hash = crates.hashBytes (encode existing))
    (cleanConflict "description changed before archive")
  let journal ← archiveCleanPair crates
    (newJournal crates request existing originalTask originalStatus)
  stageFile journal.task.stage (cleanedBytes existing)
  stageFile journal.status.stage (seedBytes crates request)
  let task ← taskSourceState .task .writeFailed
  let status ← taskSourceState .status .writeFailed
  demand (task = originalTask ∧ status = originalStatus)
    (cleanConflict "source changed before journal")
  pure journal

def isCleaned (existing : Text) : Bool :=
  let parsed := parseTask existing
  (applyClean parsed).frontmatter = parsed.frontmatter && (applyClean parsed).body = parsed.body

/-- Whether both halves are as a clean would leave them. A log that cannot be read is not. -/
def isReset (existing : Text) : TaskIo Bool :=
  if isCleaned existing then cleanStatusIsReset crates else pure false

def cleanPair (request : CleanRequest) (existing : Text) : TaskIo CleanOutcome := do
  let reset ← isReset crates existing
  if reset then pure .noOp
  else do
    let journal ← prepareClean crates request existing
    let bytes ← publishCleanJournal crates journal
    finishClean crates journal bytes
    pure (.wrote journal.task.backup)

/-- `read_to_string`, and an empty text where there is no file. -/
def readTaskText : TaskIo Text := do
  let read : Except Unit (Option Bytes) ← perform (.read .task)
  let found ← orThrow .readFailed read
  match found with
  | none => pure []
  | some bytes => if isUtf8 bytes then pure (fromUtf8Lossy bytes) else throw .readFailed

/-- `perform_inner` for a clean, under the lock. -/
def performClean (request : CleanRequest) : TaskIo CleanOutcome := do
  recoverCleanPair crates
  let existing ← readTaskText
  cleanPair crates request existing

end AgentsCommander.Tasks
