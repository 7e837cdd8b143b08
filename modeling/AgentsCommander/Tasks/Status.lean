import AgentsCommander.Tasks.Document

/-! The status log of a task: rows of JSON behind one another, the last of them read through a
window, and a torn last row put aside before the next is written. -/
namespace AgentsCommander.Tasks
open Foundation Foundation.Lines Transcript

def statusLimit : ℕ := 65536

def statusWindow : ℕ := 131073

def maxSequence : ℕ := 2 ^ 53 - 1

def lineFeed : UInt8 := 10

def legacyRevision : Text := "legacy:0".toList

structure StatusRecord where
  schemaVersion : ℕ
  kind : Text
  topicId : Text
  sequence : ℕ
  requestId : Option Text
  baseRevision : Option Text
  recordedAt : Text
  author : Option Text
  status : Option Text
  deriving DecidableEq

def revisionOf (topic : Text) (sequence : ℕ) : Text := topic ++ ':' :: Nat.toDigits 10 sequence

def StatusRecord.revision (r : StatusRecord) : Text := revisionOf r.topicId r.sequence

structure StatusReceipt where
  revision : Text
  record : StatusRecord
  replayed : Bool
  deriving DecidableEq

/-- The texts of failed input and output are left out: a conflict that has none is one of those. -/
inductive TaskOpError where
  | invalidStatus (reason : String)
  | statusTooLarge
  | sequenceOverflow
  | requestIdConflict
  | revisionConflict (currentRevision : Text)
  | writeFailed
  | statusSourceChanged
  | readFailed
  | cleanRecoveryPending
  | cleanRecoveryConflict (reason : Option String)
  | backupExhausted
  deriving DecidableEq

/-- What is taken from other packages: JSON, UUIDs, and times with an offset. -/
structure StatusCrates where
  fromSlice : Bytes → Except String Value
  fromValue : Value → Except String StatusRecord
  toVec : StatusRecord → Bytes
  isUuid : Text → Bool
  isUtcTime : Text → Bool

/-- The end of the file: its last record, and what was torn off behind it. -/
structure StatusTail where
  record : Option StatusRecord
  torn : Bytes
  completeLen : ℕ
  len : ℕ
  bytesRead : ℕ
  deriving DecidableEq

def StatusTail.revision (tail : StatusTail) : Text :=
  tail.record.elim legacyRevision StatusRecord.revision

def validateStatusText (text : Text) : Except TaskOpError Unit :=
  if trim text = [] ∨
      text.any fun c => PtyInput.isControl c && !(c = '\n' || c = '\r' || c = '\t') then
    .error (.invalidStatus "empty status or forbidden control character")
  else .ok ()

def validAuthor (author : Text) : Bool :=
  !(author.any fun c => isWhitespace c || PtyInput.isControl c) &&
    (splitOnce '/' author).any fun name =>
      !name.1.isEmpty && !name.2.isEmpty && !name.2.contains '/'

/-- `str::parse::<u64>`. -/
def parseU64 (s : Text) : Option ℕ :=
  let digits := if s.head? = some '+' then s.tail else s
  if digits ≠ [] ∧ digits.all Char.isDigit ∧ Nat.ofDigitChars 10 digits 0 < 2 ^ 64 then
    some (Nat.ofDigitChars 10 digits 0)
  else none

/-- `str::rsplit_once`. -/
def rsplitOnce (sep : Char) (s : Text) : Option (Text × Text) :=
  (splitOnce sep s.reverse).map fun halves => (halves.2.reverse, halves.1.reverse)

def recordFields : List String :=
  ["schemaVersion", "kind", "topicId", "sequence", "requestId", "baseRevision", "recordedAt",
    "author", "status"]

variable (crates : StatusCrates)

def validRevision (revision : Text) : Bool :=
  revision = legacyRevision || (rsplitOnce ':' revision).any fun halves =>
    crates.isUuid halves.1 &&
      (parseU64 halves.2).any fun n => n ≤ maxSequence && Nat.toDigits 10 n = halves.2

/-- The revision a row has to be based on. -/
def expectedBase (r : StatusRecord) : Text :=
  if r.sequence = 1 ∧ r.baseRevision = some legacyRevision then legacyRevision
  else revisionOf r.topicId (r.sequence - 1)

/-- The checks of `validate_record` on a record that was read. -/
def checkRecord (r : StatusRecord) : Except TaskOpError Unit :=
  if r.schemaVersion ≠ 1 ∨ !crates.isUuid r.topicId ∨ maxSequence < r.sequence ∨
      !crates.isUtcTime r.recordedAt then
    .error (.invalidStatus "unsupported schema, topic, sequence or UTC time")
  else if r.kind = "topic_started".toList ∧ r.sequence = 0 ∧ r.requestId = none ∧
      r.baseRevision = none ∧ r.author = none ∧ r.status = none then .ok ()
  else if r.kind = "status".toList ∧ 0 < r.sequence ∧ r.requestId.any crates.isUuid ∧
      r.baseRevision.any (validRevision crates) ∧ r.author.any validAuthor then
    match r.status with
    | none => .error (.invalidStatus "missing status")
    | some text => do
      validateStatusText text
      if r.baseRevision ≠ some (expectedBase r) then
        throw (.invalidStatus "invalid base sequence")
  else .error (.invalidStatus "invalid kind or record semantics")

def validateRecord (bytes : Bytes) : Except TaskOpError StatusRecord :=
  if statusLimit < bytes.length + 1 then
    .error (.invalidStatus "completed row exceeds 65536 bytes")
  else
    match crates.fromSlice bytes with
    | .error e => .error (.invalidStatus ("invalid completed JSON: " ++ e))
    | .ok value =>
      match recordFields.find? fun field => (value.get field).isNone with
      | some field => .error (.invalidStatus ("missing " ++ field))
      | none =>
        match crates.fromValue value with
        | .error e => .error (.invalidStatus ("invalid record shape: " ++ e))
        | .ok r => (checkRecord crates r).map fun _ => r

/-- The last complete row of the window, which starts so far into the file. -/
def lastRow (start : ℕ) (window : Bytes) (lf : ℕ) : Except TaskOpError StatusRecord :=
  let rowStart := (rposition lineFeed (window.take lf)).elim 0 (· + 1)
  if rowStart = 0 ∧ start ≠ 0 then .error (.invalidStatus "oversized completed row")
  else validateRecord crates ((window.take lf).drop rowStart)

def readLatestStatus : Option Bytes → Except TaskOpError StatusTail
  | none => .ok ⟨none, [], 0, 0, 0⟩
  | some content =>
    let start := content.length - statusWindow
    let window := content.drop start
    let lastLf := rposition lineFeed window
    let finish := lastLf.elim 0 (· + 1)
    let torn := window.drop finish
    if statusLimit ≤ torn.length ∨ (lastLf = none ∧ start ≠ 0) then
      .error (.invalidStatus "partial suffix exceeds 65535 bytes")
    else
      match lastLf with
      | none => .ok ⟨none, torn, start + finish, content.length, window.length⟩
      | some lf =>
        (lastRow crates start window lf).map fun r =>
          ⟨some r, torn, start + finish, content.length, window.length⟩

/-- The log, the torn ends put aside, and the logs that a clean archived. -/
structure StatusLog where
  file : Option Bytes
  saved : List Bytes
  archives : List (Option Bytes)
  deriving DecidableEq

/-- Where an attempt is cut short, by an error or by the end of the process. -/
inductive Stop where
  | never
  | read
  | replaySync
  | backup
  | truncate
  | truncateSync
  | openAppend
  | written (count : ℕ)
  | sync
  deriving DecidableEq

structure AppendArgs where
  expectedRevision : Text
  requestId : Text
  text : Text
  author : Text
  deriving DecidableEq

/-- One call of `append_status`: the UUID and the time it would use, and where it stops. -/
structure Attempt where
  args : AppendArgs
  topic : Text
  recordedAt : Text
  stop : Stop
  deriving DecidableEq

/-- The answer to a request that the last record already holds. -/
def replay (args : AppendArgs) (tail : StatusTail) : Option (Except TaskOpError StatusReceipt) :=
  match tail.record with
  | none => none
  | some last =>
    if last.requestId = some args.requestId then
      if last.baseRevision ≠ some args.expectedRevision ∨ last.author ≠ some args.author ∨
          last.status ≠ some args.text then some (.error .requestIdConflict)
      else some (.ok ⟨tail.revision, last, true⟩)
    else none

/-- The topic and the sequence of the next row. -/
def nextPlace (topic : Text) (tail : StatusTail) : Except TaskOpError (Text × ℕ) :=
  match tail.record with
  | some r => if r.sequence = maxSequence then .error .sequenceOverflow
    else .ok (r.topicId, r.sequence + 1)
  | none => .ok (topic, 1)

def statusRecord (a : Attempt) (topic : Text) (sequence : ℕ) : StatusRecord where
  schemaVersion := 1
  kind := "status".toList
  topicId := topic
  sequence := sequence
  requestId := some a.args.requestId
  baseRevision := some a.args.expectedRevision
  recordedAt := a.recordedAt
  author := some a.args.author
  status := some a.args.text

def newRecord (a : Attempt) (tail : StatusTail) : Except TaskOpError StatusRecord := do
  validateStatusText a.args.text
  if !crates.isUuid a.args.requestId ∨ !validRevision crates a.args.expectedRevision ∨
      !validAuthor a.args.author then
    throw (.invalidStatus "invalid request, revision or author")
  if a.args.expectedRevision ≠ tail.revision then throw (.revisionConflict tail.revision)
  let place ← nextPlace a.topic tail
  return statusRecord a place.1 place.2

def unchanged (log : StatusLog) (tail : StatusTail) : Except TaskOpError Unit :=
  (readLatestStatus crates log.file).bind fun current =>
    if current.len = tail.len ∧ current.torn = tail.torn ∧
        current.completeLen = tail.completeLen ∧ current.record = tail.record then .ok ()
    else .error .statusSourceChanged

/-- `repair_partial_locked`. -/
def repairTorn (stop : Stop) (log : StatusLog) (tail : StatusTail) :
    StatusLog × Except TaskOpError Unit :=
  if tail.torn = [] then (log, .ok ())
  else
    match unchanged crates log tail with
    | .error e => (log, .error e)
    | .ok () =>
      if stop = .backup then (log, .error .writeFailed)
      else
        let kept := { log with saved := log.saved ++ [tail.torn] }
        match unchanged crates kept tail with
        | .error e => (kept, .error e)
        | .ok () =>
          if stop = .truncate then (kept, .error .writeFailed)
          else
            let cut := { kept with file := kept.file.map (·.take tail.completeLen) }
            (cut, if stop = .truncateSync then .error .writeFailed else .ok ())

/-- The row goes to the end of the file, or so much of it as is written before the stop. -/
def appendRow (stop : Stop) (log : StatusLog) (row : Bytes) (receipt : StatusReceipt) :
    StatusLog × Except TaskOpError StatusReceipt :=
  let content := log.file.getD []
  match stop with
  | .openAppend => (log, .error .writeFailed)
  | .written count => ({ log with file := some (content ++ row.take count) }, .error .writeFailed)
  | .sync => ({ log with file := some (content ++ row) }, .error .writeFailed)
  | _ => ({ log with file := some (content ++ row) }, .ok receipt)

def appendStatus (a : Attempt) (log : StatusLog) : StatusLog × Except TaskOpError StatusReceipt :=
  if a.stop = .read then (log, .error .readFailed)
  else
    match readLatestStatus crates log.file with
    | .error e => (log, .error e)
    | .ok tail =>
      match replay a.args tail with
      | some answer =>
        (log, answer.bind fun receipt =>
          if a.stop = .replaySync then .error .writeFailed else .ok receipt)
      | none =>
        match newRecord crates a tail with
        | .error e => (log, .error e)
        | .ok record =>
          let row := crates.toVec record ++ [lineFeed]
          if statusLimit < row.length then (log, .error .statusTooLarge)
          else
            match repairTorn crates a.stop log tail with
            | (repaired, .error e) => (repaired, .error e)
            | (repaired, .ok ()) => appendRow a.stop repaired row ⟨record.revision, record, false⟩

def cleanStatusSeed (topic recordedAt : Text) : StatusRecord where
  schemaVersion := 1
  kind := "topic_started".toList
  topicId := topic
  sequence := 0
  requestId := none
  baseRevision := none
  recordedAt := recordedAt
  author := none
  status := none

/-- A call of `append_status`, or the commit of a clean. -/
inductive StatusEvent where
  | append (a : Attempt)
  | clean (topic recordedAt : Text)
  deriving DecidableEq

def statusMachine :
    Machine StatusLog StatusEvent (Option (Except TaskOpError StatusReceipt)) where
  step log event :=
    match event with
    | .append a =>
      let result := appendStatus crates a log
      (result.1, some result.2)
    | .clean topic recordedAt =>
      ({ log with
          file := some (crates.toVec (cleanStatusSeed topic recordedAt) ++ [lineFeed])
          archives := log.archives ++ [log.file] }, none)

end AgentsCommander.Tasks
