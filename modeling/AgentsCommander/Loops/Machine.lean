import AgentsCommander.Foundation.Program
import AgentsCommander.Loops.Config

/-! One Loop's directory, the scheduler's memory, the locks, and the atomic actions that
the scheduler, the Loop commands and the CLI take on them. -/
namespace AgentsCommander.Loops
open Foundation

inductive LoopFile where
  | config
  | state
  | legacyState
  deriving DecidableEq, Repr

def LoopFile.name : LoopFile → String
  | .config => "config.toml"
  | .state => "loop.state.no-git.json"
  | .legacyState => "state.json"

/-- A line of `audit.jsonl`: a row, or text that does not parse as one. -/
inductive AuditLine where
  | row (entry : LoopAuditEntry)
  | malformed (utf8 : Bool)
  deriving DecidableEq, Repr

def AuditLine.utf8 : AuditLine → Bool
  | .row _ => true
  | .malformed utf8 => utf8

def AuditLine.entry : AuditLine → Option LoopAuditEntry
  | .row entry => some entry
  | .malformed _ => none

/-- `audit.jsonl` by its lines; the last one may still lack its newline. -/
structure AuditFile where
  lines : List AuditLine := []
  terminated : Bool := true
  deriving DecidableEq, Repr

/-- Text added to an unfinished line leaves a line that does not parse. -/
def AuditFile.add (file : AuditFile) (line : AuditLine) : AuditFile :=
  match file.terminated, file.lines.getLast? with
  | false, some last =>
    { lines := file.lines.dropLast ++ [.malformed (last.utf8 && line.utf8)], terminated := false }
  | _, _ => { lines := file.lines ++ [line], terminated := false }

def AuditFile.rows (file : AuditFile) : List LoopAuditEntry := file.lines.filterMap AuditLine.entry

structure LoopDirectory where
  config : Option Bytes := none
  state : Option Bytes := none
  legacyState : Option Bytes := none
  audit : Option AuditFile := none
  deriving DecidableEq, Repr

namespace LoopDirectory

def content (d : LoopDirectory) : LoopFile → Option Bytes
  | .config => d.config
  | .state => d.state
  | .legacyState => d.legacyState

def put (d : LoopDirectory) (bytes : Bytes) : LoopFile → LoopDirectory
  | .config => { d with config := some bytes }
  | .state => { d with state := some bytes }
  | .legacyState => { d with legacyState := some bytes }

/-- `state.json` moved to its new name; where both exist the old one is set aside. -/
def migrated (d : LoopDirectory) : LoopDirectory :=
  { d with state := d.state.or d.legacyState, legacyState := none }

/-- The move stopped after the link, before the old name was removed. -/
def linked (d : LoopDirectory) : LoopDirectory :=
  { d with state := d.state.or d.legacyState }

/-- What a removal that failed half way left. -/
def remains (d : LoopDirectory) (config state legacyState audit : Bool) : LoopDirectory where
  config := if config then d.config else none
  state := if state then d.state else none
  legacyState := if legacyState then d.legacyState else none
  audit := if audit then d.audit else none

/-- The bytes of the state, under whichever name it has. -/
def raw (d : LoopDirectory) : Option Bytes := d.state.or d.legacyState

end LoopDirectory

/-- A thread of the application, or one command of the CLI. -/
inductive Thread where
  | app (n : ℕ)
  | cli (n : ℕ)
  deriving DecidableEq, Repr

structure UnrecordedDelivery where
  generation : ℕ
  config : LoopConfigToml
  entry : LoopAuditEntry
  reportMessage : String
  delivered : LoopState
  stateBefore : Option Bytes
  stateAfter : Bytes
  deriving DecidableEq, Repr

/-- What the threads share: the directory, the three locks, the Loop's generation and the
delivery whose commit failed. -/
structure World where
  disk : Option LoopDirectory := none
  scanLock : Option Thread := none
  ioLock : Option Thread := none
  loopLock : Option Thread := none
  generation : ℕ := 0
  unrecordedDelivery : Option UnrecordedDelivery := none
  deriving DecidableEq, Repr

def World.raw (w : World) : Option Bytes := w.disk.bind (·.raw)

def World.config (w : World) : Option Bytes := w.disk.bind (·.config)

def World.rows (w : World) : List LoopAuditEntry :=
  ((w.disk.bind (·.audit)).map AuditFile.rows).getD []

/-- Who asks for a delivery. -/
inductive Origin where
  | scan
  | runLoopNow
  deriving DecidableEq, Repr

inductive IoError where
  | notFound
  | invalidData
  | other
  deriving DecidableEq, Repr

def IoError.text : IoError → String
  | .notFound => "entity not found"
  | .invalidData => "stream did not contain valid UTF-8"
  | .other => "i/o error"

/-- Marks of the run that no code reads. -/
inductive Note where
  | snapshot (generation : ℕ) (raw : Option Bytes)
  | commitEntered
  | commitLeft
  | prepared (after : Option Bytes)
  | reportApplied (config : LoopConfigToml) (generation : ℕ) (raw : Option Bytes) (failed : Bool)
  deriving DecidableEq, Repr

inductive Act where
  | acquireScanLock
  | releaseScanLock
  | acquireIoLock
  | releaseIoLock
  | canonicalLoopRoot
  | openLoopLock
  | moveLegacyState
  | releaseLoopLock
  | loopGeneration
  | bumpLoopGeneration
  | isDir
  | isFile (f : LoopFile)
  | readDocument (f : LoopFile)
  | readBytes (f : LoopFile)
  | createDirectory
  | stage
  | replace (f : LoopFile) (bytes : Bytes)
  | removeDirectory
  | auditExists
  | readAudit
  | appendLine (entry : LoopAuditEntry)
  | appendNewline
  | now
  | newUuid
  | resolveLoopTarget (workgroup : String)
  | deliver (origin : Origin) (config : LoopConfigToml) (run : Uuid) (due : DateTime)
  | keepUnrecordedDelivery (record : UnrecordedDelivery)
  | peekUnrecordedDelivery
  | takeUnrecordedDelivery
  | emit (kind : String) (message : Option String)
  | note (n : Note)
  deriving DecidableEq, Repr

def Act.Res : Act → Type
  | .canonicalLoopRoot | .openLoopLock | .createDirectory | .stage | .replace _ _
  | .removeDirectory | .appendLine _ | .appendNewline => Except IoError Unit
  | .loopGeneration => ℕ
  | .isDir | .isFile _ | .auditExists => Bool
  | .readDocument _ | .readBytes _ => Except IoError Bytes
  | .readAudit => Except IoError (List AuditLine)
  | .now => DateTime
  | .newUuid => Uuid
  | .resolveLoopTarget _ => Except String Unit
  | .deliver _ _ _ _ => LoopDeliveryReport
  | .peekUnrecordedDelivery | .takeUnrecordedDelivery => Option UnrecordedDelivery
  | _ => Unit

abbrev loopInterface : Interface := ⟨Act, Act.Res⟩
abbrev LoopProgram := Program loopInterface

/-- What the environment decides about one action. -/
inductive Choice where
  | ok
  | fault
  | halfway
  | torn (utf8 : Bool)
  | left (config state legacyState audit : Bool)
  | time (now : DateTime)
  | fresh (id : Uuid)
  | report (report : LoopDeliveryReport)
  deriving DecidableEq, Repr

namespace World

/-- `std::fs::read`. -/
def readBytes (w : World) (f : LoopFile) (x : Choice) : Except IoError Bytes :=
  if x = .fault then .error .other
  else match w.disk.bind (·.content f) with
    | none => .error .notFound
    | some bytes => .ok bytes

/-- `std::fs::read_to_string`. -/
def readDocument (w : World) (f : LoopFile) (x : Choice) : Except IoError Bytes := do
  let bytes ← w.readBytes f x
  if ByteArray.validateUTF8 ⟨bytes.toArray⟩ then return bytes else throw .invalidData

def readAudit (w : World) (x : Choice) : Except IoError (List AuditLine) :=
  if x = .fault then .error .other
  else match w.disk.bind (·.audit) with
    | none => .error .notFound
    | some file => if file.lines.all (·.utf8) then .ok file.lines else .error .invalidData

/-- A change of the directory that the environment may refuse. -/
def change (w : World) (x : Choice) (f : LoopDirectory → LoopDirectory) :
    Except IoError Unit × World :=
  if x = .fault then (.error .other, w)
  else match w.disk with
    | none => (.error .notFound, w)
    | some d => (.ok (), { w with disk := some (f d) })

def createDirectory (w : World) (x : Choice) : Except IoError Unit × World :=
  if x = .fault then (.error .other, w)
  else (.ok (), { w with disk := some (w.disk.getD {}) })

def removeDirectory (w : World) (x : Choice) : Except IoError Unit × World :=
  match x, w.disk with
  | .fault, _ => (.error .other, w)
  | _, none => (.error .notFound, w)
  | .left c s l a, some d => (.error .other, { w with disk := some (d.remains c s l a) })
  | _, some _ => (.ok (), { w with disk := none })

def moveLegacyState (w : World) (x : Choice) : World :=
  match x with
  | .fault => w
  | .halfway => { w with disk := w.disk.map (·.linked) }
  | _ => { w with disk := w.disk.map (·.migrated) }

/-- The line reaches the file whole, in part, or not at all. -/
def appendLine (w : World) (entry : LoopAuditEntry) (x : Choice) : Except IoError Unit × World :=
  match x, w.disk with
  | .fault, _ => (.error .other, w)
  | _, none => (.error .notFound, w)
  | .torn utf8, some d =>
    (.error .other, { w with disk := some { d with
      audit := some ((d.audit.getD {}).add (.malformed utf8)) } })
  | _, some d =>
    (.ok (), { w with disk := some { d with audit := some ((d.audit.getD {}).add (.row entry)) } })

def appendNewline (w : World) (x : Choice) : Except IoError Unit × World :=
  w.change x fun d => { d with audit := d.audit.map fun file => { file with terminated := true } }

def act (t : Thread) : (o : Act) → Choice → World → Option (o.Res × World)
  | .acquireScanLock, _, w => if w.scanLock = none then some ((), { w with scanLock := some t })
    else none
  | .releaseScanLock, _, w => some ((), if w.scanLock = some t then { w with scanLock := none }
    else w)
  | .acquireIoLock, _, w => if w.ioLock = none then some ((), { w with ioLock := some t }) else none
  | .releaseIoLock, _, w => some ((), if w.ioLock = some t then { w with ioLock := none } else w)
  | .canonicalLoopRoot, x, w => some (if x = .fault then .error .other else .ok (), w)
  | .openLoopLock, x, w => if x = .fault then some (.error .other, w)
    else if w.loopLock = none then some (.ok (), { w with loopLock := some t }) else none
  | .moveLegacyState, x, w => some ((), w.moveLegacyState x)
  | .releaseLoopLock, _, w => some ((), if w.loopLock = some t then { w with loopLock := none }
    else w)
  | .loopGeneration, _, w => some (w.generation, w)
  | .bumpLoopGeneration, _, w => some ((), { w with generation := w.generation + 1 })
  | .isDir, _, w => some (w.disk.isSome, w)
  | .isFile f, _, w => some ((w.disk.bind (·.content f)).isSome, w)
  | .readDocument f, x, w => some (w.readDocument f x, w)
  | .readBytes f, x, w => some (w.readBytes f x, w)
  | .createDirectory, x, w => some (w.createDirectory x)
  | .stage, x, w => some (w.change x id)
  | .replace f bytes, x, w => some (w.change x (·.put bytes f))
  | .removeDirectory, x, w => some (w.removeDirectory x)
  | .auditExists, _, w => some ((w.disk.bind (·.audit)).isSome, w)
  | .readAudit, x, w => some (w.readAudit x, w)
  | .appendLine entry, x, w => some (w.appendLine entry x)
  | .appendNewline, x, w => some (w.appendNewline x)
  | .now, .time now, w => some (now, w)
  | .now, _, _ => none
  | .newUuid, .fresh id, w => some (id, w)
  | .newUuid, _, _ => none
  | .resolveLoopTarget _, x, w =>
    some (if x = .fault then .error "Room not found or without orchestrator" else .ok (), w)
  | .deliver _ _ _ _, .report r, w => some (r, w)
  | .deliver _ _ _ _, _, _ => none
  | .keepUnrecordedDelivery record, _, w => some ((), { w with unrecordedDelivery := some record })
  | .peekUnrecordedDelivery, _, w => some (w.unrecordedDelivery, w)
  | .takeUnrecordedDelivery, _, w => some (w.unrecordedDelivery, { w with unrecordedDelivery := none })
  | .emit _ _, _, w => some ((), w)
  | .note _, _, w => some ((), w)

/-- The process, or one CLI command, is gone: its locks are free, its memory is lost. -/
def kill (dead : Thread → Bool) (w : World) : World where
  disk := w.disk
  scanLock := w.scanLock.filter fun t => !dead t
  ioLock := w.ioLock.filter fun t => !dead t
  loopLock := w.loopLock.filter fun t => !dead t
  generation := if dead (.app 0) then 0 else w.generation
  unrecordedDelivery := if dead (.app 0) then none else w.unrecordedDelivery

end World

/-- The application dies whole; a CLI command dies alone. -/
def MayDie (dead : Thread → Bool) : Prop :=
  ((∀ n, dead (.app n) = true) ∧ ∀ n, dead (.cli n) = false) ∨ ∃ n, ∀ t, dead t = (t == .cli n)

end AgentsCommander.Loops
