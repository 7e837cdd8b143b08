import AgentsCommander.Foundation.Machine
import AgentsCommander.Transcript.Lines
import Mathlib.Logic.Function.Basic

/-! The reader of Claude transcripts, poll by poll, over files that only grow. -/
namespace AgentsCommander.Transcript
open Foundation

abbrev Path := String

/-- Nanoseconds. -/
def second : ℤ := 1000000000

def rotationStaleSecs : ℤ := 3
@[irreducible] def preambleMaxBytes : ℕ := 64 * 1024
def raceGraceSecs : ℤ := 5
def pinnedAttachWaitSecs : ℤ := 30

/-- What a listing of the directory shows. -/
structure DirEntry where
  path : Path
  stem : String
  extension : Option String
  modified : Option ℤ
  isFile : Bool
  deriving DecidableEq, Repr

def newer (best : Option (Path × ℤ)) (entry : DirEntry) : Option (Path × ℤ) :=
  if entry.extension ≠ some "jsonl" then best
  else match entry.modified, best with
    | some modified, some (_, bestTime) =>
      if bestTime < modified then some (entry.path, modified) else best
    | some modified, none => some (entry.path, modified)
    | none, _ => best

/-- `none`: the directory could not be read. -/
def findLatestJsonl (entries : Option (List DirEntry)) : Option Path :=
  entries.bind fun entries => (entries.foldl newer none).map (·.1)

def eqIgnoreAsciiCase (a b : String) : Bool :=
  a.toList.map Char.toLower = b.toList.map Char.toLower

def findPinnedJsonl (entries : Option (List DirEntry)) (transcriptId : String) : Option Path :=
  entries.bind fun entries => (entries.find? fun entry => entry.extension = some "jsonl" &&
    eqIgnoreAsciiCase entry.stem transcriptId && entry.isFile).map (·.path)

inductive AttachDecision where
  | wait
  | pinned (path : Path)
  | mtime (path : Path)
  | mtimeFallback (path : Path)
  | nothing
  deriving DecidableEq, Repr

structure AttachInputs where
  transcriptId : Option String
  pinned : Option Path
  newest : Option Path
  firstPoll : Bool
  deadlineExpired : Bool

def decideAttach (inputs : AttachInputs) : AttachDecision :=
  let byMtime := inputs.newest.elim .nothing .mtime
  if inputs.transcriptId = none then byMtime
  else match inputs.firstPoll, inputs.pinned with
    | true, some _ => byMtime
    | true, none => .wait
    | false, some path => .pinned path
    | false, none =>
      if inputs.deadlineExpired then inputs.newest.elim .nothing .mtimeFallback else .wait

def runsFirstAttachDecision (firstAttachDone hasCurrentFile : Bool) : Bool :=
  !firstAttachDone && !hasCurrentFile

inductive RecordOrigin where
  | preamble | live | rotationBackfill
  deriving DecidableEq, Repr

structure CapturedRecord where
  text : Text
  turnId : Option Text
  file : Path
  recordStart : Option ℕ
  readerSeq : ℕ
  origin : RecordOrigin
  deriving DecidableEq

/-- A record that was delivered, where its line was found, and who took it. -/
structure Delivery where
  record : CapturedRecord
  lineAt : ℕ
  toSink : Bool
  toBuffer : Bool
  deriving DecidableEq

def Delivery.heard (d : Delivery) : Bool := d.toSink || d.toBuffer

structure ClaudeReader where
  hasSink : Bool
  hasDest : Bool
  readerSeq : ℕ
  rotationBackfillPending : Bool
  attachTime : ℤ
  currentFile : Option Path
  currentFileMtime : Option ℤ
  fileOffset : ℕ
  lineRemainder : Bytes
  pinId : Option String
  firstPoll : Bool
  firstAttachDone : Bool
  waitDeadline : Option ℤ
  delivered : List Delivery

/-- Where a poll stands between two of its looks at the files. -/
inductive Phase where
  | idle
  | decided (latest : Option Path) (pinnedAttach : Bool)
  | scanning (path : Path) (pinnedAttach : Bool) (initialLen : ℕ)
  | switched
  | opened (path : Path) (fileLen : ℕ)
  deriving DecidableEq, Repr

/-- The lines of the window from `start` on, and the unterminated last one. -/
def windowLines (start : ℕ) (content : Bytes) : List (ℕ × Bytes) × (ℕ × Bytes) :=
  let buf := content.drop start
  if start = 0 then linesFrom 0 [] buf
  else match buf.findIdx? (· = newline) with
    | some i => linesFrom (start + i + 1) [] (buf.drop (i + 1))
    | none => ([], (start, []))

def preambleLines (initialLen : ℕ) (content : Bytes) : List (ℕ × Bytes) × (ℕ × Bytes) :=
  windowLines (initialLen - preambleMaxBytes) content

def stripCr (line : Text) : Text :=
  if line.getLast? = some '\r' then line.dropLast else line

section
variable (crates : Crates)

def acceptPreamble (attachTime : ℤ) (start : ℕ) (line : Text) : Option (ℕ × Text) :=
  (claudePreambleExtractor crates line).bind fun found =>
    if attachTime - raceGraceSecs * second ≤ found.1 then some (start, found.2) else none

/-- What the scan takes of the last line, when that is not terminated. -/
def preambleTail (attachTime : ℤ) (initialLen : ℕ) (content : Bytes) : Option (ℕ × Text) :=
  let tail := (preambleLines initialLen content).2
  if tail.2 = [] then none else acceptPreamble crates attachTime tail.1 (fromUtf8Lossy tail.2)

/-- The bodies with the starts of their lines, and the new offset. -/
def readPreambleForRace (attachTime : ℤ) (initialLen : ℕ) (content : Bytes) :
    List (ℕ × Text) × ℕ :=
  let start := initialLen - preambleMaxBytes
  ((preambleLines initialLen content).1.filterMap (fun line =>
      acceptPreamble crates attachTime line.1 (stripCr (fromUtf8Lossy line.2))) ++
    (preambleTail crates attachTime initialLen content).toList,
    start + (content.drop start).length)

/-- The lines, the offset and the remainder; no lines where the read failed. -/
def readNewLinesWithStarts (fileLen : ℕ) (content : Option Bytes) (offset : ℕ)
    (remainder : Bytes) : Option (List (ℕ × Text)) × ℕ × Bytes :=
  if fileLen < offset then (some [], fileLen, [])
  else if fileLen ≤ offset then (some [], offset, remainder)
  else match content with
    | none => (none, offset, remainder)
    | some content =>
      let buf := content.drop offset
      if isUtf8 buf then
        let (lines, tail) := linesFrom (offset - remainder.length) [] (remainder ++ buf)
        (some (lines.filterMap fun line =>
            let trimmed := trim (fromUtf8Lossy line.2)
            if trimmed = [] then none else some (line.1, trimmed)),
          offset + buf.length, tail.2)
      else (none, offset, remainder)

namespace ClaudeReader
variable (r : ClaudeReader)

def new (hasSink hasDest : Bool) (attachTime : ℤ) (pinId : Option String) : ClaudeReader where
  hasSink := hasSink
  hasDest := hasDest
  readerSeq := 0
  rotationBackfillPending := false
  attachTime := attachTime
  currentFile := none
  currentFileMtime := none
  fileOffset := 0
  lineRemainder := []
  pinId := pinId
  firstPoll := true
  firstAttachDone := false
  waitDeadline := none
  delivered := []

/-- `capture_record`, handed to the sink and to the buffer. -/
def deliver (text : Text) (turnId : Option Text) (recordStart : Option ℕ) (origin : RecordOrigin)
    (file : Path) (lineAt : ℕ) : ClaudeReader :=
  let record : CapturedRecord := ⟨text, turnId, file, recordStart, r.readerSeq, origin⟩
  { r with
    readerSeq := r.readerSeq + 1
    delivered := r.delivered ++ [⟨record, lineAt, r.hasSink, r.hasDest⟩] }

def captureLiveLines (newLines : List (ℕ × Text)) (file : Path) (origin : RecordOrigin) :
    ClaudeReader :=
  newLines.foldl (fun r line =>
    match extractAssistantTextWithTurn crates line.2 with
    | some (text, turnId) => r.deliver text turnId (some line.1) origin file line.1
    | none => r) r

def capturePreambleBodies (bodies : List (ℕ × Text)) (file : Path) (origin : RecordOrigin) :
    ClaudeReader :=
  bodies.foldl (fun r body => r.deliver body.2 none none origin file body.1) r

/-- The file this poll should read, and whether it is a pinned attach. -/
def attachTarget (entries pinnedEntries : Option (List DirEntry)) (now : ℤ) :
    ClaudeReader × Option Path × Bool :=
  let newest := findLatestJsonl entries
  if runsFirstAttachDecision r.firstAttachDone r.currentFile.isSome then
    let decision := decideAttach {
      transcriptId := r.pinId
      pinned := r.pinId.bind (findPinnedJsonl pinnedEntries)
      newest := newest
      firstPoll := r.firstPoll
      deadlineExpired := r.waitDeadline.any fun d => decide (d ≤ now) }
    let waitDeadline := if decision = .wait ∧ r.waitDeadline = none then
      some (now + pinnedAttachWaitSecs * second) else r.waitDeadline
    let decided := { r with firstPoll := false, waitDeadline := waitDeadline }
    match decision with
    | .pinned path => (decided, some path, true)
    | .mtime path | .mtimeFallback path => (decided, some path, false)
    | .wait | .nothing => (decided, none, false)
  else (r, newest, false)

def shouldSwitch (wall : ℤ) : Bool :=
  match r.currentFile, r.currentFileMtime with
  | some _, some mtime => wall < mtime || decide (rotationStaleSecs * second ≤ wall - mtime)
  | _, _ => true

/-- The end of `switch_file`. -/
def follow (latest : Option Path) (modified : Option ℤ) : ClaudeReader :=
  { r with
    currentFile := latest
    firstAttachDone := r.firstAttachDone || latest.isSome
    currentFileMtime := latest.bind fun _ => modified
    lineRemainder := [] }

/-- The scan of a first attach. -/
def firstAttachScan (path : Path) (pinnedAttach : Bool) (initialLen : ℕ) (content : Bytes) :
    ClaudeReader :=
  let origin := if pinnedAttach then RecordOrigin.live else .preamble
  let (bodies, fileLen) := readPreambleForRace crates r.attachTime initialLen content
  { r.capturePreambleBodies bodies path origin with fileOffset := fileLen }

/-- `content`: what is read, `none` if that fails. -/
def readNewLines (path : Path) (fileLen : ℕ) (content : Option Bytes) (modified : Option ℤ) :
    ClaudeReader :=
  let (newLines, offset, remainder) :=
    readNewLinesWithStarts fileLen content r.fileOffset r.lineRemainder
  let moved := { r with fileOffset := offset, lineRemainder := remainder }
  match newLines with
  | some newLines =>
    let backfill := r.rotationBackfillPending && !newLines.isEmpty
    let origin := if backfill then RecordOrigin.rotationBackfill else .live
    let started := { moved with
      rotationBackfillPending := r.rotationBackfillPending && newLines.isEmpty }
    { started.captureLiveLines crates newLines path origin with currentFileMtime := modified }
  | none => moved

end ClaudeReader

structure World where
  files : Path → Bytes
  reader : ClaudeReader
  phase : Phase
  /-- The offset at which the current file was attached. -/
  attachedAt : ℕ

inductive Event where
  | append (path : Path) (bytes : Bytes)
  | onDestChange (attaching : Bool)
  | attachTarget (entries pinnedEntries : Option (List DirEntry)) (now : ℤ)
  /-- `scanned`, `measured`: the metadata of the scan and of its fallback could be read. -/
  | switchFile (wall : ℤ) (scanned measured : Bool) (modified : Option ℤ)
  | scanRead (ok measured : Bool) (modified : Option ℤ)
  | openFile (ok : Bool)
  | readFile (ok : Bool) (modified : Option ℤ)
  deriving DecidableEq, Repr

namespace World
variable (w : World)

def new (files : Path → Bytes) (reader : ClaudeReader) : World := ⟨files, reader, .idle, 0⟩

/-- The reader follows the file from its offset on. -/
def follow (reader : ClaudeReader) (latest : Option Path) (modified : Option ℤ) : World :=
  { w with
    reader := reader.follow latest modified
    phase := .switched
    attachedAt := reader.fileOffset }

/-- The scan failed: only what is appended from now on is read. -/
def skipTo (path : Path) (measured : Bool) : ClaudeReader :=
  { w.reader with fileOffset := if measured then (w.files path).length else 0 }

def switchFile (wall : ℤ) (scanned measured : Bool) (modified : Option ℤ) : World :=
  match w.phase with
  | .decided latest pinnedAttach =>
    if latest = w.reader.currentFile ∨ w.reader.shouldSwitch wall = false then
      { w with phase := .switched }
    else match w.reader.currentFile, latest with
      | none, some path =>
        if scanned then { w with phase := .scanning path pinnedAttach (w.files path).length }
        else w.follow (w.skipTo path measured) latest modified
      | none, none => w.follow { w.reader with fileOffset := 0 } latest modified
      | some _, _ =>
        w.follow { w.reader with fileOffset := 0, rotationBackfillPending := true } latest modified
  | _ => w

def scanRead (ok measured : Bool) (modified : Option ℤ) : World :=
  match w.phase with
  | .scanning path pinnedAttach initialLen =>
    if ok then
      w.follow (w.reader.firstAttachScan crates path pinnedAttach initialLen (w.files path))
        (some path) modified
    else w.follow (w.skipTo path measured) (some path) modified
  | _ => w

def openFile (ok : Bool) : World :=
  match w.phase, w.reader.currentFile with
  | .switched, some path =>
    if ok then { w with phase := .opened path (w.files path).length } else { w with phase := .idle }
  | .switched, none => { w with phase := .idle }
  | _, _ => w

def readFile (ok : Bool) (modified : Option ℤ) : World :=
  match w.phase with
  | .opened path fileLen =>
    let content := if ok then some (w.files path) else none
    { w with
      reader := w.reader.readNewLines crates path fileLen content modified
      phase := .idle }
  | _ => w

def step : Event → World × Unit
  | .append path bytes =>
    ({ w with files := Function.update w.files path (w.files path ++ bytes) }, ())
  | .onDestChange attaching =>
    (if w.phase = .idle then { w with reader := { w.reader with hasDest := attaching } } else w, ())
  | .attachTarget entries pinnedEntries now =>
    if w.phase = .idle then
      let (reader, latest, pinnedAttach) := w.reader.attachTarget entries pinnedEntries now
      ({ w with reader, phase := .decided latest pinnedAttach }, ())
    else (w, ())
  | .switchFile wall scanned measured modified => (w.switchFile wall scanned measured modified, ())
  | .scanRead ok measured modified => (w.scanRead crates ok measured modified, ())
  | .openFile ok => (w.openFile ok, ())
  | .readFile ok modified => (w.readFile crates ok modified, ())

end World

def claudeReader : Machine World Event Unit := ⟨World.step crates⟩

end

end AgentsCommander.Transcript
