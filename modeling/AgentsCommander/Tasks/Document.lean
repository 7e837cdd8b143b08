import AgentsCommander.Foundation.Lines
import AgentsCommander.Foundation.Machine
import AgentsCommander.PtyInput.Contract
import AgentsCommander.Transcript.Text

/-! The task document: a frontmatter and a body, the edits of both, and the owner of the title. -/
namespace AgentsCommander.Tasks
open Foundation Foundation.Lines Transcript

def userTitlePrefix : Text := "USER:".toList

/-- U+FEFF. -/
def byteOrderMark : Char := '\ufeff'

def delimiter : Text := "---".toList

/-- `str::trim_start`. -/
def trimStart (s : Text) : Text := s.dropWhile isWhitespace

/-- `str::trim_end`. -/
def trimEnd (s : Text) : Text := s.rdropWhile isWhitespace

inductive LineEnding where
  | lf
  | crlf
  deriving DecidableEq

def LineEnding.text : LineEnding → Text
  | .lf => ['\n']
  | .crlf => ['\r', '\n']

structure ParsedTask where
  bom : Bool
  lineEnding : LineEnding
  hasFrontmatter : Bool
  frontmatter : List Text
  body : Text
  deriving DecidableEq

inductive TaskOp where
  | setTitle (title : Text)
  | setUserTitle (title : Text)
  | appendBody (text : Text)
  | setBody (text : Text)
  | clean
  deriving DecidableEq

structure TitleLine where
  leading : Text
  value : Text

/-- `eq_ignore_ascii_case` with the key `title`. -/
def isTitleKey (key : Text) : Bool := (trim key).map Char.toLower = "title".toList

def titleLine (line : Text) : Option TitleLine :=
  match splitOnce ':' (trimStart line) with
  | some (key, value) =>
    if isTitleKey key then some ⟨line.takeWhile isWhitespace, trim value⟩ else none
  | none => none

/-- The value between two of the quotes. -/
def unquote (quote : Char) (value : Text) : Option Text :=
  if 2 ≤ value.length ∧ value.head? = some quote ∧ value.getLast? = some quote then
    some value.tail.dropLast
  else none

def decodeTitleScalar (value : Text) : Text :=
  let value := trim value
  match unquote '\'' value with
  | some inner => undouble '\'' inner
  | none => (unquote '"' value).getD value

def isUserOwnedTitle (title : Text) : Bool := userTitlePrefix.isPrefixOf (trimStart title)

def userOwnedTitle (input : Text) : Text :=
  let trimmed := trim input
  if isUserOwnedTitle trimmed then trimmed else userTitlePrefix ++ ' ' :: trimmed

/-- The ending of the first line. -/
def lineEndingOf (s : Text) : LineEnding :=
  match s.idxOf? '\n' with
  | some i => if 0 < i ∧ s[i - 1]? = some '\r' then .crlf else .lf
  | none => .lf

/-- `trim_end_matches(['\r', '\n'])`. -/
def stripEol (line : Text) : Text := line.rdropWhile fun c => c = '\r' || c = '\n'

/-- The walk to the closing delimiter: how much it consumed, and the lines before it. -/
def walk (consumed : ℕ) (fmLines : List Text) : List Text → Option (ℕ × List Text)
  | [] => none
  | line :: iter =>
    let stripped := stripEol line
    if trim stripped = delimiter then some (consumed + line.length, fmLines)
    else walk (consumed + line.length) (fmLines ++ [stripped]) iter

/-- The closed frontmatter at the start: how much it takes up, and its lines. -/
def scanFrontmatter (s : Text) : Option (ℕ × List Text) :=
  match splitInclusive '\n' s with
  | [] => none
  | opening :: iter => if trim opening = delimiter then walk opening.length [] iter else none

def parsePeeled (bom : Bool) (s : Text) : ParsedTask :=
  match scanFrontmatter s with
  | some (consumed, fmLines) => ⟨bom, lineEndingOf s, true, fmLines, s.drop consumed⟩
  | none => ⟨bom, lineEndingOf s, false, [], s⟩

def parseTask (sIn : Text) : ParsedTask :=
  if sIn.head? = some byteOrderMark then parsePeeled true sIn.tail else parsePeeled false sIn

/-- The document after the mark. -/
def renderPeeled (parsed : ParsedTask) : Text :=
  let eol := parsed.lineEnding.text
  if parsed.hasFrontmatter then
    delimiter ++ eol ++ (parsed.frontmatter.map (· ++ eol)).flatten ++ delimiter ++ eol ++
      parsed.body
  else parsed.body

def render (parsed : ParsedTask) : Text :=
  if parsed.bom then byteOrderMark :: renderPeeled parsed else renderPeeled parsed

/-- The line that gives the title. -/
def newTitleLine (title : Text) : Text :=
  "title: '".toList ++ double '\'' title ++ ['\'']

/-- The first title line replaced with its indentation kept, or a new first line. -/
def replaceTitle (line : Text) : List Text → Option (List Text)
  | [] => none
  | old :: rest =>
    match titleLine old with
    | some title => some ((title.leading ++ line) :: rest)
    | none => (replaceTitle line rest).map (old :: ·)

def applySetTitle (parsed : ParsedTask) (title : Text) : ParsedTask :=
  let line := newTitleLine title
  if !parsed.hasFrontmatter && parsed.body.isEmpty && !parsed.bom then
    ⟨false, .lf, true, [line], []⟩
  else if !parsed.hasFrontmatter then
    ⟨parsed.bom, parsed.lineEnding, true, [line], parsed.body⟩
  else
    ⟨parsed.bom, parsed.lineEnding, true,
      (replaceTitle line parsed.frontmatter).getD (line :: parsed.frontmatter), parsed.body⟩

def applyAppendBody (parsed : ParsedTask) (text : Text) : ParsedTask :=
  let trimmedText := trimEnd text
  { parsed with
    body := if trim parsed.body = [] then trimmedText ++ ['\n']
      else trimEnd parsed.body ++ ['\n', '\n'] ++ trimmedText ++ ['\n'] }

def applySetBody (parsed : ParsedTask) (text : Text) : ParsedTask :=
  { parsed with hasFrontmatter := true, body := text }

def applyClean (parsed : ParsedTask) : ParsedTask :=
  ⟨parsed.bom, parsed.lineEnding, true, ["title: 'Clean'".toList], []⟩

def applyEdit (parsed : ParsedTask) : TaskOp → ParsedTask
  | .setTitle title => applySetTitle parsed title
  | .setUserTitle title => applySetTitle parsed (userOwnedTitle title)
  | .appendBody text => applyAppendBody parsed text
  | .setBody text => applySetBody parsed text
  | .clean => applyClean parsed

def titleValueOf (parsed : ParsedTask) : Option Text :=
  parsed.frontmatter.findSome? fun line =>
    (titleLine line).map fun title => decodeTitleScalar title.value

/-- `validate_task_title`. -/
def validateTaskTitle (taskTitle : Text) : Except String Unit :=
  if taskTitle = [] then .error "Task title cannot be empty"
  else if taskTitle.any fun c => PtyInput.isControl c && c != '\t' then
    .error ("Task title must be a single line of printable characters " ++
      "(control characters other than tab are not allowed)")
  else if 256 < taskTitle.length then .error "Task title is too long (max 256 characters)"
  else .ok ()

def buildTaskContent (taskTitle : Text) : Text :=
  if trim taskTitle = [] then "---\ntitle: 'Clean'\n---\n".toList
  else
    "---\ntitle: '".toList ++ double '\'' (userOwnedTitle taskTitle) ++ "'\n---\n".toList

def prepareNewRoomTaskContent (taskTitle : Text) : Except String Text := do
  let taskTitle := trim taskTitle
  if taskTitle ≠ [] then validateTaskTitle taskTitle
  return buildTaskContent taskTitle

/-- What an edit comes to, before anything is written. -/
inductive EditOutcome where
  | wrote (content : Text)
  | noOp
  | rejectedUserTitle
  | reservedUserTitlePrefix
  deriving DecidableEq

def isNoOp (op : TaskOp) (parsed newParsed : ParsedTask) : Bool :=
  match op with
  | .setTitle _ | .setUserTitle _ => titleValueOf newParsed = titleValueOf parsed
  | .clean => newParsed.frontmatter = parsed.frontmatter && newParsed.body = parsed.body
  | .appendBody _ => false
  | .setBody text => text = parsed.body

/-- Only a coordinator's title is refused. -/
def guardTitle (op : TaskOp) (currentTitle : Option Text) : Option EditOutcome :=
  match op with
  | .setTitle title =>
    if currentTitle.any isUserOwnedTitle then some .rejectedUserTitle
    else if isUserOwnedTitle title then some .reservedUserTitlePrefix
    else none
  | _ => none

/-- The steps of `perform_inner` between the read and the write. -/
def decideEdit (op : TaskOp) (existing : Text) : EditOutcome :=
  let parsed := parseTask existing
  match guardTitle op (titleValueOf parsed) with
  | some refused => refused
  | none =>
    let newParsed := applyEdit parsed op
    if isNoOp op parsed newParsed then .noOp else .wrote (render newParsed)

/-- A request, and for a clean whether the status log holds only its reset record. -/
structure Request where
  op : TaskOp
  statusIsReset : Bool

/-- `clean_pair_locked` writes the description unless both halves are reset already. -/
def outcomeOf (request : Request) (existing : Text) : EditOutcome :=
  if request.op = .clean then
    let parsed := parseTask existing
    let cleaned := applyClean parsed
    if cleaned.frontmatter = parsed.frontmatter && cleaned.body = parsed.body &&
        request.statusIsReset then .noOp
    else .wrote (render cleaned)
  else decideEdit request.op existing

/-- The description file, absent before the first write. -/
def documentMachine : Machine (Option Text) Request EditOutcome where
  step file request :=
    let outcome := outcomeOf request (file.getD [])
    match outcome with
    | .wrote content => (some content, outcome)
    | _ => (file, outcome)

/-- What `read_title` answers. -/
def readTitle (file : Option Text) : Option Text :=
  file.bind fun content => titleValueOf (parseTask content)

end AgentsCommander.Tasks
