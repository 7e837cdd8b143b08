import Mathlib.Data.Finset.Basic

/-! The workgroup task the terminal shows in its header, and the order of its writers. -/
namespace AgentsCommander.Terminal

inductive TaskReadState where
  | loading
  | ready
  | refreshing
  | error
  | committedCleanPending
  deriving DecidableEq, Repr

structure TaskSnapshot where
  workgroupRoot : String
  task : Option String
  deriving DecidableEq, Repr

structure CachedTask where
  snapshot : Option TaskSnapshot
  state : TaskReadState
  cleanPending : Bool
  cleanReadFailed : Bool
  deriving DecidableEq, Repr

structure LocalTaskWrite where
  workgroupRoot : String
  seq : ℕ
  deriving DecidableEq, Repr

/-- The part of the store that shows a task, with the directory it is shown for. The cache is a
`Map`, in the order of insertion. -/
structure TaskHeader where
  taskCache : List (String × CachedTask)
  activeTaskSnapshot : Option TaskSnapshot
  taskReadState : TaskReadState
  cleanReadFailed : Bool
  taskInvalidation : ℕ
  taskRequestGeneration : ℕ
  activeTaskRoot : Option String
  activeWorkingDirectory : String
  activeWorkgroupTask : Option String
  taskWriteSeq : ℕ
  lastLocalTaskWrite : Option LocalTaskWrite
  deriving DecidableEq, Repr

def TaskHeader.initial : TaskHeader where
  taskCache := []
  activeTaskSnapshot := none
  taskReadState := .loading
  cleanReadFailed := false
  taskInvalidation := 0
  taskRequestGeneration := 0
  activeTaskRoot := none
  activeWorkingDirectory := ""
  activeWorkgroupTask := none
  taskWriteSeq := 0
  lastLocalTaskWrite := none

/-- `Map.prototype.set`: a key that is there keeps its place. -/
def mapSet {α : Type} (key : String) (value : α) : List (String × α) → List (String × α)
  | [] => [(key, value)]
  | e :: rest => if e.1 = key then (key, value) :: rest else e :: mapSet key value rest

variable (toLowerCase : String → String)

/-- The Windows verbatim prefix goes, in either spelling. -/
def normalizeTaskPath (path : String) : String :=
  let chars := path.toList
  let chars := if path.startsWith "\\\\?\\" || path.startsWith "//?/" then chars.drop 4 else chars
  toLowerCase (String.ofList (chars.map fun c => if c = '\\' then '/' else c))

def cwdUnderWorkgroupRoot (cwd workgroupRoot : String) : Bool :=
  if cwd = "" || workgroupRoot = "" then false
  else
    let normalizedCwd := normalizeTaskPath toLowerCase cwd
    let normalizedRoot := normalizeTaskPath toLowerCase workgroupRoot
    normalizedCwd = normalizedRoot || normalizedCwd.startsWith (normalizedRoot ++ "/")

namespace TaskHeader

def cleanPending (h : TaskHeader) : Bool := h.taskReadState = .committedCleanPending

/-- A local write that landed after a snapshot was taken, for the same file. -/
def localTaskWriteWins (h : TaskHeader) (sessionCwd : String) (expectedTaskSeq : ℕ) : Bool :=
  h.lastLocalTaskWrite.any fun w =>
    expectedTaskSeq < w.seq && cwdUnderWorkgroupRoot toLowerCase sessionCwd w.workgroupRoot

def bindTaskCache (h : TaskHeader) (cwd : String) : TaskHeader :=
  let entry := h.taskCache.find? fun e => cwdUnderWorkgroupRoot toLowerCase cwd e.1
  { h with
    taskRequestGeneration := h.taskRequestGeneration + 1
    activeTaskRoot := entry.map (·.1)
    activeTaskSnapshot := entry.bind (·.2.snapshot)
    taskReadState := (entry.map (·.2.state)).getD .loading
    cleanReadFailed := (entry.map (·.2.cleanReadFailed)).getD false }

/-- The header's part of `clearLiveMetadata`. -/
def clear (h : TaskHeader) : TaskHeader :=
  { h with
    taskRequestGeneration := h.taskRequestGeneration + 1
    activeTaskRoot := none
    activeTaskSnapshot := none
    taskReadState := .loading
    cleanReadFailed := false
    activeWorkingDirectory := ""
    activeWorkgroupTask := none }

/-- The header's part of a bind: only the task can lose to a newer local write. -/
def bind (h : TaskHeader) (cwd : String) (task : Option String) (expectedTaskSeq : ℕ) :
    TaskHeader :=
  let h := bindTaskCache toLowerCase { h with activeWorkingDirectory := cwd } cwd
  { h with
    activeWorkgroupTask := if h.localTaskWriteWins toLowerCase cwd expectedTaskSeq then
      h.activeWorkgroupTask else task
    taskInvalidation := h.taskInvalidation + 1 }

/-- What is shown while a read is under way. -/
def readingState (h : TaskHeader) : TaskReadState :=
  if h.cleanPending then .committedCleanPending
  else if h.activeTaskSnapshot.isSome then .refreshing
  else .loading

def beginTaskRead (h : TaskHeader) : TaskHeader :=
  { h with
    taskRequestGeneration := h.taskRequestGeneration + 1
    taskReadState := h.readingState }

def refresh (h : TaskHeader) : TaskHeader :=
  { h.beginTaskRead with taskInvalidation := h.taskInvalidation + 1 }

def invalidateTask (h : TaskHeader) (workgroupRoot : Option String) : TaskHeader :=
  match workgroupRoot.filter (· ≠ "") with
  | none => h.refresh
  | some workgroupRoot =>
    let root := normalizeTaskPath toLowerCase workgroupRoot
    let h := match h.taskCache.find? (·.1 = root) with
      | some e =>
        let state := if e.2.cleanPending then .committedCleanPending else .refreshing
        { h with taskCache := mapSet root { e.2 with state := state } h.taskCache }
      | none => h
    if cwdUnderWorkgroupRoot toLowerCase h.activeWorkingDirectory root then h.refresh else h

def acceptTaskSnapshot (h : TaskHeader) (snapshot : TaskSnapshot) (generation expectedTaskSeq : ℕ) :
    TaskHeader × Bool :=
  if generation ≠ h.taskRequestGeneration ||
      h.localTaskWriteWins toLowerCase snapshot.workgroupRoot expectedTaskSeq ||
      !cwdUnderWorkgroupRoot toLowerCase h.activeWorkingDirectory snapshot.workgroupRoot then
    (h, false)
  else
    let root := normalizeTaskPath toLowerCase snapshot.workgroupRoot
    ({ h with
      taskCache := mapSet root ⟨some snapshot, .ready, false, false⟩ h.taskCache
      cleanReadFailed := false
      activeTaskRoot := some root
      activeTaskSnapshot := some snapshot
      activeWorkgroupTask := snapshot.task
      taskReadState := .ready }, true)

def failTaskRead (h : TaskHeader) (generation : ℕ) : TaskHeader :=
  if generation ≠ h.taskRequestGeneration then h
  else
    let state := if h.cleanPending then .committedCleanPending else .error
    let cache := match h.activeTaskRoot.filter (· ≠ "") with
      | some root =>
        match h.taskCache.find? (·.1 = root) with
        | some e =>
          mapSet root { e.2 with state := state, cleanReadFailed := h.cleanPending } h.taskCache
        | none => h.taskCache
      | none => h.taskCache
    { h with
      taskCache := cache
      cleanReadFailed := h.cleanPending || h.cleanReadFailed
      taskReadState := state }

/-- A local write of a task takes the next place in the order of writes. -/
def noteLocalWrite (h : TaskHeader) (workgroupRoot : String) : TaskHeader :=
  { h with
    taskWriteSeq := h.taskWriteSeq + 1
    lastLocalTaskWrite := some ⟨workgroupRoot, h.taskWriteSeq + 1⟩ }

def beginTaskMutation (h : TaskHeader) (workgroupRoot : String) : TaskHeader :=
  let h := h.noteLocalWrite workgroupRoot
  { h with
    taskRequestGeneration := h.taskRequestGeneration + 1
    taskReadState := if cwdUnderWorkgroupRoot toLowerCase h.activeWorkingDirectory workgroupRoot then
      h.readingState else h.taskReadState }

def finishTaskMutation (h : TaskHeader) (workgroupRoot : String) (committedClean : Bool) :
    TaskHeader :=
  let h := h.noteLocalWrite workgroupRoot
  let root := normalizeTaskPath toLowerCase workgroupRoot
  let h := if committedClean then
    { h with taskCache := mapSet root ⟨none, .committedCleanPending, true, false⟩ h.taskCache } else h
  let h := if cwdUnderWorkgroupRoot toLowerCase h.activeWorkingDirectory root then
    let h := { h with activeTaskRoot := some root }
    if committedClean then
      { h with
        cleanReadFailed := false
        activeTaskSnapshot := none
        activeWorkgroupTask := none
        taskReadState := .committedCleanPending }
    else h
  else h
  h.invalidateTask toLowerCase (some root)

def setActiveWorkgroupTask (h : TaskHeader) (task : Option String) : TaskHeader :=
  { h with activeWorkgroupTask := task }

def applyLocalTask (h : TaskHeader) (workgroupRoot : String) (task : Option String) : TaskHeader :=
  if h.activeWorkingDirectory ≠ "" &&
      !cwdUnderWorkgroupRoot toLowerCase h.activeWorkingDirectory workgroupRoot then h
  else { h.noteLocalWrite workgroupRoot with activeWorkgroupTask := task }

end TaskHeader
end AgentsCommander.Terminal
