import AgentsCommander.Output.Attachments

/-! The functions of the output fan-out as programs of sections under the parser lock, the map
lock and a batch's own lock. -/
namespace AgentsCommander.Output
open Foundation

inductive Act where
  | acquireReaderLease
  | completeLease
  | lockParsers
  | unlockParsers
  | process
  | locate
  | append (b : BatchId) (labels : Finset WindowLabel) (chunk : Chunk) (fault : Bool)
  | armTimer
  | takeTimer
  | lookUp
  | drain (b : BatchId) (labels : Finset WindowLabel) (fromTimer : Bool)
  | snapshot
  | attach (label : WindowLabel) (seed : Option ℕ)
  | flushPending (b : BatchId) (labels : Finset WindowLabel)
  | detach (label : WindowLabel)
  | discard (b : BatchId)
  | resize
  | closeGate
  | waitForDrain
  | removeParser
  | removeAttachments

def Act.Res : Act → Type
  | .acquireReaderLease | .resize | .closeGate | .removeParser => Bool
  | .process => Option (Bool × Option ℕ × Bool)
  | .locate | .lookUp | .attach _ _ => Option (BatchId × Finset WindowLabel)
  | .append _ _ _ _ => Accumulated
  | .snapshot => Except World.TerminalOutputAttachError (Option ℕ × Bool)
  | .detach _ | .removeAttachments => Option BatchId
  | _ => Unit

abbrev outputInterface : Interface := ⟨Act, Act.Res⟩
abbrev OutputProgram := Program outputInterface

/-- Whether the parser panics on what it is given, and how a snapshot comes out. -/
structure Choice where
  panics : Bool
  copy : World.Copy

/-- Taking the parser lock waits for its holder, draining the gate for the leases. -/
def World.act (t : Thread) : (o : Act) → Choice → World → Option (o.Res × World)
  | .acquireReaderLease, _, w =>
    if w.holder.isSome then none
    else if w.parser.isNone || w.lifecycleClosing then some (false, w)
    else some (true, { w with admittedCount := w.admittedCount + 1 })
  | .completeLease, _, w => some ((), { w with admittedCount := w.admittedCount - 1 })
  | .lockParsers, _, w => if w.holder.isSome then none else some ((), { w with holder := some t })
  | .unlockParsers, _, w => some ((), { w with holder := none })
  | .process, x, w => some (w.process x.panics)
  | .locate, _, w => some w.locate
  | .append b labels chunk fault, _, w => some (w.append b labels chunk fault)
  | .armTimer, _, w => some ((), { w with timers := w.timers + 1 })
  | .takeTimer, _, w =>
    if w.timers = 0 then none else some ((), { w with timers := w.timers - 1 })
  | .lookUp, _, w => some (w.lookUp, w)
  | .drain b labels fromTimer, _, w => some ((), w.drain b labels fromTimer)
  | .snapshot, x, w => some (w.snapshot x.copy)
  | .attach label seed, _, w => some (w.attach label seed)
  | .flushPending b labels, _, w => some ((), w.flush b labels)
  | .detach label, _, w => some (w.detach label)
  | .discard b, _, w => some ((), w.discard b)
  | .resize, x, w => some (w.resize x.panics)
  | .closeGate, _, w =>
    if w.parser.isNone then some (false, w) else some (true, { w with lifecycleClosing := true })
  | .waitForDrain, _, w => if w.admittedCount = 0 then some ((), w) else none
  | .removeParser, _, w =>
    if w.parser.isNone then some (false, w) else some (true, { w with parser := none })
  | .removeAttachments, _, w => some w.removeAttachments

abbrev call (o : Act) : OutputProgram o.Res := Program.call (I := outputInterface) o

/-- `TerminalOutputAttachments::flush`. -/
def flush (fromTimer : Bool) : OutputProgram Unit := do
  let found : Option (BatchId × Finset WindowLabel) ← call .lookUp
  match found with
  | none => pure ()
  | some (b, labels) => call (.drain b labels fromTimer)

/-- `accumulate`, with the parser lock held. -/
def accumulate (chunk : Chunk) (fault : Bool) : OutputProgram Accumulated := do
  let found : Option (BatchId × Finset WindowLabel) ← call .locate
  match found with
  | none => pure .unattached
  | some (b, labels) => call (.append b labels chunk fault)

/-- `handle_output` under the parser lock; `none` where the session is gone. -/
def ingest (data : List Byte) : OutputProgram (Option Accumulated) := do
  let processed : Option (Bool × Option ℕ × Bool) ← call .process
  match processed with
  | none => pure none
  | some (open_, sequence, fault) =>
    if open_ then some <$> accumulate ⟨sequence, data⟩ fault else pure (some .unattached)

/-- `handle_output`, without the observers of raw output. -/
def handleOutput (data : List Byte) : OutputProgram Unit := do
  let leased : Bool ← call .acquireReaderLease
  if leased then
    call .lockParsers
    let accumulated ← ingest data
    call .unlockParsers
    match accumulated with
    | some .armTimer => call .armTimer
    | some .flushNow => flush false
    | _ => pure ()
    call .completeLease
  else pure ()

/-- The task `arm_output_flush` spawns, once its sleep is over. -/
def timerFlush : OutputProgram Unit := do
  call .takeTimer
  flush true

/-- `TerminalOutputAttachments::attach`, with the parser lock held. -/
def attach (label : WindowLabel) (seed : Option ℕ) : OutputProgram Unit := do
  let pending : Option (BatchId × Finset WindowLabel) ← call (.attach label seed)
  match pending with
  | none => pure ()
  | some (b, labels) => call (.flushPending b labels)

def activateTerminalOutput (label : WindowLabel) : OutputProgram Unit := do
  call .lockParsers
  let copied : Except World.TerminalOutputAttachError (Option ℕ × Bool) ← call .snapshot
  match copied with
  | .error _ => call .unlockParsers
  | .ok (seed, reconcileFault) =>
    attach label seed
    call .unlockParsers
    if reconcileFault then flush false else pure ()

def discardOrphaned (orphaned : Option BatchId) : OutputProgram Unit :=
  match orphaned with
  | none => pure ()
  | some b => call (.discard b)

def detach (label : WindowLabel) : OutputProgram Unit := do
  let orphaned : Option BatchId ← call (.detach label)
  discardOrphaned orphaned

/-- `release_window`, as it reaches this session. -/
def releaseWindow (label : WindowLabel) : OutputProgram Unit := do
  let orphaned : Option BatchId ← call (.detach label)
  discardOrphaned orphaned

def resizeScreen : OutputProgram Unit := do
  call .lockParsers
  let fault : Bool ← call .resize
  call .unlockParsers
  if fault then flush false else pure ()

def removeSession : OutputProgram Unit := do
  call .lockParsers
  let present : Bool ← call .closeGate
  call .unlockParsers
  if present then
    call .waitForDrain
    call .lockParsers
    let removed : Bool ← call .removeParser
    if removed then
      let orphaned : Option BatchId ← call .removeAttachments
      discardOrphaned orphaned
    call .unlockParsers
  else pure ()

inductive Starts : Thread → OutputProgram Unit → Prop
  | handleOutput (t : Thread) (data : List Byte) : Starts t (handleOutput data)
  | timerFlush (t : Thread) : Starts t timerFlush
  | activate (t : Thread) (label : WindowLabel) : Starts t (activateTerminalOutput label)
  | detach (t : Thread) (label : WindowLabel) : Starts t (detach label)
  | releaseWindow (t : Thread) (label : WindowLabel) : Starts t (releaseWindow label)
  | resizeScreen (t : Thread) : Starts t resizeScreen
  | removeSession (t : Thread) : Starts t removeSession

/-- Any number of threads; none dies while the fan-out lives. -/
def outputPlatform : Platform outputInterface where
  Thread := Thread
  State := World
  Choice := Choice
  act := World.act
  starts := Starts
  mayDie _ := False
  kill _ w := w

end AgentsCommander.Output
