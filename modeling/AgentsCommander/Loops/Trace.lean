import AgentsCommander.Loops.Scheduler

/-! The run of the threads over one Loop, with a history of what they wrote and delivered. -/
namespace AgentsCommander.Loops
open Foundation

/-- The generation and the state's bytes, as a scan read them. -/
abbrev Reading := ℕ × Option Bytes

/-- A delivery the threads have a report of. -/
structure Underway where
  origin : Origin
  config : LoopConfigToml
  runId : Uuid
  dueAt : DateTime
  kind : LoopAuditKind
  deriving DecidableEq, Repr

/-- A delivered run whose commit ended in an error: what the scan had read, and the state
the commit was writing, if it got that far. -/
structure Delivery where
  dueAt : DateTime
  config : LoopConfigToml
  generation : ℕ
  before : Option Bytes
  after : Option Bytes
  deriving DecidableEq, Repr

inductive Event where
  | entered (commit : ℕ) (read : Option Reading) (now : Reading)
  | stateWritten (commit : Option ℕ) (scanSide : Bool) (read : Option Reading) (now : Reading)
  | auditWritten (commit : Option ℕ) (entry : LoopAuditEntry)
  | delivered (origin : Origin) (runId : Uuid) (dueAt : DateTime) (kind : LoopAuditKind)
  | redelivered (delivery : Delivery)
  | emitted (kind : String)
  deriving DecidableEq, Repr

/-- The commit section an event's write belongs to. -/
def Event.commit? : Event → Option ℕ
  | .stateWritten commit _ _ _ => commit
  | .auditWritten commit _ => commit
  | _ => none

/-- The history, newest first, and what each thread last read, opened and reported. -/
structure Trace where
  history : List Event := []
  entered : ℕ := 0
  snapshot : Thread → Option Reading := fun _ => none
  commit : Thread → Option ℕ := fun _ => none
  underway : Thread → Option Underway := fun _ => none
  prepared : Thread → Option Bytes := fun _ => none
  outstanding : List Delivery := []

structure System where
  world : World := {}
  trace : Trace := {}

def World.reading (w : World) : Reading := (w.generation, w.raw)

/-- Nothing of the Loop changed, but for the delivery's own state being written. -/
def Delivery.undisturbed (d : Delivery) (w w' : World) (written : Option Bytes) : Bool :=
  w'.config == w.config && w'.generation == w.generation &&
    match written with
    | none => w'.raw == w.raw
    | some bytes => d.after == some bytes && w'.raw == some bytes

/-- The bytes an action wrote as the state. -/
def stateWrite : (o : Act) → o.Res → Option Bytes
  | .replace .state bytes, .ok () => some bytes
  | .replace .legacyState bytes, .ok () => some bytes
  | _, _ => none

namespace Trace

def say (tr : Trace) (e : Event) : Trace := { tr with history := e :: tr.history }

def keepUndisturbed (tr : Trace) (w w' : World) (written : Option Bytes) : Trace :=
  { tr with outstanding := tr.outstanding.filter (·.undisturbed w w' written) }

def reported (tr : Trace) (t : Thread) (config : LoopConfigToml) (generation : ℕ)
    (raw : Option Bytes) (failed : Bool) : Trace :=
  let settled := { tr with underway := Function.update tr.underway t none }
  match tr.underway t, failed with
  | some ⟨.scan, _, _, dueAt, .delivered⟩, true =>
    { settled with
      outstanding := ⟨dueAt, config, generation, raw, tr.prepared t⟩ :: tr.outstanding }
  | _, _ => settled

def noted (tr : Trace) (t : Thread) (w : World) : Note → Trace
  | .snapshot generation raw =>
    { tr with snapshot := Function.update tr.snapshot t (some (generation, raw)) }
  | .commitEntered =>
    { tr with
      history := .entered tr.entered (tr.snapshot t) w.reading :: tr.history
      entered := tr.entered + 1
      commit := Function.update tr.commit t (some tr.entered) }
  | .commitLeft => { tr with commit := Function.update tr.commit t none }
  | .prepared after => { tr with prepared := Function.update tr.prepared t after }
  | .reportApplied config generation raw failed => tr.reported t config generation raw failed

/-- What an action adds to the history. -/
def record (tr : Trace) (t : Thread) (w w' : World) : (o : Act) → o.Res → Trace
  | .replace .state _, .ok () | .replace .legacyState _, .ok () =>
    tr.say (.stateWritten (tr.commit t) (w.scanLock = some t) (tr.snapshot t) w.reading)
  | .appendLine entry, _ =>
    if w'.disk = w.disk then tr else tr.say (.auditWritten (tr.commit t) entry)
  | .deliver origin config runId dueAt, report =>
    let again := tr.outstanding.filter fun d => origin = .scan ∧ d.dueAt = dueAt
    { tr with
      history := again.map .redelivered ++ .delivered origin runId dueAt report.kind :: tr.history
      underway := Function.update tr.underway t
        (some { origin := origin, config := config, runId := runId, dueAt := dueAt,
                kind := report.kind })
      prepared := Function.update tr.prepared t none }
  | .emit kind _, _ => tr.say (.emitted kind)
  | .note n, _ => tr.noted t w n
  | _, _ => tr

def observe (tr : Trace) (t : Thread) (w w' : World) (o : Act) (r : o.Res) : Trace :=
  (tr.keepUndisturbed w w' (stateWrite o r)).record t w w' o r

section
variable (tr : Trace) (t : Thread) (w w' : World) (written : Option Bytes)

@[simp] theorem history_keepUndisturbed :
    (tr.keepUndisturbed w w' written).history = tr.history := rfl

@[simp] theorem entered_keepUndisturbed :
    (tr.keepUndisturbed w w' written).entered = tr.entered := rfl

@[simp] theorem snapshot_keepUndisturbed :
    (tr.keepUndisturbed w w' written).snapshot = tr.snapshot := rfl

@[simp] theorem commit_keepUndisturbed :
    (tr.keepUndisturbed w w' written).commit = tr.commit := rfl

theorem observe_note (n : Note) (r : (Act.note n).Res) :
    tr.observe t w w' (.note n) r = (tr.keepUndisturbed w w' none).noted t w n := rfl

theorem observe_state (bytes : Bytes) :
    tr.observe t w w' (.replace .state bytes) (.ok ()) =
      (tr.keepUndisturbed w w' (some bytes)).say
        (.stateWritten (tr.commit t) (w.scanLock = some t) (tr.snapshot t) w.reading) := rfl

theorem observe_legacyState (bytes : Bytes) :
    tr.observe t w w' (.replace .legacyState bytes) (.ok ()) =
      (tr.keepUndisturbed w w' (some bytes)).say
        (.stateWritten (tr.commit t) (w.scanLock = some t) (tr.snapshot t) w.reading) := rfl

theorem observe_appendLine (entry : LoopAuditEntry) (r : (Act.appendLine entry).Res) :
    tr.observe t w w' (.appendLine entry) r =
      if w'.disk = w.disk then tr.keepUndisturbed w w' none
      else (tr.keepUndisturbed w w' none).say (.auditWritten (tr.commit t) entry) := rfl

end
end Trace

namespace System

def act (t : Thread) (o : Act) (x : Choice) (s : System) : Option (o.Res × System) :=
  (s.world.act t o x).map fun (r, w) => (r, ⟨w, s.trace.observe t s.world w o r⟩)

/-- The outstanding deliveries are those of the scheduler that made them. -/
def kill (dead : Thread → Bool) (s : System) : System where
  world := s.world.kill dead
  trace :=
    { s.trace with
      commit := fun t => if dead t then none else s.trace.commit t
      underway := fun t => if dead t then none else s.trace.underway t
      outstanding := if dead (.app 0) then [] else s.trace.outstanding }

end System

/-- The threads of the application and of the CLI over one Loop. -/
abbrev loopPlatform (crates : Crates) (place : Place) : Platform loopInterface where
  Thread := Thread
  State := System
  Choice := Choice
  act := System.act
  starts := Starts crates place
  mayDie := MayDie
  kill := System.kill

end AgentsCommander.Loops
