import AgentsCommander.Foundation.Program
import Mathlib.Data.Finset.Basic

/-! The emission gate of one session's terminal output: the windows attached to it, the batch that
coalesces its chunks, and the sections of the code that change them. -/
namespace AgentsCommander.Output
open Foundation

abbrev WindowLabel := String
abbrev Byte := UInt8
abbrev Thread := ℕ

/-- The identity of one `SessionAccumulator`. -/
abbrev BatchId := ℕ

/-- Ingest-thread flush threshold. -/
def uiBatchLimitBytes : ℕ := 65536

structure SessionAccumulator where
  data : List Byte
  sequence : Option ℕ
  timerArmed : Bool
  deriving DecidableEq, Repr

def SessionAccumulator.new : SessionAccumulator := ⟨[], none, false⟩

def SessionAccumulator.discard (b : SessionAccumulator) : SessionAccumulator :=
  { b with data := [], sequence := none }

structure PtyOutputPayload where
  data : List Byte
  sequence : Option ℕ
  deriving DecidableEq, Repr

/-- One chunk of output as it was appended. -/
structure Chunk where
  sequence : Option ℕ
  data : List Byte
  deriving DecidableEq, Repr

/-- A payload with the chunks it was made of. -/
structure Delivery where
  payload : PtyOutputPayload
  chunks : List Chunk
  deriving DecidableEq, Repr

/-- The session's entry in `screen_parsers`. -/
structure ScreenReplayState where
  outputSequence : ℕ
  available : Bool
  deriving DecidableEq, Repr

inductive Accumulated where
  | unattached
  | pending
  | armTimer
  | flushNow
  deriving DecidableEq, Repr

/-- The gate, with the history of what was appended, flushed and emitted. A window is seeded at
the sequences its attaches returned a snapshot for since it was last detached. -/
structure World where
  parser : Option ScreenReplayState
  holder : Option Thread
  lifecycleClosing : Bool
  admittedCount : ℕ
  attached : Finset WindowLabel
  accumulator : Option BatchId
  batches : BatchId → SessionAccumulator
  fresh : BatchId
  timers : ℕ
  contents : BatchId → List Chunk
  ingested : List Chunk
  flushed : List Chunk
  sent : WindowLabel → List Delivery
  seeds : WindowLabel → List ℕ

namespace World

/-- The session as `register_session` leaves it. -/
def registered : World where
  parser := some ⟨0, true⟩
  holder := none
  lifecycleClosing := false
  admittedCount := 0
  attached := ∅
  accumulator := none
  batches _ := .new
  fresh := 0
  timers := 0
  contents _ := []
  ingested := []
  flushed := []
  sent _ := []
  seeds _ := []

/-- A batch is emptied. -/
def discard (w : World) (b : BatchId) : World :=
  { w with
    batches := Function.update w.batches b (w.batches b).discard
    contents := Function.update w.contents b [] }

/-- `SessionAccumulator::flush`: the batch goes to the labels, which may be none. -/
def flush (w : World) (b : BatchId) (labels : Finset WindowLabel) : World :=
  let batch := w.batches b
  let delivery : Delivery := ⟨⟨batch.data, batch.sequence⟩, w.contents b⟩
  { w.discard b with
    flushed := w.flushed ++ w.contents b
    sent := fun label =>
      if label ∈ labels ∧ batch.data ≠ [] then w.sent label ++ [delivery] else w.sent label }

/-- The parser takes a chunk, which gets the next sequence unless the parser faults or the
sequence would leave its 64 bits. -/
def process (w : World) (panics : Bool) : Option (Bool × Option ℕ × Bool) × World :=
  match w.parser with
  | none => (none, w)
  | some state =>
    let open_ := !w.lifecycleClosing
    if state.available then
      if panics || state.outputSequence + 1 = 2 ^ 64 then
        (some (open_, none, true), { w with parser := some { state with available := false } })
      else
        (some (open_, some (state.outputSequence + 1), false),
          { w with parser := some { state with outputSequence := state.outputSequence + 1 } })
    else (some (open_, none, false), w)

/-- `accumulate` under the map lock. -/
def locate (w : World) : Option (BatchId × Finset WindowLabel) × World :=
  if w.attached = ∅ then (none, w)
  else
    match w.accumulator with
    | some b => (some (b, w.attached), w)
    | none => (some (w.fresh, w.attached), { w with
        accumulator := some w.fresh
        batches := Function.update w.batches w.fresh .new
        contents := Function.update w.contents w.fresh []
        fresh := w.fresh + 1 })

/-- A chunk joins the batch. -/
def extend (w : World) (b : BatchId) (chunk : Chunk) : World :=
  { w with
    batches := Function.update w.batches b
      { w.batches b with data := (w.batches b).data ++ chunk.data, sequence := chunk.sequence }
    contents := Function.update w.contents b (w.contents b ++ [chunk])
    ingested := w.ingested ++ [chunk] }

def setTimer (w : World) (b : BatchId) (armed : Bool) : World :=
  { w with batches := Function.update w.batches b { w.batches b with timerArmed := armed } }

/-- `accumulate` under the batch's own lock. -/
def append (w : World) (b : BatchId) (labels : Finset WindowLabel) (chunk : Chunk) (fault : Bool) :
    Accumulated × World :=
  let w₁ := (if fault then w.flush b labels else w).extend b chunk
  if (w₁.batches b).data.length ≥ uiBatchLimitBytes then (.flushNow, w₁)
  else if (w₁.batches b).timerArmed then (.pending, w₁)
  else (.armTimer, w₁.setTimer b true)

/-- `flush` under the map lock. -/
def lookUp (w : World) : Option (BatchId × Finset WindowLabel) :=
  w.accumulator.map fun b => (b, w.attached)

/-- `flush` under the batch's own lock. -/
def drain (w : World) (b : BatchId) (labels : Finset WindowLabel) (fromTimer : Bool) : World :=
  (if fromTimer then w.setTimer b false else w).flush b labels

/-- How the snapshot of an attach comes out: the parser is copied, cannot be copied, panics, or its
grid has diverged and is set anew, with or without a panic. -/
inductive Copy where
  | seeded
  | refused
  | panics
  | regrid (panics : Bool)
  deriving DecidableEq, Repr

inductive TerminalOutputAttachError where
  | sessionUnavailable
  deriving DecidableEq, Repr

/-- `activate_terminal_output` up to the attach: the snapshot's sequence, if any, and whether the
reconcile broke the parser. -/
def snapshot (w : World) (copy : Copy) :
    Except TerminalOutputAttachError (Option ℕ × Bool) × World :=
  match w.parser with
  | none => (.error .sessionUnavailable, w)
  | some state =>
    let broken : World := { w with parser := some { state with available := false } }
    if state.available then
      match copy with
      | .seeded => (.ok (some state.outputSequence, false), w)
      | .refused | .regrid false => (.ok (none, false), w)
      | .panics => (.ok (none, false), broken)
      | .regrid true => (.ok (none, true), broken)
    else (.ok (none, false), w)

/-- `attach` under the map lock. -/
def attach (w : World) (label : WindowLabel) (seed : Option ℕ) :
    Option (BatchId × Finset WindowLabel) × World :=
  (w.lookUp, { w with
    attached := insert label w.attached
    seeds := Function.update w.seeds label (seed.toList ++ w.seeds label) })

/-- `detach` and `release_window` under the map lock: the batch that is orphaned, if any. -/
def detach (w : World) (label : WindowLabel) : Option BatchId × World :=
  if label ∈ w.attached then
    let left : World := { w with
      attached := w.attached.erase label
      seeds := Function.update w.seeds label [] }
    if left.attached = ∅ then (w.accumulator, { left with accumulator := none }) else (none, left)
  else (none, w)

/-- `remove_session` of the attachments under the map lock. -/
def removeAttachments (w : World) : Option BatchId × World :=
  (w.accumulator, { w with attached := ∅, accumulator := none, seeds := fun _ => [] })

/-- `resize_screen_and_broadcast` under the parser lock: whether the parser broke. -/
def resize (w : World) (panics : Bool) : Bool × World :=
  match w.parser with
  | none => (false, w)
  | some state =>
    if state.available && panics then
      (true, { w with parser := some { state with available := false } })
    else (false, w)

end World
end AgentsCommander.Output
