import AgentsCommander.Clocks.Store
import AgentsCommander.Foundation.Machine

/-! The close markers of one coordinator, and the events that tell the sidebar of them. -/
namespace AgentsCommander.Clocks
open Foundation

inductive Channel where
  | auto | manual
  deriving DecidableEq, Repr

/-- `coordinator_auto_close_changed` or `coordinator_manual_close_changed`. -/
structure MarkerEvent where
  channel : Channel
  value : Option DateTime
  deriving DecidableEq, Repr

def CoordinatorClocks.marker (clocks : CoordinatorClocks) (fqn : String) :
    Channel → Option DateTime
  | .auto => clocks.autoClosedAt fqn
  | .manual => clocks.manuallyClosedAt fqn

/-- Who emits an event: one mark of the auto-close, or the holder of the order lock. -/
inductive Emitter where
  | mark (id : ℕ)
  | order
  deriving DecidableEq, Repr

structure Emission where
  emitter : Emitter
  event : MarkerEvent
  deriving DecidableEq, Repr

/-- What the holder of the order lock does under the clocks lock. -/
inductive Ordered where
  | create (ticket : ℕ)
  | restore
  deriving DecidableEq, Repr

/-- `holder`: who has the order lock, with what it still has to do under the clocks lock.
`tickets`: the creates in flight, each with its spawn fence. `pending`: what is to be emitted, in
the order of the changes. -/
structure Markers where
  clocks : CoordinatorClocks
  holder : Option (Option Ordered)
  tickets : AList fun _ : ℕ => Bool
  pending : List Emission
  emitted : List MarkerEvent

inductive MarkersEvent where
  | markClosed (mark : ℕ) (now : DateTime)
  | lockCreate (ticket : ℕ)
  | underClocks (now : DateTime)
  | emit (position : ℕ)
  | release
  | sessionMayExist (ticket : ℕ)
  | succeeded (ticket : ℕ)
  | failed (ticket : ℕ)

namespace Markers
variable (fqn : String) (markers : Markers)

/-- At rest, with nothing emitted yet. -/
def atRest (clocks : CoordinatorClocks) : Markers := ⟨clocks, none, ∅, [], []⟩

def announce (emitter : Emitter) (changed : Bool) (channel : Channel) (value : Option DateTime) :
    List Emission :=
  if changed then [⟨emitter, ⟨channel, value⟩⟩] else []

/-- `mark_closed_badges` under the clocks lock. -/
def markClosed (mark : ℕ) (now : DateTime) : Markers :=
  let marked := markers.clocks.markAutoClosed fqn now
  { markers with
    clocks := marked.1
    pending := markers.pending ++ announce (.mark mark) marked.2 .auto (some now) }

/-- `note_coordinator_create_on_app` under the clocks lock. -/
def noteCreate (ticket : ℕ) (now : DateTime) : Markers :=
  let seeded := markers.clocks.seedIfAbsent fqn now
  let autoBefore := seeded.1.autoClosedAt fqn
  let manualBefore := seeded.1.manuallyClosedAt fqn
  let auto := seeded.1.clearAutoClosed fqn
  let manual := auto.1.clearManuallyClosed fqn
  { markers with
    clocks := manual.1.beginCoordinatorCreate fqn
      ⟨autoBefore.filter fun _ => auto.2, manualBefore.filter fun _ => manual.2⟩
    holder := some none
    tickets := markers.tickets.insert ticket false
    pending := markers.pending ++ announce .order auto.2 .auto none ++
      announce .order manual.2 .manual none }

/-- `CoordinatorClocks::mark_*` where there is an escrowed time. -/
def remark (mark : DateTime → CoordinatorClocks × Bool) (clocks : CoordinatorClocks)
    (escrowed : Option DateTime) : CoordinatorClocks × Bool :=
  escrowed.elim (clocks, false) mark

/-- `CoordinatorCreateTicket::finish_failed` under the clocks lock. -/
def restore : Markers :=
  let ended := markers.clocks.finishCoordinatorCreate fqn false
  let escrow := ended.2.getD .default
  let manual := remark (ended.1.markManuallyClosed fqn) ended.1 escrow.manuallyClosedAt
  let auto := remark (manual.1.markAutoClosed fqn) manual.1 escrow.autoClosedAt
  { markers with
    clocks := auto.1
    holder := some none
    pending := markers.pending ++ announce .order manual.2 .manual escrow.manuallyClosedAt ++
      announce .order auto.2 .auto escrow.autoClosedAt }

/-- An emitter emits its events in order. -/
def emit (position : ℕ) : Markers :=
  match markers.pending[position]? with
  | some emission =>
    if (markers.pending.take position).any (·.emitter = emission.emitter) then markers
    else { markers with
      pending := markers.pending.take position ++ markers.pending.drop (position + 1)
      emitted := markers.emitted ++ [emission.event] }
  | none => markers

/-- `CoordinatorCreateTicket::finish_ok`. -/
def finishOk (ticket : ℕ) : Markers :=
  { markers with
    clocks := (markers.clocks.finishCoordinatorCreate fqn true).1
    tickets := markers.tickets.erase ticket }

/-- A blocked or impossible step changes nothing. -/
def step : MarkersEvent → Markers × Unit
  | .markClosed mark now => (markers.markClosed fqn mark now, ())
  | .lockCreate ticket =>
    (if markers.holder = none ∧ markers.tickets.lookup ticket = none then
      { markers with holder := some (some (.create ticket)) } else markers, ())
  | .underClocks now => (match markers.holder with
    | some (some (.create ticket)) => markers.noteCreate fqn ticket now
    | some (some .restore) => markers.restore fqn
    | _ => markers, ())
  | .emit position => (markers.emit position, ())
  | .release =>
    (if markers.holder = some none ∧ ¬ markers.pending.any (·.emitter = .order) then
      { markers with holder := none } else markers, ())
  | .sessionMayExist ticket =>
    ({ markers with tickets := Assoc.adjust markers.tickets ticket fun _ => true }, ())
  | .succeeded ticket => (match markers.tickets.lookup ticket with
    | some _ => markers.finishOk fqn ticket
    | none => markers, ())
  | .failed ticket => (match markers.tickets.lookup ticket with
    | some true => markers.finishOk fqn ticket
    | some false =>
      if markers.holder = none then
        { markers with holder := some (some .restore), tickets := markers.tickets.erase ticket }
      else markers
    | none => markers, ())

def values (channel : Channel) (events : List MarkerEvent) : List (Option DateTime) :=
  (events.filter (·.channel = channel)).map (·.value)

/-- With nothing left to emit, the last event of each channel carries the marker. -/
def Converged : Prop :=
  markers.pending = [] → ∀ channel value, (values channel markers.emitted).getLast? = some value →
    value = markers.clocks.marker fqn channel

/-- The events of a channel are emitted in the order of the changes; and where a failed create puts
back a manual marker, the auto marker is not set. -/
def InOrder : MarkersEvent → Prop
  | .emit position => ∀ emission, markers.pending[position]? = some emission →
    ∀ earlier ∈ markers.pending.take position, earlier.event.channel ≠ emission.event.channel
  | .underClocks _ => markers.holder = some (some .restore) → ∀ escrow,
    (markers.clocks.finishCoordinatorCreate fqn false).2 = some escrow →
      escrow.manuallyClosedAt.isSome → markers.clocks.autoClosedAt fqn = none
  | _ => True

end Markers

def markersMachine (fqn : String) : Machine Markers MarkersEvent Unit := ⟨Markers.step fqn⟩

end AgentsCommander.Clocks
