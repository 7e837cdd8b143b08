import Mathlib.Data.Finset.Sort
import Mathlib.Data.String.Basic
import AgentsCommander.Foundation.Machine

/-! The quit gate: registered windows, the live round, its one terminal slot, and the sections that
change them under the lock. Quit rounds run these sections one by one, among everything the
windows may do in between. -/
namespace AgentsCommander.QuitGate
open Foundation

abbrev Label := String

/-- In nanoseconds, as every duration here; instants count from the gate's making. -/
def quitGateTimeout : ℕ := 30 * 1000000000

def quitGateMainLabel : Label := "main"

inductive QuitOutcomeKind where
  | exiting
  | aborted
  | inFlight
  | stale
  deriving DecidableEq, Repr

inductive QuitAbortReason where
  | refused
  | timeout
  | unregistered
  | destroyed
  | cancelled
  deriving DecidableEq, Repr

structure QuitOutcome where
  outcome : QuitOutcomeKind
  epoch : ℕ
  reason : Option QuitAbortReason := none
  refusingLabels : Option (List Label) := none
  unansweredLabels : Option (List Label) := none
  deriving DecidableEq, Repr

namespace QuitOutcome

def bare (outcome : QuitOutcomeKind) (epoch : ℕ) : QuitOutcome :=
  { outcome := outcome, epoch := epoch }

def exiting (epoch : ℕ) : QuitOutcome := bare .exiting epoch

def inFlight (epoch : ℕ) : QuitOutcome := bare .inFlight epoch

def stale (epoch : ℕ) : QuitOutcome := bare .stale epoch

def labels (named : Finset Label) : Option (List Label) :=
  if named = ∅ then none else some (named.sort (· ≤ ·))

def aborted (epoch : ℕ) (reason : QuitAbortReason) (refusing unanswered : Finset Label) :
    QuitOutcome where
  outcome := .aborted
  epoch := epoch
  reason := some reason
  refusingLabels := labels refusing
  unansweredLabels := labels unanswered

end QuitOutcome

inductive QuitGateRegistration where
  | registered
  | inFlight (epoch : ℕ)
  deriving DecidableEq, Repr

structure QuitGateEffects where
  outcomeToMain : Option QuitOutcome := none
  cancelledGates : List Label := []
  cancelledEpoch : ℕ := 0
  deriving DecidableEq, Repr

/-- One live quit round. -/
structure QuitRound where
  epoch : ℕ
  snapshot : Finset Label
  pending : Finset Label
  refusing : Finset Label := ∅
  busy : Finset Label := ∅
  remaining : ℕ := quitGateTimeout
  deadline : Option ℕ
  deriving DecidableEq

structure QuitGateInner where
  nextEpoch : ℕ := 0
  registered : Finset Label := ∅
  round : Option QuitRound := none
  terminal : Option (ℕ × QuitOutcome) := none
  exitClaimed : Bool := false
  deriving DecidableEq

namespace QuitRound

def resumeIfIdle (round : QuitRound) (now : ℕ) : QuitRound :=
  if round.busy = ∅ ∧ round.deadline = none then
    { round with deadline := some (now + round.remaining) }
  else round

def pause (round : QuitRound) (now : ℕ) : QuitRound :=
  match round.deadline with
  | some deadline => { round with deadline := none, remaining := deadline - now }
  | none => round

/-- The window's answer is no longer awaited. -/
def answered (round : QuitRound) (label : Label) (now : ℕ) : QuitRound :=
  resumeIfIdle { round with
    pending := round.pending.erase label, busy := round.busy.erase label } now

def abortEffects (round : QuitRound) (outcome : QuitOutcome) : QuitGateEffects where
  outcomeToMain := some outcome
  cancelledGates := round.snapshot.sort (· ≤ ·)
  cancelledEpoch := round.epoch

end QuitRound

namespace QuitGateInner

def liveRound (g : QuitGateInner) (epoch : ℕ) : Option QuitRound :=
  g.round.filter fun round => round.epoch = epoch

def terminalFor (g : QuitGateInner) (epoch : ℕ) : Option QuitOutcome :=
  match g.terminal with
  | some (e, outcome) => if e = epoch then some outcome else none
  | none => none

/-- The state after the epoch's outcome is written; `none` where it has one, or no round. -/
def finish (g : QuitGateInner) (epoch : ℕ) (outcome : QuitOutcome) : Option QuitGateInner :=
  if (g.terminalFor epoch).isSome then none
  else if (g.liveRound epoch).isNone then none
  else some { g with terminal := some (epoch, outcome), exitClaimed := false, round := none }

/-- A section that aborts: the new state and what to emit, or nothing. -/
def abortWith (g : QuitGateInner) (round : QuitRound) (outcome : QuitOutcome) :
    Option (QuitGateInner × QuitGateEffects) :=
  (g.finish round.epoch outcome).map fun g' => (g', round.abortEffects outcome)

def abort (g : QuitGateInner) (epoch : ℕ) (reason : QuitAbortReason) :
    Option (QuitGateInner × QuitGateEffects) :=
  (g.liveRound epoch).bind fun round =>
    let unanswered := if reason = .timeout then round.pending else ∅
    g.abortWith round (.aborted epoch reason round.refusing unanswered)

def finalizeConsent (g : QuitGateInner) (epoch : ℕ) : Option QuitGateInner :=
  (g.liveRound epoch).bind fun round =>
    if round.pending = ∅ ∧ round.refusing = ∅ then g.finish epoch (.exiting epoch) else none

def tryClaimExit (g : QuitGateInner) (epoch : ℕ) : Option QuitGateInner :=
  if (g.terminalFor epoch).any (·.outcome = .exiting) ∧ g.exitClaimed = false then
    some { g with exitClaimed := true }
  else none

def register (g : QuitGateInner) (label : Label) : QuitGateInner × QuitGateRegistration :=
  match g.round with
  | some round => (g, .inFlight round.epoch)
  | none => ({ g with registered := insert label g.registered }, .registered)

/-- The window is gone; where the round still waited for it, the round is aborted. -/
def teardownGate (g : QuitGateInner) (now : ℕ) (label : Label) (reason : QuitAbortReason) :
    QuitGateInner × Option QuitGateEffects :=
  let g := { g with registered := g.registered.erase label }
  match g.round with
  | none => (g, none)
  | some round =>
    let left := round.answered label now
    let g := { g with round := some left }
    if label ∉ round.pending then (g, none)
    else match g.abortWith left (.aborted round.epoch reason left.refusing {label}) with
      | some (g', effects) => (g', some effects)
      | none => (g, none)

inductive Resolved where
  | ignored
  | consented (finished : Bool)
  | refused (effects : Option QuitGateEffects)
  deriving DecidableEq, Repr

def resolve (g : QuitGateInner) (now : ℕ) (label : Label) (epoch : ℕ) (consent : Bool) :
    QuitGateInner × Resolved :=
  match g.liveRound epoch with
  | none => (g, .ignored)
  | some round =>
    if label ∉ round.pending then (g, .ignored)
    else
      let round := round.answered label now
      if consent then
        let g := { g with round := some round }
        match g.finalizeConsent epoch with
        | some g' => (g', .consented true)
        | none => (g, .consented false)
      else
        let round := { round with refusing := insert label round.refusing }
        let g := { g with round := some round }
        match g.abortWith round (.aborted epoch .refused round.refusing ∅) with
        | some (g', effects) => (g', .refused (some effects))
        | none => (g, .refused none)

/-- `none` where the report is ignored. -/
def progress (g : QuitGateInner) (now : ℕ) (label : Label) (epoch : ℕ) (busy : Bool) :
    Option QuitGateInner :=
  (g.liveRound epoch).bind fun round =>
    if label ∉ round.pending then none
    else if busy then
      some { g with round := some ({ round with busy := insert label round.busy }.pause now) }
    else
      some { g with round := some ({ round with busy := round.busy.erase label }.resumeIfIdle now) }

/-- The first section of `on_timeout`: whether it goes on to abort. -/
def expired (g : QuitGateInner) (now : ℕ) (epoch : ℕ) : Bool :=
  (g.liveRound epoch).any fun round =>
    round.busy = ∅ ∧ round.deadline.any fun deadline => now ≥ deadline

/-- The first section of a forced quit, and whether it ended the round. -/
def forceFinish (g : QuitGateInner) (epoch : ℕ) : QuitGateInner × Bool :=
  match g.liveRound epoch with
  | none => (g, false)
  | some _ =>
    let g := { g with nextEpoch := g.nextEpoch + 1 }
    match g.finish epoch (.exiting epoch) with
    | some g' => (g', true)
    | none => (g, false)

def installQuitRound (g : QuitGateInner) (now : ℕ) : Except QuitOutcome QuitGateInner :=
  match g.round with
  | some round => .error (.inFlight round.epoch)
  | none =>
    .ok { g with
      nextEpoch := g.nextEpoch + 1
      round := some
        { epoch := g.nextEpoch + 1, snapshot := g.registered, pending := g.registered,
          deadline := some (now + quitGateTimeout) } }

def deadlineFor (g : QuitGateInner) (epoch : ℕ) : Option ℕ :=
  (g.liveRound epoch).bind (·.deadline)

end QuitGateInner

/-- How far `quit_gate_run` has got with its round. -/
inductive Stage where
  | installed
  | unobserved
  | started
  | asked
  | looping
  | enrolled
  | unread
  | parked (deadline : Option ℕ)
  | expired
  | decided (outcome : QuitOutcome)
  deriving DecidableEq, Repr

/-- The task of one round: the answers it still awaits, and whether its wakeup has come. -/
structure Waiter where
  stage : Stage
  receivers : Finset Label
  notified : Bool := false
  deriving DecidableEq

/-- The task's guard still aborts its round. -/
def Waiter.armed (w : Waiter) : Bool :=
  match w.stage with
  | .unobserved | .decided _ => false
  | _ => true

/-- What happened, as far as the laws of the gate speak of it. -/
inductive Happened where
  | installed (epoch : ℕ) (snapshot : Finset Label)
  | consented (epoch : ℕ) (label : Label)
  | finished (epoch : ℕ) (outcome : QuitOutcome) (forced : Bool) (waited : ℕ)
      (busy : Finset Label)
  | claimed (epoch : ℕ)
  | returned (epoch : ℕ) (outcome : QuitOutcome)
  | dropped (epoch : ℕ)
  deriving DecidableEq

/-- The gate and the tasks on it. `forcing` are the forced quits between their two sections,
`notifies` the wakeups still to be given after a section has ended, and `waited` the time the
live round has spent with its clock running. -/
structure System where
  inner : QuitGateInner := {}
  now : ℕ := 0
  waiters : ℕ → Option Waiter := fun _ => none
  forcing : List ℕ := []
  notifies : ℕ := 0
  waited : ℕ := 0
  history : List Happened := []

inductive Wake where
  | notified
  | receiver (label : Label)
  | timer
  deriving DecidableEq, Repr

inductive Event where
  | register (label : Label)
  | unregister (label : Label)
  | windowGone (label : Label)
  | resolve (label : Label) (epoch : ℕ) (consent : Bool)
  | progress (label : Label) (epoch : ℕ) (busy : Bool)
  | quit (caller : Label) (force : Bool) (epoch : Option ℕ) (attemptId : Option String)
  | claim (epoch : ℕ)
  | step (epoch : ℕ) (emitted : Bool)
  | wake (epoch : ℕ) (by' : Wake)
  | cancel (epoch : ℕ)
  | notify
  | tick (elapsed : ℕ)
  deriving DecidableEq, Repr

inductive Answer where
  | none
  | registration (r : QuitGateRegistration)
  | effects (e : QuitGateEffects)
  | outcome (o : QuitOutcome)
  | refused (text : String)
  | asked (windows : List Label)
  deriving DecidableEq, Repr

namespace System

def say (s : System) (h : Happened) : System := { s with history := h :: s.history }

def setWaiter (s : System) (epoch : ℕ) (w : Option Waiter) : System :=
  { s with waiters := Function.update s.waiters epoch w }

/-- The gate's new state, with the outcome it wrote, if any, on record. -/
def conclude (s : System) (g : QuitGateInner) (forced : Bool) : System :=
  match g.terminal with
  | some (epoch, outcome) =>
    if g.terminal = s.inner.terminal then { s with inner := g }
    else
      { s with
        inner := g
        notifies := s.notifies + 1
        history := .finished epoch outcome forced s.waited
          ((s.inner.round.map (·.busy)).getD ∅) :: s.history }
  | none => { s with inner := g }

def aborted (s : System) (r : Option (QuitGateInner × QuitGateEffects)) : System × Answer :=
  match r with
  | some (g, effects) => (s.conclude g false, .effects effects)
  | none => (s, .none)

def teardown (s : System) (label : Label) (reason : QuitAbortReason) : System × Answer :=
  match s.inner.teardownGate s.now label reason with
  | (g, some effects) => (s.conclude g false, .effects effects)
  | (g, none) => ({ s with inner := g }, .none)

def resolve (s : System) (label : Label) (epoch : ℕ) (consent : Bool) : System × Answer :=
  match s.inner.resolve s.now label epoch consent with
  | (_, .ignored) => (s, .none)
  | (g, .consented true) => ((s.say (.consented epoch label)).conclude g false, .none)
  | (g, .consented false) =>
    ({ s.say (.consented epoch label) with inner := g, notifies := s.notifies + 1 }, .none)
  | (g, .refused (some effects)) => (s.conclude g false, .effects effects)
  | (g, .refused none) => ({ s with inner := g }, .none)

/-- The second section of a forced quit. -/
def claim (s : System) (epoch : ℕ) : System :=
  match s.inner.tryClaimExit epoch with
  | some g => { s with inner := g }.say (.claimed epoch)
  | none => s

def quit (s : System) (caller : Label) (force : Bool) (epoch : Option ℕ)
    (attemptId : Option String) : System × Answer :=
  if caller ≠ quitGateMainLabel then
    (s, .refused ("quit_application is restricted to the '" ++ quitGateMainLabel ++
      "' window (caller: " ++ caller ++ ")"))
  else if force then
    let supplied := epoch.getD 0
    match s.inner.forceFinish supplied with
    | (g, true) => ({ s.conclude g true with forcing := supplied :: s.forcing }, .none)
    | (g, false) => ({ s with inner := g }, .outcome (.stale supplied))
  else if (attemptId.getD "").isEmpty then
    (s, .refused "quit_application requires a nonempty attemptId")
  else
    match s.inner.installQuitRound s.now with
    | .error outcome => (s, .outcome outcome)
    | .ok g =>
      (({ s with inner := g, waited := 0 }.say (.installed g.nextEpoch s.inner.registered)).setWaiter
        g.nextEpoch (some { stage := .installed, receivers := s.inner.registered }), .none)

/-- The next section of a round's task; where it returns, its outcome. -/
def stepWaiter (s : System) (epoch : ℕ) (w : Waiter) (emitted : Bool) : System × Answer :=
  let go (s : System) (stage : Stage) : System :=
    s.setWaiter epoch (some { w with stage := stage })
  match w.stage with
  | .installed =>
    if emitted then (go s .started, .none)
    else
      let (s, answer) := s.aborted (s.inner.abort epoch .cancelled)
      (go s .unobserved, answer)
  | .unobserved =>
    let outcome := (s.inner.terminalFor epoch).getD (.aborted epoch .cancelled ∅ ∅)
    ((s.setWaiter epoch none).say (.returned epoch outcome), .outcome outcome)
  | .started =>
    (go s .asked, .asked (((s.inner.liveRound epoch).map fun round =>
      round.snapshot.sort (· ≤ ·)).getD []))
  | .asked =>
    match s.inner.finalizeConsent epoch with
    | some g => (go (s.conclude g false) .looping, .none)
    | none => (go s .looping, .none)
  | .looping => (s.setWaiter epoch (some { w with stage := .enrolled, notified := false }), .none)
  | .enrolled =>
    match s.inner.terminalFor epoch with
    | some outcome => (go s (.decided outcome), .none)
    | none => (go s .unread, .none)
  | .unread => (go s (.parked (s.inner.deadlineFor epoch)), .none)
  | .parked _ => (s, .none)
  | .expired =>
    let (s, answer) := s.aborted (s.inner.abort epoch .timeout)
    (go s .looping, answer)
  | .decided outcome =>
    let s := if outcome.outcome = .exiting then s.claim epoch else s
    ((s.setWaiter epoch none).say (.returned epoch outcome), .outcome outcome)

/-- What `select!` may wake up to. -/
def wakeWaiter (s : System) (epoch : ℕ) (w : Waiter) (cause : Wake) : System :=
  match w.stage, cause with
  | .parked _, .notified =>
    if w.notified then s.setWaiter epoch (some { w with stage := .looping }) else s
  | .parked _, .receiver label =>
    if label ∈ w.receivers ∧ (s.inner.liveRound epoch).all fun round => label ∉ round.pending then
      s.setWaiter epoch (some { w with stage := .looping, receivers := w.receivers.erase label })
    else s
  | .parked (some deadline), .timer =>
    if s.now ≥ deadline then
      s.setWaiter epoch (some { w with
        stage := if s.inner.expired s.now epoch then .expired else .looping })
    else s
  | _, _ => s

def drop (s : System) (epoch : ℕ) : System :=
  (s.setWaiter epoch none).say (.dropped epoch)

/-- The task is dropped: its guard aborts the round, unless it was disarmed. -/
def cancel (s : System) (epoch : ℕ) (w : Waiter) : System × Answer :=
  if w.armed then
    let (s, answer) := s.aborted (s.inner.abort epoch .cancelled)
    (s.drop epoch, answer)
  else (s.drop epoch, .none)

/-- A wakeup reaches every task that has enrolled. -/
def notify (s : System) : System :=
  if s.notifies = 0 then s
  else
    { s with
      notifies := s.notifies - 1
      waiters := fun epoch => (s.waiters epoch).map fun w => { w with notified := true } }

def tick (s : System) (elapsed : ℕ) : System :=
  { s with
    now := s.now + elapsed
    waited := if s.inner.round.any (·.deadline.isSome) then s.waited + elapsed else s.waited }

def step (s : System) : Event → System × Answer
  | .register label =>
    let (g, r) := s.inner.register label
    ({ s with inner := g }, .registration r)
  | .unregister label => s.teardown label .unregistered
  | .windowGone label => s.teardown label .destroyed
  | .resolve label epoch consent => s.resolve label epoch consent
  | .progress label epoch busy =>
    match s.inner.progress s.now label epoch busy with
    | some g => ({ s with inner := g, notifies := s.notifies + 1 }, .none)
    | none => (s, .none)
  | .quit caller force epoch attemptId => s.quit caller force epoch attemptId
  | .claim epoch =>
    if epoch ∈ s.forcing then
      ({ s.claim epoch with forcing := s.forcing.erase epoch }, .outcome (.exiting epoch))
    else (s, .none)
  | .step epoch emitted =>
    match s.waiters epoch with
    | some w => s.stepWaiter epoch w emitted
    | none => (s, .none)
  | .wake epoch cause =>
    match s.waiters epoch with
    | some w => (s.wakeWaiter epoch w cause, .none)
    | none => (s, .none)
  | .cancel epoch =>
    match s.waiters epoch with
    | some w => s.cancel epoch w
    | none => (s, .none)
  | .notify => (s.notify, .none)
  | .tick elapsed => (s.tick elapsed, .none)

end System

/-- Any interleaving of the windows, the tasks and the clock. -/
abbrev quitMachine : Machine System Event Answer := ⟨System.step⟩

end AgentsCommander.QuitGate
