import AgentsCommander.Foundation.Machine
import Mathlib.Data.Finset.Erase
import Mathlib.Data.Finset.Insert
import Mathlib.Logic.Function.Basic

/-! The install-state cache, and the probe tasks that hold its tickets. -/
namespace AgentsCommander.AgentUpdate
open Foundation

inductive InstallStatus where
  | checking | missing | installed | probeFailed | unprobed
  deriving DecidableEq, Repr

structure InstallState where
  status : InstallStatus
  version : Option String
  path : Option String
  detail : Option String
  seq : ℕ
  deriving DecidableEq, Repr

structure CachedInstall where
  probedAt : ℕ
  state : InstallState
  deriving DecidableEq, Repr

structure CacheInner where
  generation : ℕ
  seq : ℕ
  entries : String → Option CachedInstall
  inFlight : Finset String

inductive CacheLookup where
  | fresh (state : InstallState)
  | inFlight
  | absent
  deriving DecidableEq, Repr

structure ProbeTicket where
  command : String
  generation : ℕ
  live : Bool
  deriving DecidableEq, Repr

inductive Scheduling where
  | fresh (state : InstallState)
  | inFlight
  | began (ticket : ProbeTicket)
  | deferred
  deriving DecidableEq, Repr

inductive Completion where
  | committed (state : InstallState)
  | stale (ticket : ProbeTicket)
  deriving DecidableEq, Repr

namespace CacheInner
variable (inner : CacheInner)

def new : CacheInner := ⟨0, 0, fun _ => none, ∅⟩

/-- Instants are subtracted down to zero. -/
def freshEntry (command : String) (now ttl : ℕ) : Option InstallState :=
  match inner.entries command with
  | some entry => if now - entry.probedAt ≤ ttl then some entry.state else none
  | none => none

def removeEntry (command : String) : CacheInner :=
  { inner with entries := Function.update inner.entries command none }

def lookup (command : String) (now ttl : ℕ) : CacheInner × CacheLookup :=
  match inner.freshEntry command now ttl with
  | some state => (inner, .fresh state)
  | none =>
    (inner.removeEntry command, if command ∈ inner.inFlight then .inFlight else .absent)

def lookupOrBegin (command : String) (now ttl : ℕ) (mayBegin : Bool) : CacheInner × Scheduling :=
  match inner.freshEntry command now ttl with
  | some state => (inner, .fresh state)
  | none =>
    let swept := inner.removeEntry command
    if command ∈ inner.inFlight then (swept, .inFlight)
    else if mayBegin then
      ({ swept with inFlight := insert command inner.inFlight },
        .began ⟨command, inner.generation, true⟩)
    else (swept, .deferred)

def invalidateAll : CacheInner :=
  { inner with generation := inner.generation + 1, entries := fun _ => none }

/-- The `Drop` of a ticket. -/
def dropTicket (ticket : ProbeTicket) : CacheInner :=
  if ticket.live then { inner with inFlight := inner.inFlight.erase ticket.command } else inner

/-- The committed ticket is dropped once the lock is released. -/
def complete (ticket : ProbeTicket) (state : InstallState) (now : ℕ) : CacheInner × Completion :=
  if inner.generation = ticket.generation then
    let stamped := { state with seq := inner.seq + 1 }
    let stored : CacheInner :=
      { inner with
        seq := inner.seq + 1
        entries := Function.update inner.entries ticket.command (some ⟨now, stamped⟩)
        inFlight := inner.inFlight.erase ticket.command }
    (stored.dropTicket { ticket with live := false }, .committed stamped)
  else (inner, .stale { ticket with generation := inner.generation })

theorem complete_of_current {ticket : ProbeTicket} (h : inner.generation = ticket.generation)
    (state : InstallState) (now : ℕ) : inner.complete ticket state now =
      ({ inner with
          seq := inner.seq + 1
          entries := Function.update inner.entries ticket.command
            (some ⟨now, { state with seq := inner.seq + 1 }⟩)
          inFlight := inner.inFlight.erase ticket.command },
        .committed { state with seq := inner.seq + 1 }) := by
  rw [complete, if_pos h]
  rfl

theorem complete_of_stale {ticket : ProbeTicket} (h : inner.generation ≠ ticket.generation)
    (state : InstallState) (now : ℕ) : inner.complete ticket state now =
      (inner, .stale { ticket with generation := inner.generation }) := if_neg h

end CacheInner

/-- Where `probe_commit_announce` stands. A probe is known by its number. -/
inductive ProbeTask where
  /-- The ticket is held and no probe of this round runs yet. -/
  | holds (retried : Bool) (ticket : ProbeTicket)
  | probing (retried : Bool) (probe : ℕ) (ticket : ProbeTicket)
  | probed (retried : Bool) (probe : ℕ) (ticket : ProbeTicket) (state : InstallState)
  | abandoned (ticket : ProbeTicket)
  | committed (command : String) (install : InstallState)
  | ended
  deriving DecidableEq, Repr

namespace ProbeTask

def ticket : ProbeTask → Option ProbeTicket
  | .holds _ t | .probing _ _ t | .probed _ _ t _ | .abandoned t => some t
  | .committed .. | .ended => none

/-- What a task is after its completion. -/
def completed (retried : Bool) (command : String) : Completion → ProbeTask
  | .committed install => .committed command install
  | .stale ticket => if retried then .abandoned ticket else .holds true ticket

end ProbeTask

structure InstallWorld where
  inner : CacheInner
  tasks : List ProbeTask
  /-- How many probes have been started. -/
  probes : ℕ

inductive InstallEvent where
  | lookup (command : String) (now ttl : ℕ)
  | lookupOrBegin (command : String) (now ttl : ℕ) (mayBegin : Bool)
  | startProbe (task : ℕ)
  | probeEnds (task : ℕ) (state : InstallState)
  | complete (task now : ℕ)
  /-- The task ends here: aborted, unwound, or with its abandoned ticket. -/
  | dropTask (task : ℕ)
  | announce (task : ℕ)
  | invalidateAll
  deriving DecidableEq, Repr

inductive InstallAnswer where
  | done
  | lookup (command : String) (found : CacheLookup)
  | scheduling (command : String) (found : Scheduling)
  | started (command : String) (probe : ℕ)
  | probeEnded (probe : ℕ) (state : InstallState)
  | completion (command : String) (probe : ℕ) (completion : Completion)
  | announced (command : String) (install : InstallState)
  deriving DecidableEq, Repr

namespace InstallWorld
variable (w : InstallWorld)

def new : InstallWorld := ⟨.new, [], 0⟩

def setTask (task : ℕ) (next : ProbeTask) : InstallWorld :=
  { w with tasks := w.tasks.set task next }

def withInner (inner : CacheInner) : InstallWorld := { w with inner }

def lookupOrBegin (command : String) (now ttl : ℕ) (mayBegin : Bool) :
    InstallWorld × InstallAnswer :=
  let (inner, found) := w.inner.lookupOrBegin command now ttl mayBegin
  match found with
  | .began ticket =>
    ({ w with inner, tasks := w.tasks ++ [.holds false ticket] }, .scheduling command found)
  | _ => (w.withInner inner, .scheduling command found)

def startProbe (task : ℕ) : InstallWorld × InstallAnswer :=
  match w.tasks[task]? with
  | some (.holds retried ticket) =>
    ({ w.setTask task (.probing retried w.probes ticket) with probes := w.probes + 1 },
      .started ticket.command w.probes)
  | _ => (w, .done)

def probeEnds (task : ℕ) (state : InstallState) : InstallWorld × InstallAnswer :=
  match w.tasks[task]? with
  | some (.probing retried probe ticket) =>
    (w.setTask task (.probed retried probe ticket state), .probeEnded probe state)
  | _ => (w, .done)

def complete (task now : ℕ) : InstallWorld × InstallAnswer :=
  match w.tasks[task]? with
  | some (.probed retried probe ticket state) =>
    let (inner, completion) := w.inner.complete ticket state now
    ((w.withInner inner).setTask task (.completed retried ticket.command completion),
      .completion ticket.command probe completion)
  | _ => (w, .done)

def dropTask (task : ℕ) : InstallWorld :=
  match w.tasks[task]? with
  | some current =>
    (w.withInner (current.ticket.elim w.inner w.inner.dropTicket)).setTask task .ended
  | none => w

def announce (task : ℕ) : InstallWorld × InstallAnswer :=
  match w.tasks[task]? with
  | some (.committed command install) => (w.setTask task .ended, .announced command install)
  | _ => (w, .done)

def step : InstallEvent → InstallWorld × InstallAnswer
  | .lookup command now ttl =>
    (w.withInner (w.inner.lookup command now ttl).1,
      .lookup command (w.inner.lookup command now ttl).2)
  | .lookupOrBegin command now ttl mayBegin => w.lookupOrBegin command now ttl mayBegin
  | .startProbe task => w.startProbe task
  | .probeEnds task state => w.probeEnds task state
  | .complete task now => w.complete task now
  | .dropTask task => (w.dropTask task, .done)
  | .announce task => w.announce task
  | .invalidateAll => (w.withInner w.inner.invalidateAll, .done)

end InstallWorld

def installCache : Machine InstallWorld InstallEvent InstallAnswer := ⟨InstallWorld.step⟩

end AgentsCommander.AgentUpdate
