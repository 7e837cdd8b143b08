import AgentsCommander.Foundation.Machine
import AgentsCommander.Foundation.Pool

/-! A create finalization ticket, the coordinator's worker and its shutdown. -/
namespace AgentsCommander.Selection
open Foundation

/-- Uuids, which are only compared. -/
structure PendingCreateBinding where
  sessionId : ℕ
  token : ℕ
  deriving DecidableEq, Repr

inductive SelectionCoordinatorError where
  | busy
  | unavailable
  | recursiveSubmission
  deriving DecidableEq, Repr

inductive CoordinatorPhase where
  | bootstrapping
  | restoring
  | running
  | closing
  deriving DecidableEq, Repr

/-- Whose permits: the ticket's, or those of other tickets and submissions. -/
inductive Owner where
  | ticket
  | other (create : Bool)
  deriving DecidableEq, Repr

/-- Has a create permit beside its slot and its admission. -/
def Owner.create : Owner → Bool
  | .ticket => true
  | .other create => create

inductive CoordinatorJob where
  | finalizeCreate (binding : PendingCreateBinding)
  | rollbackCreate (binding : PendingCreateBinding)
  | other
  deriving DecidableEq, Repr

def CoordinatorJob.binding : CoordinatorJob → Option PendingCreateBinding
  | .finalizeCreate binding | .rollbackCreate binding => some binding
  | .other => none

/-- Carries the permits of its owner. -/
structure CoordinatorEnvelope where
  owner : Owner
  job : CoordinatorJob
  deriving DecidableEq, Repr

/-- The three permits, the binding and `completed`. -/
structure CreateFinalizationTicket where
  slot : Bool
  admission : Bool
  createTicket : Bool
  binding : Option PendingCreateBinding
  completed : Bool
  deriving DecidableEq, Repr

/-- Who has the ticket. -/
inductive TicketStage where
  | absent
  /-- `reserve_create_internal` at its wait. -/
  | reserving
  | live (ticket : CreateFinalizationTicket)
  /-- The future of `finalize` before its first poll. -/
  | finalizing (ticket : CreateFinalizationTicket)
  /-- The future of `finalize` at its wait for the response. -/
  | waiting (ticket : CreateFinalizationTicket)
  | gone
  deriving DecidableEq, Repr

/-- What `retained_entry_owns_binding` finds, with its `try_lock`s. -/
inductive RetainedBinding where
  | unowned
  | owned
  | unreadable
  deriving DecidableEq, Repr

/-- What a job meets: the runtime witness, the commit and the retained entries. -/
structure JobOutcome where
  live : Bool
  commits : Bool
  retained : RetainedBinding
  deriving DecidableEq, Repr

structure Settlement where
  envelope : CoordinatorEnvelope
  drained : Bool
  retained : RetainedBinding
  stillPending : Bool
  deriving DecidableEq, Repr

/-- Where `worker_loop` stands; `draining` after the receiver was closed. -/
inductive CoordinatorStage where
  | idle (draining : Bool)
  | executing (draining : Bool) (envelope : CoordinatorEnvelope)
  /-- Admission is released, the hold is not dropped yet. -/
  | holding (draining : Bool) (envelope : CoordinatorEnvelope)
  | gone
  | aborted
  deriving DecidableEq, Repr

/-- `reserved`: what the others have reserved and not sent; `pending`: the ticket's pending record.
`bound`, `sent` and `settled` record the binding, the envelopes and what became of them. -/
structure CreateWorld where
  slots : Pool Owner
  admission : Pool Owner
  createTickets : Pool Owner
  phase : CoordinatorPhase
  shutdown : Bool
  queue : List CoordinatorEnvelope
  worker : CoordinatorStage
  ticket : TicketStage
  reserved : List Bool
  pending : List PendingCreateBinding
  bound : Option PendingCreateBinding
  sent : List CoordinatorEnvelope
  settled : List Settlement
  deriving DecidableEq

inductive CreateEvent where
  | reserve (inWorker : Bool)
  | reserved
  | releaseCapacityForWait
  | resumeUnboundCapacity (inWorker : Bool)
  | bind (binding : PendingCreateBinding)
  /-- The creator's pending record of the binding. -/
  | insertPending
  | finalize
  | poll
  | drop
  | otherReserve (create : Bool)
  | otherSend (create : Bool)
  | otherDrop (create : Bool)
  | worker (outcome : JobOutcome)
  | setPhase (phase : CoordinatorPhase)
  | closeAdmission
  | closeCreateTickets
  | cancel
  | abort

/-- What an operation of the ticket returns. -/
inductive CreateAnswer where
  | none
  | unbound (unbound : Bool)
  | resumed (result : Except SelectionCoordinatorError Unit)

/-- Only the retained entries' owner may clean up what they own. -/
def executeRollbackCreate (pending : List PendingCreateBinding) (binding : PendingCreateBinding)
    (retained : RetainedBinding) : List PendingCreateBinding :=
  if retained = .unowned then pending.filter (· ≠ binding) else pending

def executeFinalizeCreate (pending : List PendingCreateBinding) (binding : PendingCreateBinding)
    (outcome : JobOutcome) : List PendingCreateBinding :=
  if binding ∉ pending then executeRollbackCreate pending binding outcome.retained
  else if ¬ outcome.live then executeRollbackCreate pending binding outcome.retained
  else if outcome.commits then pending.filter (· ≠ binding)
  else executeRollbackCreate pending binding outcome.retained

/-- `drain_after_shutdown` rolls a create back, `execute_envelope` finalizes it. -/
def CoordinatorJob.run (job : CoordinatorJob) (draining : Bool) (outcome : JobOutcome)
    (pending : List PendingCreateBinding) : List PendingCreateBinding :=
  match job with
  | .finalizeCreate binding =>
    if draining then executeRollbackCreate pending binding outcome.retained
    else executeFinalizeCreate pending binding outcome
  | .rollbackCreate binding => executeRollbackCreate pending binding outcome.retained
  | .other => pending

namespace CreateWorld
variable (s : CreateWorld)

/-- Before the ticket is reserved. -/
def new (queue admission createTickets : ℕ) : CreateWorld where
  slots := .fresh queue
  admission := .fresh admission
  createTickets := .fresh createTickets
  phase := .running
  shutdown := false
  queue := []
  worker := .idle false
  ticket := .absent
  reserved := []
  pending := []
  bound := none
  sent := []
  settled := []

def checkExternalSubmission (inWorker : Bool) : Except SelectionCoordinatorError Unit :=
  if inWorker then .error .recursiveSubmission
  else match s.phase with
    | .running => .ok ()
    | .bootstrapping | .restoring => .error .busy
    | .closing => .error .unavailable

/-- The three acquisitions; what was acquired before a failure is dropped again. -/
def acquireCapacity (owner : Owner) : Except SelectionCoordinatorError CreateWorld :=
  match s.createTickets.acquire? owner with
  | none => .error .busy
  | some createTickets => match s.admission.acquire? owner with
    | none => .error .busy
    | some admission => match s.slots.acquire? owner with
      | none => .error (if s.slots.closed then .unavailable else .busy)
      | some slots => .ok { s with
        slots := slots
        admission := admission
        createTickets := createTickets }

/-- The drop of those permits of the owner that are flagged. -/
def give (owner : Owner) (slot admission createTicket : Bool) : CreateWorld := { s with
  slots := if slot then s.slots.release owner else s.slots
  admission := if admission then s.admission.release owner else s.admission
  createTickets :=
    if createTicket then s.createTickets.release owner else s.createTickets }

def send (envelope : CoordinatorEnvelope) : CreateWorld :=
  { s with queue := s.queue ++ [envelope], sent := s.sent ++ [envelope] }

/-- The drop of the ticket's fields. -/
def discard (ticket : CreateFinalizationTicket) : CreateWorld :=
  ({ s with ticket := .gone }).give .ticket ticket.slot ticket.admission ticket.createTicket

/-- The destructor, and the drop of the fields. -/
def dropTicket (ticket : CreateFinalizationTicket) : CreateWorld :=
  if ticket.completed then s.discard ticket
  else match ticket.binding with
    | none => s.discard ticket
    | some binding =>
      if ticket.slot ∧ ticket.admission ∧ ticket.createTicket then
        ({ s with ticket := .gone }).send ⟨.ticket, .rollbackCreate binding⟩
      else s.discard ticket

def reserve (inWorker : Bool) : CreateWorld :=
  match s.ticket, s.checkExternalSubmission inWorker with
  | .absent, .ok () => match s.acquireCapacity .ticket with
    | .ok t => { t with ticket := .reserving }
    | .error _ => s
  | _, _ => s

def reserveReturns : CreateWorld :=
  match s.ticket with
  | .reserving => { s with ticket := .live ⟨true, true, true, none, false⟩ }
  | _ => s

def releaseCapacityForWait : CreateWorld × CreateAnswer :=
  match s.ticket with
  | .live ticket =>
    let released := { ticket with slot := false, admission := false, createTicket := false }
    (({ s with ticket := .live released }).give .ticket ticket.slot ticket.admission
        ticket.createTicket,
      .unbound (!ticket.completed && ticket.binding.isNone))
  | _ => (s, .none)

def resumeUnboundCapacity (inWorker : Bool) : CreateWorld × CreateAnswer :=
  match s.ticket with
  | .live ticket =>
    if ticket.slot ∧ ticket.admission ∧ ticket.createTicket then (s, .resumed (.ok ()))
    else if ticket.completed ∨ ticket.binding.isSome ∨ ticket.slot ∨ ticket.admission ∨
        ticket.createTicket then (s, .resumed (.error .unavailable))
    else match s.checkExternalSubmission inWorker with
      | .error error => (s, .resumed (.error error))
      | .ok () => match s.acquireCapacity .ticket with
        | .error error => (s, .resumed (.error error))
        | .ok t =>
          let resumed := { ticket with slot := true, admission := true, createTicket := true }
          ({ t with ticket := .live resumed }, .resumed (.ok ()))
  | _ => (s, .none)

def bind (binding : PendingCreateBinding) : CreateWorld :=
  match s.ticket with
  | .live ticket =>
    if ticket.completed ∨ ticket.binding.isSome then s
    else { s with ticket := .live { ticket with binding := some binding }, bound := some binding }
  | _ => s

def insertPending : CreateWorld :=
  match s.ticket with
  | .live ticket => match ticket.binding with
    | some binding => { s with pending := binding :: s.pending }
    | none => s
  | _ => s

def finalize : CreateWorld :=
  match s.ticket with
  | .live ticket => { s with ticket := .finalizing ticket }
  | _ => s

/-- The first poll of `finalize_with_owned_outcome`, up to its wait. -/
def poll : CreateWorld :=
  match s.ticket with
  | .finalizing ticket =>
    if ticket.slot = false then s.dropTicket ticket
    else if ticket.admission = false then
      (s.give .ticket true false false).dropTicket { ticket with slot := false }
    else if ticket.createTicket = false then
      (s.give .ticket true true false).dropTicket { ticket with slot := false, admission := false }
    else match ticket.binding with
      | none => (s.give .ticket true true true).dropTicket
          { ticket with slot := false, admission := false, createTicket := false }
      | some binding =>
        { s.send ⟨.ticket, .finalizeCreate binding⟩ with
          ticket := .waiting ⟨false, false, false, none, true⟩ }
  | _ => s

def drop : CreateWorld :=
  match s.ticket with
  | .reserving => ({ s with ticket := .gone }).give .ticket true true true
  | .live ticket | .finalizing ticket | .waiting ticket => s.dropTicket ticket
  | .absent | .gone => s

/-- Other tickets acquire as this one does, other submissions without a create permit. -/
def otherReserve (create : Bool) : CreateWorld :=
  if create then match s.acquireCapacity (.other true) with
    | .ok t => { t with reserved := true :: s.reserved }
    | .error _ => s
  else match s.admission.acquire? (.other false), s.slots.acquire? (.other false) with
    | some admission, some slots =>
      { s with admission := admission, slots := slots, reserved := false :: s.reserved }
    | _, _ => s

def otherSend (create : Bool) : CreateWorld :=
  if create ∈ s.reserved then
    ({ s with reserved := s.reserved.erase create }).send ⟨.other create, .other⟩
  else s

def otherDrop (create : Bool) : CreateWorld :=
  if create ∈ s.reserved then
    ({ s with reserved := s.reserved.erase create }).give (.other create) true true create
  else s

/-- The receipt of an envelope frees its slot. -/
def receive (draining : Bool) (envelope : CoordinatorEnvelope) (rest : List CoordinatorEnvelope) :
    CreateWorld :=
  ({ s with queue := rest, worker := .executing draining envelope }).give envelope.owner
    true false false

/-- The job, and `EnvelopeHold::release`. -/
def execute (draining : Bool) (envelope : CoordinatorEnvelope) (outcome : JobOutcome) :
    CreateWorld :=
  let pending := envelope.job.run draining outcome s.pending
  let settlement : Settlement :=
    ⟨envelope, draining, outcome.retained, envelope.job.binding.any (· ∈ pending)⟩
  ({ s with
    pending := pending
    worker := .holding draining envelope
    settled := s.settled ++ [settlement] }).give envelope.owner false true false

def workerStep (outcome : JobOutcome) : CreateWorld :=
  match s.worker with
  | .idle false =>
    if s.shutdown then { s with slots := s.slots.close, worker := .idle true }
    else match s.queue with
      | envelope :: rest => s.receive false envelope rest
      | [] => s
  | .idle true => match s.queue with
    | envelope :: rest => s.receive true envelope rest
    | [] => if s.slots.held = [] then { s with worker := .gone } else s
  | .executing draining envelope => s.execute draining envelope outcome
  | .holding draining envelope =>
    ({ s with worker := .idle draining }).give envelope.owner false false envelope.owner.create
  | .gone | .aborted => s

/-- The permits of the job that an aborted worker has. -/
def giveHeld : CreateWorld :=
  match s.worker with
  | .executing _ envelope => s.give envelope.owner false true envelope.owner.create
  | .holding _ envelope => s.give envelope.owner false false envelope.owner.create
  | .idle _ | .gone | .aborted => s

/-- The permits of what a dropped receiver still has. -/
def giveQueued (envelopes : List CoordinatorEnvelope) : CreateWorld :=
  envelopes.foldl (fun s envelope => s.give envelope.owner true true envelope.owner.create) s

def abort : CreateWorld :=
  { s.giveHeld.giveQueued s.queue with queue := [], worker := .aborted }

def step : CreateEvent → CreateWorld × CreateAnswer
  | .reserve inWorker => (s.reserve inWorker, .none)
  | .reserved => (s.reserveReturns, .none)
  | .releaseCapacityForWait => s.releaseCapacityForWait
  | .resumeUnboundCapacity inWorker => s.resumeUnboundCapacity inWorker
  | .bind binding => (s.bind binding, .none)
  | .insertPending => (s.insertPending, .none)
  | .finalize => (s.finalize, .none)
  | .poll => (s.poll, .none)
  | .drop => (s.drop, .none)
  | .otherReserve create => (s.otherReserve create, .none)
  | .otherSend create => (s.otherSend create, .none)
  | .otherDrop create => (s.otherDrop create, .none)
  | .worker outcome => (s.workerStep outcome, .none)
  | .setPhase phase => ({ s with phase := phase }, .none)
  | .closeAdmission => ({ s with admission := s.admission.close }, .none)
  | .closeCreateTickets => ({ s with createTickets := s.createTickets.close }, .none)
  | .cancel => ({ s with shutdown := true }, .none)
  | .abort => (s.abort, .none)

end CreateWorld

def createCoordinator : Machine CreateWorld CreateEvent CreateAnswer := ⟨CreateWorld.step⟩

end AgentsCommander.Selection
