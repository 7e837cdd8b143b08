import AgentsCommander.Foundation.Machine
import AgentsCommander.ResponseClose.Returns

/-! Runs of the tracker, with the admissions that are held and what has been answered so far. -/
namespace AgentsCommander.ResponseClose
open Foundation Sessions

inductive Event where
  /-- A panic inside a critical section. -/
  | poison
  | failClosed
  /-- A section that only reads. -/
  | read
  | tryEnableReadiness
  | publish (publication : Publication) (now : Instant)
  | applySettings (enabled : Bool) (seconds : ℕ) (now : Instant)
  | registerRoute (id : Uuid) (generation : ℕ) (now : Instant)
  | removeRoute (id : Uuid) (generation : ℕ)
  | beginUnresolvedSpawn (now : Instant)
  | endUnresolvedSpawn (now : Instant)
  | reserveWriterInner (id : Uuid) (generation : ℕ) (invalidate : Bool) (now : Instant)
  | dropWriter (admission : WriterAdmission) (now : Instant)
  | reserveWork (target key : String) (now : Instant)
  | acceptDurable (admission : WorkAdmission) (digest : String) (now : Instant)
  | dropWork (admission : WorkAdmission) (now : Instant)
  | settleTerminal (target key : String) (now : Instant)
  | beginDelivery (target : String)
  | dropDelivery (reservation : WorkDeliveryReservation) (now : Instant)
  | reserveCreateOwner (target : String) (nonce : Uuid) (classification : CreateClassification)
      (now : Instant)
  | dropCreateOwner (reservation : CreateOwnerReservation) (now : Instant)
  | reservePolicyCandidate (member coordinator : ResponseRouteIdentity) (key digest : String)
      (now : Instant)
  | markRequestSubmitted (context : ResponseDeliveryContext) (submitted : Bool)
  | registerRequest (proof : ResponseDeliveryProof) (now : Instant)
  | admitReturn (member coordinator : ResponseRouteIdentity) (key digest : String) (now : Instant)
  /-- `observe_return_success`, or `settle_return_terminal`. -/
  | settleReturn (context : ReturnObservationContext) (success : Bool) (now : Instant)
  | selectTicket (id : Uuid) (now : Instant)
  | tryCommitResponseClose (ticket : ResponseCloseTicket) (now : Instant)
  | finishResponseClose (ticket : ResponseCloseTicket) (evidence : ResponseCloseSettlementEvidence)
  deriving DecidableEq, Repr

inductive Answer where
  | done
  /-- There was nothing to drop or to settle. -/
  | idle
  | error (e : ResponseCloseError)
  | writer (admission : WriterAdmission)
  | work (admission : WorkAdmission)
  | accepted (fresh : Bool)
  | delivery (reservation : WorkDeliveryReservation)
  | create (admission : CreateAdmission)
  | candidate (context : ResponseDeliveryContext)
  | returned (context : ReturnObservationContext)
  | ticket (ticket : ResponseCloseTicket)
  | committed (nonce : Uuid)
  | finished (accepted : Bool)
  deriving DecidableEq, Repr

/-- Nothing is granted. -/
def Answer.hollow : Answer → Bool
  | .done | .idle | .error _ | .finished false => true
  | .writer a => !a.counted
  | _ => false

def Answer.of {α : Type} (f : α → Answer) : Except ResponseCloseError α → Answer
  | .ok a => f a
  | .error e => .error e

namespace Event

/-- What takes the lock also where it is poisoned or the tracker has failed. -/
def locksAnyway : Event → Bool
  | .failClosed | .reserveWriterInner .. | .beginDelivery _ => true
  | _ => false

/-- What is answered where the tracker has failed. -/
def refused : Event → Answer
  | .finishResponseClose .. => .finished false
  | .tryEnableReadiness | .reserveWork .. | .acceptDurable .. | .reserveCreateOwner ..
  | .reservePolicyCandidate .. | .registerRequest .. | .admitReturn .. | .settleReturn ..
  | .selectTicket .. | .tryCommitResponseClose .. => .error .unavailable
  | _ => .done

end Event

structure World where
  state : ResponseCloseState
  nextUuid : Uuid
  nextRouteGeneration : ℕ
  /-- The admissions of writers that are counted. -/
  writers : List WriterAdmission
  /-- The admissions of work that are active. -/
  works : List WorkAdmission
  deliveries : List WorkDeliveryReservation
  creates : List CreateOwnerReservation
  spawns : ℕ
  issued : List ReturnObservationContext
  history : List (Event × Answer)

namespace World

def initial : World := ⟨.default, 0, 0, [], [], [], [], 0, [], []⟩

abbrev inner (w : World) : ResponseCloseInner := w.state.inner

/-- What an event does and answers where the tracker is open. -/
def act (w : World) (s : ResponseCloseInner) : Event → ResponseCloseInner × Answer
  | .poison => (s, .done)
  | .failClosed => (s.failClosed, .done)
  | .read => (s, .done)
  | .tryEnableReadiness => (s.tryEnableReadiness.1, .of (fun _ => .done) s.tryEnableReadiness.2)
  | .publish publication now => (s.publish now publication, .done)
  | .applySettings enabled seconds now => (s.applySettings enabled seconds now, .done)
  | .registerRoute id generation now => (s.registerRoute id generation now, .done)
  | .removeRoute id generation => (s.removeRoute id generation, .done)
  | .beginUnresolvedSpawn now => (s.beginUnresolvedSpawn now, .done)
  | .endUnresolvedSpawn now => (s.endUnresolvedSpawn now, .done)
  | .reserveWriterInner id generation invalidate now =>
    ((s.reserveWriterInner id generation invalidate now).1,
      .of .writer (s.reserveWriterInner id generation invalidate now).2)
  | .dropWriter a now => (s.dropWriter a now, .done)
  | .reserveWork target key now =>
    ((s.reserveWork target key now).1, .of .work (s.reserveWork target key now).2)
  | .acceptDurable a digest now =>
    ((s.acceptDurable a digest now).1, .of .accepted (s.acceptDurable a digest now).2)
  | .dropWork a now => (s.dropWork a now, .done)
  | .settleTerminal target key now => (s.settleTerminal target key now, .done)
  | .beginDelivery target => ((s.beginDelivery target).1, .of .delivery (s.beginDelivery target).2)
  | .dropDelivery a now => (s.dropDelivery a now, .done)
  | .reserveCreateOwner target nonce classification now =>
    ((s.reserveCreateOwner target nonce classification now).1,
      .of .create (s.reserveCreateOwner target nonce classification now).2)
  | .dropCreateOwner a now => (s.dropCreateOwner a now, .done)
  | .reservePolicyCandidate member coordinator key digest now =>
    ((s.reservePolicyCandidate w.nextUuid member coordinator key digest now).1,
      .of .candidate (s.reservePolicyCandidate w.nextUuid member coordinator key digest now).2)
  | .markRequestSubmitted context submitted => (s.markRequestSubmitted context submitted, .done)
  | .registerRequest proof now =>
    ((s.registerRequest proof now).1, .of (fun _ => .done) (s.registerRequest proof now).2)
  | .admitReturn member coordinator key digest now =>
    ((s.admitReturn member coordinator key digest now).1,
      .of .returned (s.admitReturn member coordinator key digest now).2)
  | .settleReturn c success now =>
    ((s.settleReturn c success now).1, .of (fun _ => .done) (s.settleReturn c success now).2)
  | .selectTicket id now =>
    ((s.selectTicket w.nextUuid id now).1, .of .ticket (s.selectTicket w.nextUuid id now).2)
  | .tryCommitResponseClose ticket now =>
    ((s.tryCommitResponseClose ticket now).1,
      .of .committed (s.tryCommitResponseClose ticket now).2)
  | .finishResponseClose ticket evidence =>
    ((s.finishResponseClose ticket evidence).1,
      .finished (s.finishResponseClose ticket evidence).2)

/-- Only what is held can be dropped, and only a context that was issued can be settled. -/
def holds (w : World) : Event → Bool
  | .dropWriter a _ => decide (a ∈ w.writers)
  | .dropWork a _ => decide (a ∈ w.works)
  | .dropDelivery a _ => decide (a ∈ w.deliveries)
  | .dropCreateOwner a _ => decide (a ∈ w.creates)
  | .settleReturn c _ _ => decide (c ∈ w.issued)
  | _ => true

def respond (w : World) (e : Event) : ResponseCloseState × Answer :=
  if e = .poison then (w.state.poison, .done)
  else if w.holds e = false then (w.state, .idle)
  else if e.locksAnyway then
    let t := w.state.lockAnyway
    ({ t with inner := (w.act t.inner e).1 }, (w.act t.inner e).2)
  else w.state.withInner e.refused (w.act · e)

/-- Who holds what after an answer. -/
def enter (w : World) : Event → Answer → World
  | .reserveWriterInner .., .writer a =>
    if a.counted then { w with writers := a :: w.writers } else w
  | .dropWriter a _, .done => { w with writers := w.writers.erase a }
  | .reserveWork .., .work a => if a.active then { w with works := a :: w.works } else w
  | .dropWork a _, .done => { w with works := w.works.erase a }
  | .beginDelivery _, .delivery a => { w with deliveries := a :: w.deliveries }
  | .dropDelivery a _, .done => { w with deliveries := w.deliveries.erase a }
  | .reserveCreateOwner .., .create (.reserved a) => { w with creates := a :: w.creates }
  | .dropCreateOwner a _, .done => { w with creates := w.creates.erase a }
  | .beginUnresolvedSpawn _, _ => { w with spawns := w.spawns + 1 }
  | .endUnresolvedSpawn _, _ => { w with spawns := w.spawns - 1 }
  | .registerRoute _ generation _, _ =>
    { w with nextRouteGeneration := max w.nextRouteGeneration generation }
  | .reservePolicyCandidate .., .candidate _ => { w with nextUuid := w.nextUuid + 1 }
  | .selectTicket .., .ticket _ => { w with nextUuid := w.nextUuid + 1 }
  | .admitReturn .., .returned c => { w with issued := c :: w.issued }
  | _, _ => w

def step (w : World) (e : Event) : World × Answer :=
  let t := w.respond e
  ({ w.enter e t.2 with state := t.1, history := (e, t.2) :: w.history }, t.2)

end World

def tracker : Machine World Event Answer := ⟨World.step⟩

/-- The routes are numbered as `RouteRegistry::publish` numbers them: upwards. -/
def Numbered (w : World) : Event → Prop
  | .registerRoute _ generation _ => w.nextRouteGeneration < generation
  | _ => True

instance (w : World) : DecidablePred (Numbered w)
  | .registerRoute _ generation _ => inferInstanceAs (Decidable (w.nextRouteGeneration < generation))
  | .poison | .failClosed | .read | .tryEnableReadiness | .publish .. | .applySettings ..
  | .removeRoute .. | .beginUnresolvedSpawn _ | .endUnresolvedSpawn _ | .reserveWriterInner ..
  | .dropWriter .. | .reserveWork .. | .acceptDurable .. | .dropWork .. | .settleTerminal ..
  | .beginDelivery _ | .dropDelivery .. | .reserveCreateOwner .. | .dropCreateOwner ..
  | .reservePolicyCandidate .. | .markRequestSubmitted .. | .registerRequest ..
  | .admitReturn .. | .settleReturn .. | .selectTicket .. | .tryCommitResponseClose ..
  | .finishResponseClose .. => isTrue trivial

def sampleMember : ResponseRouteIdentity := ⟨"room/member", 10, 20, 1, 1, .localProcess⟩

def sampleCoordinator : ResponseRouteIdentity := ⟨"room/lead", 11, 21, 2, 1, .localProcess⟩

/-- A ready tracker, two routes, and a candidate for a request from the one to the other. -/
def candidateRun : List Event :=
  [.publish (.bindPublisher .manager) 0, .publish (.bindPublisher .pty) 0,
    .publish (.bindPublisher .rawOutput) 0, .publish (.bindPublisher .detector) 0,
    .publish (.bindPublisher .menu) 0, .publish (.bindPublisher .hold) 0,
    .publish .markWorkBootstrapped 0, .tryEnableReadiness, .applySettings true 30 0,
    .registerRoute 10 1 0, .publish (.publishManagerRow 10 20 1 1 true false) 0,
    .publish (.publishManagerFacts sampleMember true false) 0,
    .registerRoute 11 2 0, .publish (.publishManagerRow 11 21 2 1 false false) 0,
    .publish (.publishManagerFacts sampleCoordinator false false) 0,
    .publish (.observeDetector 10 false) 0, .publish (.publishMenu 10 (some false)) 0,
    .publish (.publishHold 10 none true) 0, .reserveWork "room/member" "ask" 0,
    .acceptDurable ⟨"room/member", "ask", true⟩ "ask" 0,
    .dropWork ⟨"room/member", "ask", true⟩ 0,
    .reservePolicyCandidate sampleMember sampleCoordinator "ask" "ask" 0]

def sampleReturn : ReturnObservationContext :=
  ⟨1, 1, 10, 0, "ack", "ack", sampleMember, sampleCoordinator, 3⟩

def sampleProof : ResponseDeliveryProof := ⟨⟨10, 0⟩, sampleMember, sampleCoordinator, 1⟩

/-- The request is submitted and registered, its return succeeds, and a ticket is selected. -/
def selectedRun : List Event :=
  candidateRun ++ [.markRequestSubmitted ⟨10, 0⟩ true, .registerRequest sampleProof 0,
    .admitReturn sampleMember sampleCoordinator "ack" "ack" 0, .settleReturn sampleReturn true 0,
    .selectTicket 10 (30 * 10 ^ 9)]

def sampleTicket : ResponseCloseTicket := ⟨10, 1, 0, 1, 3, 8, 1, 1, sampleMember⟩

end AgentsCommander.ResponseClose
