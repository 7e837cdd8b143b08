import AgentsCommander.ResponseClose.Routes

/-! A policy from its candidate to the close: registration, returns, the ticket, and the
settlement of a committed close. -/
namespace AgentsCommander.ResponseClose
open Foundation Sessions

structure ResponseDeliveryContext where
  sessionId : Uuid
  nonce : Uuid
  deriving DecidableEq, Repr

structure ResponseDeliveryProof where
  context : ResponseDeliveryContext
  member : ResponseRouteIdentity
  coordinator : ResponseRouteIdentity
  publishedCarrierVersion : ℕ
  deriving DecidableEq, Repr

structure ReturnObservationContext where
  settingsEpoch : ℕ
  sequence : ℕ
  sessionId : Uuid
  nonce : Uuid
  key : String
  digest : String
  member : ResponseRouteIdentity
  coordinator : ResponseRouteIdentity
  workEpoch : ℕ
  deriving DecidableEq, Repr

structure ResponseCloseTicket where
  sessionId : Uuid
  generation : ℕ
  nonce : Uuid
  selectionNonce : Uuid
  workEpoch : ℕ
  activityVersion : ℕ
  carrierVersion : ℕ
  settingsEpoch : ℕ
  member : ResponseRouteIdentity
  deriving DecidableEq, Repr

def ResponseCloseTicket.committedBinding (t : ResponseCloseTicket) :
    ResponseCloseCommittedBinding := ⟨t.member, t.selectionNonce⟩

structure ResponseCloseCurrentSettlement where
  currentCarrierVersion : ℕ
  confirmedCarrierVersion : ℕ
  checkpointNonce : Uuid
  currentCheckpointNonce : Uuid
  publicationEpoch : ℕ
  currentPublicationEpoch : ℕ
  deriving DecidableEq, Repr

inductive ResponseCloseSettlementOutcome where
  | dormant (exactBackendAbsent allEffectsCompleted retainedExitedConfirmed selectionSettled : Bool)
  | reopenAfterKillFailure (terminalKillFailure allEffectsTerminal originalBackendAlive
      originalManagerIdentityIntact : Bool)
  deriving DecidableEq, Repr

structure ResponseCloseSettlementEvidence where
  committedBinding : ResponseCloseCommittedBinding
  currentSettlement : ResponseCloseCurrentSettlement
  outcome : ResponseCloseSettlementOutcome
  deriving DecidableEq, Repr

/-- What a settled return is remembered by. -/
def ReturnObservationContext.terminalKey (c : ReturnObservationContext) :
    ResponseRouteIdentity × ResponseRouteIdentity × String := (c.member, c.coordinator, c.key)

namespace ResponseCloseRoute

def setPolicy (r : ResponseCloseRoute) (policy : Option ResponseClosePolicy) :
    ResponseCloseRoute := { r with policy }

/-- The policy, where it is the one of the nonce. -/
def policyOf (r : ResponseCloseRoute) (nonce : Uuid) : Option ResponseClosePolicy :=
  r.policy.filter fun p => decide (p.nonce = nonce)

def close (r : ResponseCloseRoute) (t : ResponseCloseTicket) : ResponseCloseRoute :=
  { r with
    closing := some t.selectionNonce
    closingTarget := r.policy.map (·.member.target)
    committedBinding := some t.committedBinding
    policy := none }

def reopenAfterKillFailure (r : ResponseCloseRoute) : ResponseCloseRoute :=
  { r with closing := none, closingTarget := none, committedBinding := none, policy := none }

end ResponseCloseRoute

def finishSettlementGroupRejected (route : ResponseCloseRoute) (ticket : ResponseCloseTicket)
    (evidence : ResponseCloseSettlementEvidence) : Bool :=
  let binding := ticket.committedBinding
  let current := evidence.currentSettlement
  decide (evidence.committedBinding ≠ binding) ||
    decide (route.committedBinding ≠ some binding) ||
    decide (route.closing ≠ some binding.closeNonce) ||
    decide (route.closingTarget ≠ some binding.member.target) ||
    decide (route.generation ≠ binding.member.generation) ||
    decide (route.managerToken ≠ some binding.member.token) ||
    decide (route.managerVersion ≠ current.currentCarrierVersion) ||
    decide (current.currentCarrierVersion < binding.member.carrierVersion) ||
    decide (current.confirmedCarrierVersion ≠ current.currentCarrierVersion) ||
    decide (current.checkpointNonce ≠ current.currentCheckpointNonce) ||
    decide (current.publicationEpoch ≠ current.currentPublicationEpoch)

namespace ResponseCloseInner

def setRoute (s : ResponseCloseInner) (id : Uuid) (r : ResponseCloseRoute) : ResponseCloseInner :=
  { s with routes := s.routes.insert id r }

def candidatePolicy (s : ResponseCloseInner) (nonce : Uuid)
    (member coordinator : ResponseRouteIdentity) (key digest : String) (workEpoch : ℕ)
    (now : Instant) : ResponseClosePolicy where
  nonce := nonce
  member := member
  coordinator := coordinator
  workEpoch := workEpoch
  settingsEpoch := s.settingsEpoch
  requestKey := key
  requestDigest := digest
  openedAt := now
  submitted := false
  registeredAt := none
  successAt := none
  returns := ∅
  selected := none

def reservePolicyCandidate (s : ResponseCloseInner) (nonce : Uuid)
    (member coordinator : ResponseRouteIdentity) (key digest : String) (now : Instant) :
    ResponseCloseInner × Except ResponseCloseError ResponseDeliveryContext :=
  if s.ready = false ∨ s.workBootstrapped = false ∨ s.enabled = false then
    (s, .error .unavailable)
  else if key ∈ (s.workFor member.target).terminal then (s, .error .conflict)
  else if (s.workFor member.target).pending.lookup key ≠ some digest then (s, .error .unknown)
  else match s.routes.lookup member.sessionId with
    | none => (s, .error .unknown)
    | some route =>
      if route.facts ≠ some member ∨ route.eligible = false ∨ route.closing.isSome = true then
        (s, .error .unknown)
      else
        let policy := s.candidatePolicy nonce member coordinator key digest route.workEpoch now
        (s.setRoute member.sessionId (route.setPolicy (some policy)), .ok ⟨member.sessionId, nonce⟩)

def markRequestSubmitted (s : ResponseCloseInner) (context : ResponseDeliveryContext)
    (submitted : Bool) : ResponseCloseInner :=
  match s.routes.lookup context.sessionId with
  | none => s
  | some route =>
    match route.policyOf context.nonce with
    | none => s
    | some policy => s.setRoute context.sessionId (route.setPolicy
        (if submitted then some { policy with submitted := true } else none))

/-- The conditions under which a request registers. -/
def validRequest (s : ResponseCloseInner) (route : ResponseCloseRoute)
    (policy : ResponseClosePolicy) (proof : ResponseDeliveryProof) : Bool :=
  let work := s.workFor policy.member.target
  policy.submitted && decide (policy.member = proof.member) &&
    decide (policy.coordinator = proof.coordinator) &&
    decide (policy.settingsEpoch = s.settingsEpoch) &&
    decide (policy.workEpoch = route.workEpoch) &&
    decide (proof.publishedCarrierVersion = policy.member.carrierVersion) &&
    decide (route.writers = 0) && decide (work.provisional = 0) &&
    work.pending.keys.all fun key => decide (key = policy.requestKey)

def registerRequest (s : ResponseCloseInner) (proof : ResponseDeliveryProof) (now : Instant) :
    ResponseCloseInner × Except ResponseCloseError Unit :=
  if s.ready = false ∨ s.enabled = false then (s, .error .unavailable)
  else match s.routes.lookup proof.context.sessionId with
    | none => (s, .error .unknown)
    | some route =>
      match route.policyOf proof.context.nonce with
      | none => (s, .error .unknown)
      | some policy =>
        let target := policy.member.target
        let work := s.workFor target
        let t := s.setWork target work
        if s.validRequest route policy proof then
          let pending := work.pending.erase policy.requestKey
          let terminal := work.terminal.insert policy.requestKey policy.requestDigest
          let registered := { policy with registeredAt := some now }
          ((s.setWork target { work with pending, terminal }).setRoute proof.context.sessionId
            { route with policy := some registered, lastChange := max route.lastChange now },
            .ok ())
        else (t.setRoute proof.context.sessionId (route.setPolicy none), .error .unknown)

def returnContext (s : ResponseCloseInner) (route : ResponseCloseRoute)
    (policy : ResponseClosePolicy) (member coordinator : ResponseRouteIdentity)
    (key digest : String) (sequence : ℕ) : ReturnObservationContext where
  settingsEpoch := s.settingsEpoch
  sequence := sequence
  sessionId := member.sessionId
  nonce := policy.nonce
  key := key
  digest := digest
  member := member
  coordinator := coordinator
  workEpoch := route.workEpoch

/-- A return that is outstanding already is admitted again under its sequence number. -/
def admitReturn (s : ResponseCloseInner) (member coordinator : ResponseRouteIdentity)
    (key digest : String) (now : Instant) :
    ResponseCloseInner × Except ResponseCloseError ReturnObservationContext :=
  if s.ready = false ∨ s.enabled = false then (s, .error .unavailable)
  else match s.terminalReturns.lookup (member, coordinator, key) with
    | some previous => (s, .error (if previous = digest then .unknown else .conflict))
    | none =>
      if (s.routes.lookup coordinator.sessionId).all (fun r => decide (r.facts ≠ some coordinator))
      then (s, .error .unknown)
      else match s.routes.lookup member.sessionId with
        | none => (s, .error .unknown)
        | some route =>
          if route.facts ≠ some member then (s, .error .unknown)
          else match route.policy with
            | none => (s, .error .unknown)
            | some policy =>
              if policy.member ≠ member ∨ policy.coordinator ≠ coordinator ∨
                now < policy.openedAt ∨ policy.settingsEpoch ≠ s.settingsEpoch then
                (s, .error .unknown)
              else match policy.returns.lookup key with
                | some (old, sequence) =>
                  if old ≠ digest then (s, .error .conflict)
                  else (s, .ok (s.returnContext route policy member coordinator key digest sequence))
                | none =>
                  match checkedSucc s.nextReturnSequence with
                  | none => (s.fail, .error .unavailable)
                  | some sequence =>
                    let returns := policy.returns.insert key (digest, sequence)
                    let admitted := { policy with returns, selected := none }
                    ({ s with nextReturnSequence := sequence }.setRoute member.sessionId
                      { route with
                        policy := some admitted
                        lastChange := max route.lastChange now },
                      .ok (s.returnContext route policy member coordinator key digest sequence))

/-- The policy a context was issued by, as far as the route still has it. -/
def settledPolicy (route : ResponseCloseRoute) (c : ReturnObservationContext) :
    Option ResponseClosePolicy :=
  route.policy.filter fun p => decide (p.nonce = c.nonce ∧ p.member = c.member ∧
    p.coordinator = c.coordinator ∧ p.workEpoch = c.workEpoch)

/-- The policy behind a settlement that counts. -/
def settledAs (s : ResponseCloseInner) (policy : ResponseClosePolicy)
    (c : ReturnObservationContext) (success : Bool) (now : Instant) : ResponseClosePolicy :=
  { policy with
    returns := policy.returns.erase c.key
    successAt := if success = true ∧ c.settingsEpoch = s.settingsEpoch then
      some (policy.successAt.elim now (max · now)) else policy.successAt
    selected := none }

def remember (s : ResponseCloseInner) (c : ReturnObservationContext) : ResponseCloseInner :=
  { s with terminalReturns := s.terminalReturns.insert c.terminalKey c.digest }

/-- A return is remembered as settled also where no policy waits for it. -/
def settleReturn (s : ResponseCloseInner) (c : ReturnObservationContext) (success : Bool)
    (now : Instant) : ResponseCloseInner × Except ResponseCloseError Unit :=
  match s.terminalReturns.lookup c.terminalKey with
  | some digest => (s, if digest = c.digest then .ok () else .error .conflict)
  | none =>
    match s.routes.lookup c.sessionId with
    | none => (s.remember c, .error .unknown)
    | some route =>
      match settledPolicy route c with
      | none => (s.remember c, .error .unknown)
      | some policy =>
        match policy.returns.lookup c.key with
        | none => (s.remember c, .error .unknown)
        | some (digest, sequence) =>
          if digest ≠ c.digest ∨ sequence ≠ c.sequence then (s.remember c, .error .conflict)
          else ((s.remember c).setRoute c.sessionId { route with
            policy := some (s.settledAs policy c success now)
            lastChange := max route.lastChange now }, .ok ())

/-- The work of the target is done, and nobody is about to give it more. -/
def workSafe (s : ResponseCloseInner) (target : String) : Bool :=
  let work := s.workFor target
  decide (work.provisional = 0) && decide (work.dispatch = 0) && work.pending.entries.isEmpty

def safePolicy (s : ResponseCloseInner) (route : ResponseCloseRoute)
    (policy : ResponseClosePolicy) (registeredAt successAt now : Instant) : Bool :=
  decide (s.unknownSpawns = 0) && s.ready && s.workBootstrapped && s.enabled &&
    decide (1 ≤ s.seconds ∧ s.seconds ≤ 3600) && !s.failed && route.closing.isNone &&
    route.eligible && decide (route.facts = some policy.member) &&
    (s.routes.lookup policy.coordinator.sessionId).any
      (fun r => decide (r.facts = some policy.coordinator)) &&
    decide (route.managerWorking = some false) && decide (route.detectorWorking = some false) &&
    decide (route.menuBlocked = some false) && route.holdKnown &&
    route.holdUntil.all (fun endsAt => decide (now > endsAt)) && decide (route.held = ∅) &&
    decide (route.writers = 0) && s.workSafe policy.member.target &&
    decide (policy.member.target ∉ s.createOwners) && policy.returns.entries.isEmpty &&
    decide (policy.settingsEpoch = s.settingsEpoch) &&
    decide (policy.workEpoch = route.workEpoch) &&
    decide (Duration.fromSecs s.seconds ≤
      now - max (max registeredAt successAt) (max route.lastChange
        (route.holdUntil.getD registeredAt)))

def safe (s : ResponseCloseInner) (route : ResponseCloseRoute) (now : Instant) : Bool :=
  match route.policy with
  | none => false
  | some policy =>
    match policy.registeredAt, policy.successAt with
    | some registeredAt, some successAt => s.safePolicy route policy registeredAt successAt now
    | _, _ => false

def ticketFor (s : ResponseCloseInner) (id : Uuid) (route : ResponseCloseRoute)
    (policy : ResponseClosePolicy) (selectionNonce : Uuid) : ResponseCloseTicket where
  sessionId := id
  generation := route.generation
  nonce := policy.nonce
  selectionNonce := selectionNonce
  workEpoch := route.workEpoch
  activityVersion := route.activityVersion
  carrierVersion := policy.member.carrierVersion
  settingsEpoch := s.settingsEpoch
  member := policy.member

def selectTicket (s : ResponseCloseInner) (selectionNonce : Uuid) (id : Uuid) (now : Instant) :
    ResponseCloseInner × Except ResponseCloseError ResponseCloseTicket :=
  match s.routes.lookup id with
  | none => (s, .error .unknown)
  | some route =>
    match route.policy with
    | none => (s, .error .unknown)
    | some policy =>
      if s.safe route now then
        (s.setRoute id (route.setPolicy (some { policy with selected := some selectionNonce })),
          .ok (s.ticketFor id route policy selectionNonce))
      else (s, .error .unknown)

/-- The ticket still says what the route and its policy say. -/
def ticketCurrent (s : ResponseCloseInner) (route : ResponseCloseRoute)
    (ticket : ResponseCloseTicket) : Bool :=
  decide (route.generation = ticket.generation) && decide (route.workEpoch = ticket.workEpoch) &&
    decide (route.activityVersion = ticket.activityVersion) &&
    decide (s.settingsEpoch = ticket.settingsEpoch) &&
    route.policy.any fun p => decide (p.nonce = ticket.nonce ∧
      p.selected = some ticket.selectionNonce ∧ p.member.carrierVersion = ticket.carrierVersion ∧
      p.member = ticket.member)

def tryCommitResponseClose (s : ResponseCloseInner) (ticket : ResponseCloseTicket)
    (now : Instant) : ResponseCloseInner × Except ResponseCloseError Uuid :=
  match s.routes.lookup ticket.sessionId with
  | none => (s, .error .unknown)
  | some route =>
    if s.safe route now && s.ticketCurrent route ticket then
      (s.setRoute ticket.sessionId (route.close ticket), .ok ticket.selectionNonce)
    else (s, .error .unknown)

/-- Whether the settlement was accepted. -/
def finishResponseClose (s : ResponseCloseInner) (ticket : ResponseCloseTicket)
    (evidence : ResponseCloseSettlementEvidence) : ResponseCloseInner × Bool :=
  match s.routes.lookup ticket.sessionId with
  | none => (s, false)
  | some route =>
    if finishSettlementGroupRejected route ticket evidence then (s, false)
    else match evidence.outcome with
      | .dormant true true true true =>
        if route.managerWorking ≠ some false ∨ route.eligible = true then (s, false)
        else ({ s with routes := s.routes.erase ticket.sessionId }, true)
      | .reopenAfterKillFailure true true true true =>
        (s.setRoute ticket.sessionId route.reopenAfterKillFailure, true)
      | _ => (s, false)

end ResponseCloseInner
end AgentsCommander.ResponseClose
