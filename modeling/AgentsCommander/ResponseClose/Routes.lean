import AgentsCommander.ResponseClose.State

/-! Routes come, go and are told about, and what all of that keeps of a route. Writers, work,
deliveries and creations are admitted, and their admissions dropped. -/
namespace AgentsCommander.ResponseClose
open Foundation Sessions

/-- A registered policy goes on under new settings. -/
def ResponseClosePolicy.underSettings (epoch : ℕ) (p : ResponseClosePolicy) :
    Option ResponseClosePolicy :=
  if p.registeredAt.isSome then some { p with settingsEpoch := epoch } else none

namespace ResponseCloseRoute

def touchIf (r : ResponseCloseRoute) (changed : Prop) [Decidable changed] (now : Instant) :
    ResponseCloseRoute × Bool := if changed then r.touch now else (r, true)

def publishManagerRow (token : Uuid) (version : ℕ) (eligible working : Bool) (now : Instant)
    (r : ResponseCloseRoute) : ResponseCloseRoute × Bool :=
  let s : ResponseCloseRoute × Bool :=
    if r.managerToken ≠ some token ∨ r.managerVersion ≠ version ∨ r.eligible ≠ eligible then
      let s := r.invalidate now
      ({ s.1 with facts := none }, s.2)
    else r.touchIf (r.managerWorking ≠ some working) now
  ({ s.1 with
    managerToken := some token
    managerVersion := version
    managerWorking := some working
    eligible := eligible }, s.2)

def publishManagerFacts (identity : ResponseRouteIdentity) (eligible working : Bool)
    (now : Instant) (r : ResponseCloseRoute) : ResponseCloseRoute × Bool :=
  let s := if r.facts ≠ some identity ∨ r.eligible ≠ eligible then r.invalidate now
    else r.touchIf (r.managerWorking ≠ some working) now
  ({ s.1 with
    facts := some identity
    eligible := eligible
    managerWorking := some working }, s.2)

def invalidateManagerRow (now : Instant) (r : ResponseCloseRoute) : ResponseCloseRoute × Bool :=
  { r with facts := none, eligible := false }.invalidate now

def observeDetector (working : Bool) (now : Instant) (r : ResponseCloseRoute) :
    ResponseCloseRoute × Bool :=
  let s := r.touchIf (r.detectorWorking ≠ some working) now
  ({ s.1 with detectorWorking := some working }, s.2)

def publishMenu (blocked : Option Bool) (now : Instant) (r : ResponseCloseRoute) :
    ResponseCloseRoute × Bool :=
  let s := r.touchIf (r.menuBlocked ≠ blocked) now
  ({ s.1 with menuBlocked := blocked }, s.2)

def publishHold (endsAt : Option Instant) (known : Bool) (now : Instant) (r : ResponseCloseRoute) :
    ResponseCloseRoute × Bool :=
  let s := r.touchIf ((r.holdUntil, r.holdKnown) ≠ (endsAt, known)) now
  ({ s.1 with holdUntil := endsAt, holdKnown := known }, s.2)

def publishHeldKey (key : String) (held : Bool) (now : Instant) (r : ResponseCloseRoute) :
    ResponseCloseRoute × Bool :=
  let keys := if held then insert key r.held else r.held.erase key
  { r with held := keys }.touchIf (decide (key ∈ r.held) ≠ held) now

/-- A typed key keeps the hold at least for its window, which may be unknown. -/
def publishTypingKey (window : Option Duration) (now : Instant) (r : ResponseCloseRoute) :
    ResponseCloseRoute × Bool :=
  let s := r.touch now
  match window with
  | some window => ({ s.1 with
      holdUntil := some (s.1.holdUntil.elim (now + window) (max · (now + window)))
      holdWindow := some window
      holdKnown := s.1.holdKnown && s.1.holdWindow.all (decide <| · = window) }, s.2)
  | none => ({ s.1 with holdKnown := false }, s.2)

def refreshHoldSnapshot (window : Duration) (closed : Bool) (now : Instant)
    (r : ResponseCloseRoute) : ResponseCloseRoute × Bool :=
  let s : ResponseCloseRoute × Bool :=
    if closed = false then
      if r.holdKnown = false ∨ r.holdUntil.isSome = true then
        { r with holdUntil := none, holdKnown := true }.touch now
      else (r, true)
    else if r.holdWindow ≠ some window ∨ r.holdUntil.all (decide <| now > ·) = true then
      { r with holdKnown := false }.touch now
    else (r, true)
  ({ s.1 with holdWindow := some window }, s.2)

def registered (generation : ℕ) (now : Instant) : ResponseCloseRoute where
  generation := generation
  facts := none
  eligible := false
  managerToken := none
  managerVersion := 0
  managerWorking := none
  detectorWorking := none
  menuBlocked := none
  holdUntil := none
  holdKnown := false
  holdWindow := none
  held := ∅
  writers := 0
  workEpoch := 0
  activityVersion := 0
  lastChange := now
  policy := none
  closing := none
  closingTarget := none
  committedBinding := none

def applySettings (enabled : Bool) (epoch : ℕ) (now : Instant) (r : ResponseCloseRoute) :
    ResponseCloseRoute × Bool :=
  let policy := if enabled then r.policy.bind (·.underSettings epoch) else none
  { r with policy }.touch now

end ResponseCloseRoute

namespace ResponseCloseInner

def coordinatedBy (id : Uuid) (r : ResponseCloseRoute) : Bool :=
  r.policy.any fun p => decide (p.coordinator.sessionId = id)

def publishManagerRow (s : ResponseCloseInner) (id token : Uuid) (generation version : ℕ)
    (eligible working : Bool) (now : Instant) : ResponseCloseInner :=
  s.reviseAt id fun r => if r.generation = generation then
    r.publishManagerRow token version eligible working now else (r, true)

def publishManagerFacts (s : ResponseCloseInner) (identity : ResponseRouteIdentity)
    (eligible working : Bool) (now : Instant) : ResponseCloseInner :=
  match s.routes.lookup identity.sessionId with
  | none => s
  | some route =>
    if route.generation ≠ identity.generation ∨ route.managerToken ≠ some identity.token ∨
      route.managerVersion ≠ identity.carrierVersion then s
    else
      let t := s.reviseAt identity.sessionId (·.publishManagerFacts identity eligible working now)
      if route.facts ≠ some identity then
        t.reviseAll (coordinatedBy identity.sessionId) (·.invalidate now)
      else t

def invalidateManagerRow (s : ResponseCloseInner) (id : Uuid) (now : Instant) :
    ResponseCloseInner :=
  (s.reviseAt id (·.invalidateManagerRow now)).reviseAll (coordinatedBy id) (·.invalidate now)

def observeRawOutput (s : ResponseCloseInner) (id : Uuid) (now : Instant) : ResponseCloseInner :=
  s.reviseAt id (·.touch now)

def observeDetector (s : ResponseCloseInner) (id : Uuid) (working : Bool) (now : Instant) :
    ResponseCloseInner := s.reviseAt id (·.observeDetector working now)

def publishMenu (s : ResponseCloseInner) (id : Uuid) (blocked : Option Bool) (now : Instant) :
    ResponseCloseInner := s.reviseAt id (·.publishMenu blocked now)

def publishHold (s : ResponseCloseInner) (id : Uuid) (endsAt : Option Instant) (known : Bool)
    (now : Instant) : ResponseCloseInner := s.reviseAt id (·.publishHold endsAt known now)

def publishHeldKey (s : ResponseCloseInner) (id : Uuid) (key : String) (held : Bool)
    (now : Instant) : ResponseCloseInner := s.reviseAt id (·.publishHeldKey key held now)

def publishTypingKey (s : ResponseCloseInner) (id : Uuid) (window : Option Duration)
    (now : Instant) : ResponseCloseInner := s.reviseAt id (·.publishTypingKey window now)

def refreshHoldSnapshot (s : ResponseCloseInner) (id : Uuid) (window : Duration) (closed : Bool)
    (now : Instant) : ResponseCloseInner := s.reviseAt id (·.refreshHoldSnapshot window closed now)

def applySettings (s : ResponseCloseInner) (enabled : Bool) (seconds : ℕ) (now : Instant) :
    ResponseCloseInner :=
  if s.enabled = enabled ∧ s.seconds = seconds then s
  else match checkedSucc s.settingsEpoch with
    | none => s.fail
    | some epoch =>
      let enabled := enabled && decide (1 ≤ seconds ∧ seconds ≤ 3600)
      { s with settingsEpoch := epoch, enabled := enabled, seconds := seconds }.reviseAll
        (fun _ => true) (·.applySettings enabled epoch now)

/-- A route that is closing is not registered again. -/
def registerRoute (s : ResponseCloseInner) (id : Uuid) (generation : ℕ) (now : Instant) :
    ResponseCloseInner :=
  if (s.routes.lookup id).any (·.closing.isSome) then s.fail
  else { s with routes := s.routes.insert id (.registered generation now) }

/-- A route that is closing stays, without its facts. -/
def removeRoute (s : ResponseCloseInner) (id : Uuid) (generation : ℕ) : ResponseCloseInner :=
  match s.routes.lookup id with
  | none => s
  | some route =>
    if route.generation ≠ generation then s
    else if route.closing.isNone then { s with routes := s.routes.erase id }
    else { s with routes :=
      s.routes.insert id { route with policy := none, facts := none, eligible := false } }

def beginUnresolvedSpawn (s : ResponseCloseInner) (now : Instant) : ResponseCloseInner :=
  match checkedSucc s.unknownSpawns with
  | none => s.fail
  | some next => { s with unknownSpawns := next }.reviseAll (fun _ => true) (·.touch now)

def endUnresolvedSpawn (s : ResponseCloseInner) (now : Instant) : ResponseCloseInner :=
  if s.unknownSpawns = 0 then s.fail
  else { s with unknownSpawns := s.unknownSpawns - 1 }.reviseAll (fun _ => true) (·.touch now)

def tryEnableReadiness (s : ResponseCloseInner) :
    ResponseCloseInner × Except ResponseCloseError Unit :=
  if s.publishers ≠ {.manager, .pty, .rawOutput, .detector, .menu, .hold} ∨
    s.workBootstrapped = false then (s, .error .unavailable)
  else ({ s with ready := true }, .ok ())

end ResponseCloseInner

/-- What the tracker is told, besides settings and the routes' own coming and going. -/
inductive Publication where
  | bindPublisher (publisher : ResponseClosePublisher)
  | markWorkBootstrapped
  | publishManagerRow (id token : Uuid) (generation version : ℕ) (eligible working : Bool)
  | publishManagerFacts (identity : ResponseRouteIdentity) (eligible working : Bool)
  | invalidateManagerRow (id : Uuid)
  | observeRawOutput (id : Uuid)
  | observeDetector (id : Uuid) (working : Bool)
  | publishMenu (id : Uuid) (blocked : Option Bool)
  | publishHold (id : Uuid) (endsAt : Option Instant) (known : Bool)
  | publishHeldKey (id : Uuid) (key : String) (held : Bool)
  | publishTypingKey (id : Uuid) (window : Option Duration)
  | refreshHoldSnapshot (id : Uuid) (window : Duration) (closed : Bool)
  deriving DecidableEq, Repr

def ResponseCloseInner.publish (s : ResponseCloseInner) (now : Instant) :
    Publication → ResponseCloseInner
  | .bindPublisher publisher => { s with publishers := insert publisher s.publishers }
  | .markWorkBootstrapped => { s with workBootstrapped := true }
  | .publishManagerRow id token generation version eligible working =>
    s.publishManagerRow id token generation version eligible working now
  | .publishManagerFacts identity eligible working =>
    s.publishManagerFacts identity eligible working now
  | .invalidateManagerRow id => s.invalidateManagerRow id now
  | .observeRawOutput id => s.observeRawOutput id now
  | .observeDetector id working => s.observeDetector id working now
  | .publishMenu id blocked => s.publishMenu id blocked now
  | .publishHold id endsAt known => s.publishHold id endsAt known now
  | .publishHeldKey id key held => s.publishHeldKey id key held now
  | .publishTypingKey id window => s.publishTypingKey id window now
  | .refreshHoldSnapshot id window closed => s.refreshHoldSnapshot id window closed now

structure WriterAdmission where
  counted : Bool
  sessionId : Uuid
  generation : ℕ
  deriving DecidableEq, Repr

structure WorkAdmission where
  target : String
  key : String
  active : Bool
  deriving DecidableEq, Repr

structure WorkDeliveryReservation where
  target : String
  deriving DecidableEq, Repr

structure CreateOwnerReservation where
  target : String
  nonce : Uuid
  deriving DecidableEq, Repr

inductive CreateClassification where
  | foreign
  | protectedOwner (identity : ResponseRouteIdentity)
  | preparing (ownerNonce : Uuid) (identity : ResponseRouteIdentity)
  | unknown
  deriving DecidableEq, Repr

def CreateClassification.identity : CreateClassification → Option ResponseRouteIdentity
  | .protectedOwner identity | .preparing _ identity => some identity
  | .foreign | .unknown => none

/-- Whose preparation it is. -/
def CreateClassification.owner : CreateClassification → Option Uuid
  | .preparing ownerNonce _ => some ownerNonce
  | .foreign | .protectedOwner _ | .unknown => none

inductive CreateAdmission where
  | reserved (reservation : CreateOwnerReservation)
  | closingDeferred
  | waitingIdentity
  deriving DecidableEq, Repr

namespace ResponseCloseInner

def closingAt (s : ResponseCloseInner) (id : Uuid) (generation : ℕ) : Bool :=
  (s.routes.lookup id).any fun r => decide (r.generation = generation) && r.closing.isSome

/-- One more writer on a route, which is touched or loses its policy. -/
def countWriter (s : ResponseCloseInner) (id : Uuid) (next : ℕ) (invalidate : Bool)
    (now : Instant) : ResponseCloseInner :=
  s.reviseAt id fun r => if invalidate then { r with writers := next }.invalidate now
    else { r with writers := next }.touch now

/-- `reserve_writer` invalidates. `reserve_hold_change` only touches, and learns the generation in
a section before this one. A failed tracker does not count writers, and turns away those of a
closing route only. -/
def reserveWriterInner (s : ResponseCloseInner) (id : Uuid) (generation : ℕ) (invalidate : Bool)
    (now : Instant) : ResponseCloseInner × Except ResponseCloseError WriterAdmission :=
  if s.failed = true ∧ s.closingAt id generation = false then (s, .ok ⟨false, id, generation⟩)
  else match (s.routes.lookup id).filter fun r => decide (r.generation = generation) with
    | none => (s, .error .unknown)
    | some route =>
      if route.closing.isSome then (s, .error .closingDeferred)
      else if s.failed then (s, .ok ⟨false, id, generation⟩)
      else match checkedSucc route.writers with
        | none => (s.fail, .ok ⟨false, id, generation⟩)
        | some next => (s.countWriter id next invalidate now, .ok ⟨true, id, generation⟩)

def dropWriter (s : ResponseCloseInner) (a : WriterAdmission) (now : Instant) :
    ResponseCloseInner :=
  s.reviseAt a.sessionId fun r => if r.generation = a.generation then
    { r with writers := r.writers - 1 }.touch now else (r, true)

def reserveWork (s : ResponseCloseInner) (target key : String) (now : Instant) :
    ResponseCloseInner × Except ResponseCloseError WorkAdmission :=
  let work := s.workFor target
  let t := s.setWork target work
  if key ∈ work.pending ∨ key ∈ work.terminal then (t, .ok ⟨target, key, false⟩)
  else match checkedSucc work.provisional with
    | none => (t.fail, .error .unavailable)
    | some next => ((s.setWork target { work with provisional := next }).touchTarget target now,
        .ok ⟨target, key, true⟩)

def settleTerminal (s : ResponseCloseInner) (target key : String) (now : Instant) :
    ResponseCloseInner :=
  let work := s.workFor target
  match work.pending.lookup key with
  | none => s.setWork target work
  | some digest =>
    let pending := work.pending.erase key
    let terminal := work.terminal.insert key digest
    (s.setWork target { work with pending, terminal }).touchTarget target now

def acceptDurable (s : ResponseCloseInner) (a : WorkAdmission) (digest : String) (now : Instant) :
    ResponseCloseInner × Except ResponseCloseError Bool :=
  match s.work.lookup a.target with
  | none => (s, .error .unknown)
  | some work =>
    match (work.pending.lookup a.key).or (work.terminal.lookup a.key) with
    | some old => (s, if old ≠ digest then .error .conflict else .ok false)
    | none =>
      let pending := work.pending.insert a.key digest
      ((s.setWork a.target { work with pending }).reviseAll
        (fun r => r.facts.any fun f => decide (f.target = a.target)) (·.invalidate now), .ok true)

def dropWork (s : ResponseCloseInner) (a : WorkAdmission) (now : Instant) : ResponseCloseInner :=
  let work := Assoc.adjust s.work a.target fun work => { work with provisional := work.provisional - 1 }
  { s with work }.touchTarget a.target now

/-- It touches no route: the target is kept open by the count alone. -/
def beginDelivery (s : ResponseCloseInner) (target : String) :
    ResponseCloseInner × Except ResponseCloseError WorkDeliveryReservation :=
  if s.targetIsClosing target then (s, .error .closingDeferred)
  else if s.failed then (s, .error .unavailable)
  else
    let work := s.workFor target
    match checkedSucc work.dispatch with
    | none => ((s.setWork target work).fail, .error .unavailable)
    | some next => (s.setWork target { work with dispatch := next }, .ok ⟨target⟩)

def dropDelivery (s : ResponseCloseInner) (a : WorkDeliveryReservation) (now : Instant) :
    ResponseCloseInner :=
  let work := Assoc.adjust s.work a.target fun work => { work with dispatch := work.dispatch - 1 }
  { s with work }.touchTarget a.target now

def ownersFor (s : ResponseCloseInner) (target : String) : AList fun _ : Uuid => Bool :=
  (s.createOwners.lookup target).getD ∅

def reserveCreateOwner (s : ResponseCloseInner) (target : String) (nonce : Uuid)
    (classification : CreateClassification) (now : Instant) :
    ResponseCloseInner × Except ResponseCloseError CreateAdmission :=
  if classification = .unknown then (s, .ok .waitingIdentity)
  else if classification.identity.any fun identity => decide (identity.target ≠ target) then
    (s, .error .conflict)
  else if s.targetIsClosing target then (s, .ok .closingDeferred)
  else if classification.owner.any fun owner => decide (owner ≠ nonce) then
    (s, .ok .closingDeferred)
  else
    let exclusive := decide (classification ≠ .foreign)
    let owners := s.ownersFor target
    let t : ResponseCloseInner := { s with createOwners := s.createOwners.insert target owners }
    if nonce ∈ owners then (t, .error .conflict)
    else if exclusive = true ∧ (Assoc.values owners).any id = true then (t, .ok .closingDeferred)
    else
      let createOwners := s.createOwners.insert target (owners.insert nonce exclusive)
      ({ s with createOwners }.touchTarget target now, .ok (.reserved ⟨target, nonce⟩))

def dropCreateOwner (s : ResponseCloseInner) (a : CreateOwnerReservation) (now : Instant) :
    ResponseCloseInner :=
  match s.createOwners.lookup a.target with
  | none => s
  | some owners =>
    let rest := owners.erase a.nonce
    let createOwners := if rest.entries.isEmpty then s.createOwners.erase a.target
      else s.createOwners.insert a.target rest
    if a.nonce ∈ owners then { s with createOwners }.touchTarget a.target now
    else { s with createOwners }

end ResponseCloseInner

end AgentsCommander.ResponseClose
