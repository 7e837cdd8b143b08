import AgentsCommander.Foundation.Assoc
import Mathlib.Data.Finset.Basic
import Mathlib.Data.Finset.Sort
import Mathlib.Data.List.Chain
import AgentsCommander.Foundation.Program

/-! The idle detector's tables, its functions as programs of sections, each of which holds its locks
to its end, and the callbacks they make. Instants and durations are nanoseconds. -/
namespace AgentsCommander.Idle
open Foundation

/-- 128 bits that are only compared. -/
abbrev Uuid := ℕ

abbrev Instant := ℕ
abbrev Duration := ℕ

inductive ActivityDetectorKind where
  | timed
  | codexWorking
  deriving DecidableEq, Repr

structure IdleTuning where
  idleThreshold : Duration
  resizeGrace : Duration
  seedInitialActivity : Bool
  burstMaxBytes : ℕ
  burstWindow : Duration
  burstPriorSilence : Duration
  activityDetector : ActivityDetectorKind
  deriving DecidableEq, Repr

def IdleTuning.default : IdleTuning where
  idleThreshold := 2500 * 10 ^ 6
  resizeGrace := 3000 * 10 ^ 6
  seedInitialActivity := true
  burstMaxBytes := 0
  burstWindow := 0
  burstPriorSilence := 0
  activityDetector := .timed

structure PendingBurst where
  start : Instant
  last : Instant
  bytes : ℕ
  printable : Bool
  deriving DecidableEq, Repr

/-- The identity of one consumer attach. -/
abbrev Token := ℕ

structure SemanticRegistration where
  kind : ActivityDetectorKind
  observation : Option Token
  lastValid : Option Bool
  deriving DecidableEq, Repr

inductive PtyInputBoundaryFailure where
  | busy
  | resizeUnsettled
  | untrackedReadiness
  | routeUnavailable
  deriving DecidableEq, Repr

structure IdleDetector where
  timestamps : AList fun _ : Uuid => Instant
  semantic : AList fun _ : Uuid => SemanticRegistration
  silence : AList fun _ : Uuid => Instant
  registeredAt : AList fun _ : Uuid => Instant
  idleSet : Finset Uuid
  resizeGrace : AList fun _ : Uuid => Instant
  controlWrite : AList fun _ : Uuid => Instant
  tuning : AList fun _ : Uuid => IdleTuning
  burst : AList fun _ : Uuid => PendingBurst
  nextToken : Token

def IdleDetector.new : IdleDetector := ⟨∅, ∅, ∅, ∅, ∅, ∅, ∅, ∅, ∅, 0⟩

inductive Edge where
  | idle
  | busy
  deriving DecidableEq, Repr

/-- `Instant::checked_duration_since`. -/
def checkedDurationSince (now earlier : Instant) : Option Duration :=
  if earlier ≤ now then some (now - earlier) else none

/-- `is_busy`, for the two kinds of detector. -/
def ActivityDetectorKind.isBusy (kind : ActivityDetectorKind) (timedBusy positive : Bool) : Bool :=
  match kind with
  | .timed => timedBusy
  | .codexWorking => positive || timedBusy

namespace IdleDetector

/-- What a session is registered as, and its first stamp. -/
def registerActivity (d : IdleDetector) (id : Uuid) (tuning : IdleTuning) (now : Instant) :
    IdleDetector :=
  { d with
    semantic := d.semantic.insert id ⟨tuning.activityDetector, none, none⟩
    timestamps := if tuning.seedInitialActivity then d.timestamps.insert id now
      else d.timestamps }

/-- The registration a token is attached to, while it is the current one. -/
def currentAttach (d : IdleDetector) (id : Uuid) (token : Token) : Option SemanticRegistration :=
  (d.semantic.lookup id).filter fun r => r.kind = .codexWorking && r.observation = some token

def activityConsumer (d : IdleDetector) (id : Uuid) : Option Token × IdleDetector :=
  match (d.semantic.lookup id).filter fun r => r.kind = .codexWorking with
  | none => (none, d)
  | some registration => (some d.nextToken, { d with
      semantic := d.semantic.insert id { registration with observation := some d.nextToken }
      nextToken := d.nextToken + 1 })

def observe (d : IdleDetector) (id : Uuid) (token : Token) (value : Option Bool) :
    Bool × IdleDetector :=
  match d.currentAttach id token with
  | none => (false, d)
  | some registration => (true, match value with
    | none => d
    | some v => { d with semantic := d.semantic.insert id { registration with lastValid := some v } })

def retire (d : IdleDetector) (id : Uuid) (token : Token) : Bool × IdleDetector :=
  match d.currentAttach id token with
  | none => (false, d)
  | some registration => (true, { d with
      semantic := d.semantic.insert id { registration with observation := none, lastValid := none } })

/-- What a chunk of output comes to under the `burst` lock. -/
inductive BurstVerdict where
  | countsNow
  | confirmed (bytes : ℕ) (printable : Bool)
  | pending
  deriving DecidableEq, Repr

/-- The candidate a chunk finds is discarded, dropped for a fresh clock, or grows. -/
def weighBurst (pending : PendingBurst) (byteCount : ℕ) (printable : Bool) (now : Instant)
    (tuning : IdleTuning) (silenceAge : Duration) : Option PendingBurst × Option BurstVerdict :=
  if now - pending.last > tuning.burstWindow then (none, none)
  else if silenceAge < tuning.burstPriorSilence then (none, some .countsNow)
  else
    let grown : PendingBurst :=
      ⟨pending.start, now, pending.bytes + byteCount, pending.printable || printable⟩
    if grown.bytes ≥ tuning.burstMaxBytes || now - grown.start ≥ tuning.burstWindow then
      (none, some (.confirmed grown.bytes grown.printable))
    else (some grown, some .pending)

/-- A chunk with no candidate opens one, or counts. -/
def openBurst (byteCount : ℕ) (printable : Bool) (now : Instant) (tuning : IdleTuning)
    (silenceAge : Duration) : Option PendingBurst × BurstVerdict :=
  if silenceAge < tuning.burstPriorSilence then (none, .countsNow)
  else if byteCount ≥ tuning.burstMaxBytes then (none, .confirmed byteCount printable)
  else (some ⟨now, now, byteCount, printable⟩, .pending)

def burstSection (d : IdleDetector) (id : Uuid) (byteCount : ℕ) (printable : Bool) (now : Instant)
    (tuning : IdleTuning) (silenceAge : Duration) : BurstVerdict × IdleDetector :=
  let found := (d.burst.lookup id).elim (none, none) fun pending =>
    weighBurst pending byteCount printable now tuning silenceAge
  let settled := match found.2 with
    | some verdict => (found.1, verdict)
    | none => openBurst byteCount printable now tuning silenceAge
  (settled.2, { d with burst := settled.1.elim (d.burst.erase id) (d.burst.insert id) })

/-- The session is stamped, and leaves the idle set; whether it was there. -/
def stamp (d : IdleDetector) (id : Uuid) (now : Instant) : Bool × IdleDetector :=
  (id ∈ d.idleSet, { d with
    timestamps := d.timestamps.insert id now
    idleSet := d.idleSet.erase id })

/-- The two seconds a boundary waits beyond each threshold. -/
def settleMargin : Duration := 2 * 10 ^ 9

/-- `prepare_pty_input_boundary` up to the release of the locks; `route` is what the caller's
`lock_route` answers. -/
def prepareBoundary (d : IdleDetector) (id : Uuid) (now : Instant) (route : Bool) :
    Except PtyInputBoundaryFailure Bool × IdleDetector :=
  match d.tuning.lookup id, (d.timestamps.lookup id).bind (checkedDurationSince now) with
  | some resolved, some activityAge =>
    if id ∉ d.idleSet || activityAge < resolved.idleThreshold + settleMargin then (.error .busy, d)
    else
      match d.resizeGrace.lookup id with
      | some lastResize =>
        if (checkedDurationSince now lastResize).any (resolved.resizeGrace + settleMargin ≤ ·) then
          if route then (d.stamp id now).map Except.ok fun d' => d'
          else (.error .routeUnavailable, d)
        else (.error .resizeUnsettled, d)
      | none =>
        if route then (d.stamp id now).map Except.ok fun d' => d'
        else (.error .routeUnavailable, d)
  | _, _ => (.error .untrackedReadiness, d)

/-- `sessions_crossing_idle_threshold`, for one session. -/
def crosses (d : IdleDetector) (tuning : AList fun _ : Uuid => IdleTuning) (now : Instant)
    (id : Uuid) : Bool :=
  ((d.timestamps.lookup id).bind (checkedDurationSince now)).any fun elapsed =>
    elapsed > ((tuning.lookup id).getD .default).idleThreshold && id ∉ d.idleSet

/-- Positive evidence of a session whose detector takes any. -/
def positive (d : IdleDetector) (id : Uuid) : Bool :=
  (d.semantic.lookup id).any fun r => r.kind = .codexWorking && r.lastValid = some true

def detectorKind (d : IdleDetector) (id : Uuid) : ActivityDetectorKind :=
  ((d.semantic.lookup id).map (·.kind)).getD .timed

/-- Whether a tick turns the session idle. -/
def turnsIdle (d : IdleDetector) (tuning : AList fun _ : Uuid => IdleTuning) (now : Instant)
    (id : Uuid) : Bool :=
  !(d.detectorKind id).isBusy (!d.crosses tuning now id) (d.positive id)

/-- The edge a tick gives to a session, if any. -/
def tickEdge (d : IdleDetector) (tuning : AList fun _ : Uuid => IdleTuning) (now : Instant)
    (id : Uuid) : Option Edge :=
  if d.turnsIdle tuning now id then some .idle
  else if d.positive id && id ∈ d.idleSet then some .busy
  else none

/-- The sessions a tick looks at, in order. -/
def tracked (d : IdleDetector) : List Uuid :=
  (d.timestamps.keys ++ d.semantic.keys).toFinset.sort

def applyEdge (idleSet : Finset Uuid) (id : Uuid) : Edge → Finset Uuid
  | .idle => insert id idleSet
  | .busy => idleSet.erase id

/-- The edges of a tick, in the order their callbacks are made. -/
def tickEdges (d : IdleDetector) (tuning : AList fun _ : Uuid => IdleTuning) (now : Instant) :
    List (Uuid × Edge) :=
  d.tracked.filterMap fun id => (d.tickEdge tuning now id).map (Prod.mk id)

/-- `evaluate_tick` under its two locks: the state, and the working set for the heartbeat. -/
def tick (d : IdleDetector) (tuning : AList fun _ : Uuid => IdleTuning) (now : Instant) :
    IdleDetector :=
  { d with idleSet := (d.tickEdges tuning now).foldl (fun s e => applyEdge s e.1 e.2) d.idleSet }

def workingSet (d : IdleDetector) : List Uuid := d.timestamps.keys.filter (· ∉ d.idleSet)

end IdleDetector

abbrev Thread := ℕ

inductive Act where
  | insertTuning (id : Uuid) (tuning : IdleTuning)
  | readTuning (id : Uuid)
  | snapshotTuning
  | removeTuning (id : Uuid)
  | registerActivity (id : Uuid) (tuning : IdleTuning)
  | removeActivity (id : Uuid)
  | touchSilence (id : Uuid)
  | insertSilence (id : Uuid) (at_ : Instant)
  | readSilence (id : Uuid)
  | removeSilence (id : Uuid)
  | insertRegisteredAt (id : Uuid)
  | removeRegisteredAt (id : Uuid)
  | readIdle (id : Uuid)
  | removeIdle (id : Uuid)
  | insertResize (id : Uuid)
  | readResize (id : Uuid)
  | removeResize (id : Uuid)
  | markControlWrite (id : Uuid) (reopened : Bool)
  | removeControlWrite (id : Uuid)
  | burst (id : Uuid) (byteCount : ℕ) (printable : Bool) (now : Instant) (tuning : IdleTuning)
      (silenceAge : Duration)
  | removeBurst (id : Uuid)
  | stamp (id : Uuid)
  | prepareBoundary (id : Uuid)
  | activityConsumer (id : Uuid)
  | observe (id : Uuid) (token : Token) (value : Option Bool)
  | retire (id : Uuid) (token : Token)
  | tick (tuning : AList fun _ : Uuid => IdleTuning) (now : Option Instant) (heartbeat : Bool)
  | onBusy (id : Uuid)

def Act.Res : Act → Type
  | .readTuning _ => Option IdleTuning
  | .snapshotTuning => AList fun _ : Uuid => IdleTuning
  | .readSilence _ => Option Instant
  | .readIdle _ | .stamp _ | .observe _ _ _ | .retire _ _ => Bool
  | .readResize _ => Option Duration
  | .burst _ _ _ _ _ _ => IdleDetector.BurstVerdict
  | .prepareBoundary _ => Except PtyInputBoundaryFailure Bool × Instant
  | .activityConsumer _ => Option Token
  | .tick _ _ _ => Option (List Uuid)
  | _ => Unit

abbrev idleInterface : Interface := ⟨Act, Act.Res⟩
abbrev IdleProgram := Program idleInterface

/-- The clock as a section reads it, and what the caller's route lock answers. -/
structure Choice where
  now : Instant
  route : Bool

/-- The detector, with the callbacks still to be made, and those made for each session since its
last removal. -/
structure World where
  detector : IdleDetector
  owed : Thread → Option Uuid
  notified : Uuid → List Edge

def World.new : World := ⟨.new, fun _ => none, fun _ => []⟩

namespace World

def change (w : World) (f : IdleDetector → IdleDetector) : World :=
  { w with detector := f w.detector }

/-- Whoever takes a session from the idle set owes it a callback. -/
def owe (w : World) (t : Thread) (id : Uuid) (wasIdle : Bool) : World :=
  if wasIdle then { w with owed := fun u => if u = t then some id else w.owed u } else w

def settle (w : World) (t : Thread) : World :=
  { w with owed := fun u => if u = t then none else w.owed u }

def notify (w : World) (id : Uuid) (e : Edge) : World :=
  { w with notified := fun j => if j = id then w.notified j ++ [e] else w.notified j }

def forget (w : World) (id : Uuid) : World :=
  { w with notified := fun j => if j = id then [] else w.notified j }

/-- A tick makes its callbacks before it gives back the locks. -/
def tick (w : World) (tuning : AList fun _ : Uuid => IdleTuning) (now : Instant) : World :=
  (w.detector.tickEdges tuning now).foldl (fun w e => w.notify e.1 e.2)
    (w.change (·.tick tuning now))

def act (t : Thread) : (o : Act) → Choice → World → o.Res × World
  | .insertTuning id tuning, _, w => ((), w.change fun d =>
      { d with tuning := d.tuning.insert id tuning })
  | .readTuning id, _, w => (w.detector.tuning.lookup id, w)
  | .snapshotTuning, _, w => (w.detector.tuning, w)
  | .removeTuning id, _, w => ((), w.change fun d => { d with tuning := d.tuning.erase id })
  | .registerActivity id tuning, x, w => ((), w.change (·.registerActivity id tuning x.now))
  | .removeActivity id, _, w => ((), w.change fun d =>
      { d with semantic := d.semantic.erase id, timestamps := d.timestamps.erase id })
  | .touchSilence id, x, w => ((), w.change fun d =>
      { d with silence := d.silence.insert id x.now })
  | .insertSilence id at_, _, w => ((), w.change fun d =>
      { d with silence := d.silence.insert id at_ })
  | .readSilence id, _, w => (w.detector.silence.lookup id, w)
  | .removeSilence id, _, w => ((), w.change fun d => { d with silence := d.silence.erase id })
  | .insertRegisteredAt id, x, w => ((), w.change fun d =>
      { d with registeredAt := d.registeredAt.insert id x.now })
  | .removeRegisteredAt id, _, w => ((), w.change fun d =>
      { d with registeredAt := d.registeredAt.erase id })
  | .readIdle id, _, w => (decide (id ∈ w.detector.idleSet), w)
  | .removeIdle id, _, w => ((), (w.change fun d =>
      { d with idleSet := d.idleSet.erase id }).forget id)
  | .insertResize id, x, w => ((), w.change fun d =>
      { d with resizeGrace := d.resizeGrace.insert id x.now })
  | .readResize id, x, w => ((w.detector.resizeGrace.lookup id).map (x.now - ·), w)
  | .removeResize id, _, w => ((), w.change fun d =>
      { d with resizeGrace := d.resizeGrace.erase id })
  | .markControlWrite id reopened, x, w => ((), w.change fun d =>
      if reopened || (d.controlWrite.lookup id).isSome then
        { d with controlWrite := d.controlWrite.insert id x.now } else d)
  | .removeControlWrite id, _, w => ((), w.change fun d =>
      { d with controlWrite := d.controlWrite.erase id })
  | .burst id byteCount printable now tuning silenceAge, _, w =>
    let weighed := w.detector.burstSection id byteCount printable now tuning silenceAge
    (weighed.1, w.change fun _ => weighed.2)
  | .removeBurst id, _, w => ((), w.change fun d => { d with burst := d.burst.erase id })
  | .stamp id, x, w =>
    let stamped := w.detector.stamp id x.now
    (stamped.1, (w.change fun _ => stamped.2).owe t id stamped.1)
  | .prepareBoundary id, x, w =>
    let prepared := w.detector.prepareBoundary id x.now x.route
    ((prepared.1, x.now), (w.change fun _ => prepared.2).owe t id
      (match prepared.1 with | .ok wasIdle => wasIdle | .error _ => false))
  | .activityConsumer id, _, w =>
    let attached := w.detector.activityConsumer id
    (attached.1, w.change fun _ => attached.2)
  | .observe id token value, _, w =>
    let observed := w.detector.observe id token value
    (observed.1, w.change fun _ => observed.2)
  | .retire id token, _, w =>
    let retired := w.detector.retire id token
    (retired.1, w.change fun _ => retired.2)
  | .tick tuning now heartbeat, x, w =>
    let ticked := w.tick tuning (now.getD x.now)
    (if heartbeat then some ticked.detector.workingSet else none, ticked)
  | .onBusy id, _, w => ((), (w.settle t).notify id .busy)

end World

abbrev call (o : Act) : IdleProgram o.Res := Program.call (I := idleInterface) o

def registerSession (id : Uuid) (tuning : IdleTuning) : IdleProgram Unit := do
  call (.insertTuning id tuning)
  call (.registerActivity id tuning)
  call (.touchSilence id)
  call (.insertRegisteredAt id)

def recordResize (id : Uuid) : IdleProgram Unit := call (.insertResize id)

def touchSilence (id : Uuid) : IdleProgram Unit := call (.touchSilence id)

def recordActivityWithBytes (id : Uuid) : IdleProgram Unit := do
  let tuning : Option IdleTuning ← call (.readTuning id)
  let elapsed : Option Duration ← call (.readResize id)
  if elapsed.any (· < (tuning.getD .default).resizeGrace) then pure ()
  else
    let wasIdle : Bool ← call (.stamp id)
    if wasIdle then call (.onBusy id) else pure ()

/-- `touch_silence`, and the activity of a chunk that showed anything. -/
def countOutput (id : Uuid) (printable : Bool) : IdleProgram Unit := do
  call (.touchSilence id)
  if printable then recordActivityWithBytes id else pure ()

/-- `record_output_at`, without the observer of raw output. -/
def recordOutputAt (id : Uuid) (byteCount : ℕ) (printable : Bool) (now : Instant) :
    IdleProgram Unit := do
  let found : Option IdleTuning ← call (.readTuning id)
  let tuning := found.getD .default
  if tuning.burstMaxBytes = 0 || tuning.burstWindow = 0 then countOutput id printable
  else
    let stamp : Option Instant ← call (.readSilence id)
    let silenceAge := (stamp.bind (checkedDurationSince now)).getD 0
    let verdict ← call (.burst id byteCount printable now tuning silenceAge)
    match verdict with
    | .countsNow => countOutput id printable
    | .confirmed _ sawPrintable => countOutput id sawPrintable
    | .pending => pure ()

def recordControlWriteActivity (id : Uuid) : IdleProgram Unit := do
  let reopened : Bool ← call (.readIdle id)
  call (.markControlWrite id reopened)
  recordActivityWithBytes id

def clearControlWrite (id : Uuid) : IdleProgram Unit := call (.removeControlWrite id)

/-- `prepare_pty_input_boundary`, and `notify_pty_input_busy` once the manager's guard is
released. -/
def ptyInputBoundary (id : Uuid) : IdleProgram Unit := do
  let prepared ← call (.prepareBoundary id)
  match prepared with
  | (.error _, _) => pure ()
  | (.ok wasIdle, now) =>
    call (.insertSilence id now)
    if wasIdle then call (.onBusy id) else pure ()

def removeSession (id : Uuid) : IdleProgram Unit := do
  call (.removeActivity id)
  call (.removeSilence id)
  call (.removeRegisteredAt id)
  call (.removeIdle id)
  call (.removeResize id)
  call (.removeControlWrite id)
  call (.removeBurst id)
  call (.removeTuning id)

def activityConsumer (id : Uuid) : IdleProgram Unit := do
  let _ ← call (.activityConsumer id)

def observe (id : Uuid) (token : Token) (value : Option Bool) : IdleProgram Unit := do
  let _ ← call (.observe id token value)

def retire (id : Uuid) (token : Token) : IdleProgram Unit := do
  let _ ← call (.retire id token)

def evaluateTick (now : Option Instant) (heartbeat : Bool) : IdleProgram Unit := do
  let tuning ← call .snapshotTuning
  let _ ← call (.tick tuning now heartbeat)

/-- What a thread may run. -/
inductive Starts : Thread → IdleProgram Unit → Prop
  | registerSession (t : Thread) (id : Uuid) (tuning : IdleTuning) :
      Starts t (registerSession id tuning)
  | recordResize (t : Thread) (id : Uuid) : Starts t (recordResize id)
  | touchSilence (t : Thread) (id : Uuid) : Starts t (touchSilence id)
  | recordActivity (t : Thread) (id : Uuid) : Starts t (recordActivityWithBytes id)
  | recordOutput (t : Thread) (id : Uuid) (byteCount : ℕ) (printable : Bool) (now : Instant) :
      Starts t (recordOutputAt id byteCount printable now)
  | recordControlWrite (t : Thread) (id : Uuid) : Starts t (recordControlWriteActivity id)
  | clearControlWrite (t : Thread) (id : Uuid) : Starts t (clearControlWrite id)
  | ptyInputBoundary (t : Thread) (id : Uuid) : Starts t (ptyInputBoundary id)
  | removeSession (t : Thread) (id : Uuid) : Starts t (removeSession id)
  | activityConsumer (t : Thread) (id : Uuid) : Starts t (activityConsumer id)
  | observe (t : Thread) (id : Uuid) (token : Token) (value : Option Bool) :
      Starts t (observe id token value)
  | retire (t : Thread) (id : Uuid) (token : Token) : Starts t (retire id token)
  | evaluateTick (t : Thread) (now : Option Instant) (heartbeat : Bool) :
      Starts t (evaluateTick now heartbeat)

/-- Any number of threads; none dies while the detector lives. -/
def idlePlatform : Platform idleInterface where
  Thread := Thread
  State := World
  Choice := Choice
  act t o x w := some (World.act t o x w)
  starts := Starts
  mayDie _ := False
  kill _ w := w

end AgentsCommander.Idle
