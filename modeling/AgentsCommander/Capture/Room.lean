import AgentsCommander.Foundation.Window
import AgentsCommander.Capture.Key
import AgentsCommander.Foundation.Machine

/-! The co-managed room in memory, its persisted projection, and the critical sections that
`observe`, `recharge_in_memory`, `commit_effect` and `reconcile` run on it; and one room of one
process, with `state.json`, the advisory lock, any number of flush jobs, and the commit that holds
the lock. A step is one critical section or one file write. Steps that are not enabled change
nothing. -/
namespace AgentsCommander.Capture
open Foundation

def stalePreconditions : ℕ := 250 * 10 ^ 6

def budgetCap : ℕ := 3

def recentCapacity : ℕ := 64

def flushDebounce : ℕ := 5 * 10 ^ 9

def u32Max : ℕ := 2 ^ 32 - 1

structure EpochEntry where
  epoch : ℕ
  observation : FileObservation
  deriving DecidableEq

/-- The contents of `state.json`, as parsed. -/
structure PersistedRoomState where
  epochs : String → Option EpochEntry
  watermarks : String → Option ℕ
  recent : String → Option (List ConsumptionKey)
  budget : Option ℕ
  spendsSinceRecharge : Option ℕ
  rechargeStamp : ℕ
  cut : Option Cut

namespace PersistedRoomState

/-- What a missing or unreadable file stands for. -/
def default : PersistedRoomState :=
  ⟨fun _ => none, fun _ => none, fun _ => none, none, none, 0, none⟩

def spends (p : PersistedRoomState) : ℕ :=
  p.spendsSinceRecharge.getD (budgetCap - min (p.budget.getD budgetCap) budgetCap)

def recentOf (p : PersistedRoomState) (sessionId : String) : List ConsumptionKey :=
  (p.recent sessionId).getD []

/-- Recharge generations first, spends within one second. -/
def rank (p : PersistedRoomState) : ℕ ×ₗ ℕ := toLex (p.rechargeStamp, p.spends)

end PersistedRoomState

/-- The room in memory. The counters are unbounded; `spends_since_recharge` saturates. -/
structure RoomState where
  epochs : String → Option EpochEntry
  watermarks : String → Option ℕ
  recent : String → Option (List ConsumptionKey)
  spendsSinceRecharge : ℕ
  rechargeStamp : ℕ
  cut : Option Cut
  dirty : Bool
  lastFlush : Option ℕ
  flushScheduled : Bool

inductive EffectKind where
  | automatic
  | textToUser
  deriving DecidableEq, Repr

structure EffectPreconditions where
  sessionAlive : Bool
  sessionId : String
  uniqueLiveSessionForCwd : Bool
  noPendingUserInput : Bool
  effectiveReady : Bool
  observedAt : ℕ
  kind : EffectKind

def EffectPreconditions.allTrue (pre : EffectPreconditions) : Bool :=
  pre.sessionAlive && pre.uniqueLiveSessionForCwd && pre.noPendingUserInput && pre.effectiveReady

structure CommittedEffect where
  sessionId : String
  key : ConsumptionKey
  budgetRemaining : ℕ
  kind : EffectKind
  routable : Bool
  deriving DecidableEq

inductive AbstainReason where
  | preconditionsStale
  | lockBusy
  | lockUnavailable (error : String)
  | preconditionsRejected
  | slotChanged
  | alreadyConsumed
  | budgetExhausted
  deriving DecidableEq, Repr

namespace RoomState

def budget (room : RoomState) : ℕ := budgetCap - room.spendsSinceRecharge

def recentOf (room : RoomState) (sessionId : String) : List ConsumptionKey :=
  (room.recent sessionId).getD []

def rank (room : RoomState) : ℕ ×ₗ ℕ := toLex (room.rechargeStamp, room.spendsSinceRecharge)

def toPersisted (room : RoomState) : PersistedRoomState where
  epochs := room.epochs
  watermarks := room.watermarks
  recent := room.recent
  budget := some room.budget
  spendsSinceRecharge := some room.spendsSinceRecharge
  rechargeStamp := room.rechargeStamp
  cut := room.cut

/-- `adopt` on a fresh room, as the first touch of a room does it. -/
def load (persisted : PersistedRoomState) : RoomState where
  epochs := persisted.epochs
  watermarks := persisted.watermarks
  recent := persisted.recent
  spendsSinceRecharge := persisted.spends
  rechargeStamp := persisted.rechargeStamp
  cut := persisted.cut.map Cut.supersedeSequence
  dirty := false
  lastFlush := none
  flushScheduled := false

def remember (room : RoomState) (sessionId : String) (key : ConsumptionKey) : RoomState :=
  { room with
    recent := Function.update room.recent sessionId
      (some (Window.push recentCapacity (room.recentOf sessionId) key)) }

def wasConsumed (room : RoomState) (sessionId : String) (key : ConsumptionKey) : Bool :=
  key ∈ room.recentOf sessionId

/-- `observe`, at the normalised path; also the epoch it answers. -/
def observe (room : RoomState) (path : String) (observation : FileObservation) : RoomState × ℕ :=
  match room.epochs path with
  | some entry =>
    if (classifyObservation entry.observation observation).advancesEpoch then
      ({ room with
          epochs := Function.update room.epochs path (some ⟨entry.epoch + 1, observation⟩)
          cut := if room.cut.any (·.path = path) then none else room.cut
          dirty := true },
        entry.epoch + 1)
    else
      ({ room with
          epochs := Function.update room.epochs path
            (some ⟨entry.epoch, extendObservation entry.observation observation⟩)
          dirty := true },
        entry.epoch)
  | none =>
    ({ room with
        epochs := Function.update room.epochs path (some ⟨0, observation⟩)
        dirty := true },
      0)

def rechargeInMemory (room : RoomState) : RoomState :=
  { room with
    spendsSinceRecharge := 0
    rechargeStamp := room.rechargeStamp + 1
    dirty := true }

/-- One path of the watermark merge. -/
def mergeMark (mark disk : Option ℕ) : Option ℕ :=
  match disk, mark with
  | none, mark => mark
  | some d, none => some d
  | some d, some m => some (max m d)

/-- One session of the recent-set merge. -/
def mergeRecent (recent disk : Option (List ConsumptionKey)) : Option (List ConsumptionKey) :=
  match disk with
  | none | some [] => recent
  | some keys => some (Window.absorb recentCapacity (recent.getD []) keys)

def reconcile (room : RoomState) (disk : PersistedRoomState) : RoomState :=
  let merged : RoomState :=
    { room with
      watermarks := fun path => mergeMark (room.watermarks path) (disk.watermarks path)
      recent := fun session => mergeRecent (room.recent session) (disk.recent session) }
  if room.rechargeStamp < disk.rechargeStamp then
    { merged with rechargeStamp := disk.rechargeStamp, spendsSinceRecharge := disk.spends }
  else if room.rechargeStamp = disk.rechargeStamp then
    { merged with spendsSinceRecharge := max room.spendsSinceRecharge disk.spends }
  else merged

def raiseWatermark (room : RoomState) (key : ConsumptionKey) : RoomState :=
  match key.recordStart with
  | none => room
  | some start =>
    { room with
      watermarks := Function.update room.watermarks key.path
        (some (max ((room.watermarks key.path).getD 0) start)) }

def spend (room : RoomState) (spendsBudget : Bool) : RoomState :=
  if spendsBudget then
    { room with spendsSinceRecharge := min (room.spendsSinceRecharge + 1) u32Max }
  else room

/-- Step 5 of a commit: watermark, recent set and budget in one section. -/
def mark (room : RoomState) (sessionId : String) (key : ConsumptionKey) (routable : Bool) :
    RoomState :=
  { (((room.raiseWatermark key).remember sessionId key).spend routable) with dirty := true }

/-- The critical section of `commit_effect`. A refusal keeps what `reconcile` merged. -/
def reserve (room : RoomState) (disk : PersistedRoomState) (sessionId : String)
    (key : ConsumptionKey) (kind : EffectKind) (routable : Bool) :
    RoomState × Except AbstainReason CommittedEffect :=
  let merged := room.reconcile disk
  if merged.wasConsumed sessionId key then (merged, .error .alreadyConsumed)
  else if routable ∧ merged.budget = 0 then (merged, .error .budgetExhausted)
  else
    let marked := merged.mark sessionId key routable
    (marked, .ok ⟨sessionId, key, marked.budget, kind, routable⟩)

end RoomState

/-- What a load of the file restores, written out again. -/
def PersistedRoomState.restored (p : PersistedRoomState) : PersistedRoomState :=
  (RoomState.load p).toPersisted

structure CommitCall where
  expectedSeq : ℕ
  expectedKey : ConsumptionKey
  pre : EffectPreconditions

/-- Step 4 of a commit under the lock; the answer is whether the effect is routable. -/
def CommitCall.check (call : CommitCall) (now : ℕ) (slot : SlotState)
    (normalisePath : String → String) : Except AbstainReason Bool :=
  if stalePreconditions < now - call.pre.observedAt then .error .preconditionsStale
  else if !call.pre.allTrue then .error .preconditionsRejected
  else if slot.seq ≠ call.expectedSeq then .error .slotChanged
  else match slot.value.record with
    | none => .error .slotChanged
    | some candidate =>
      if candidate.sessionId ≠ call.pre.sessionId then .error .preconditionsRejected
      else if ConsumptionKey.fromRecord normalisePath candidate call.expectedKey.epoch ≠
          call.expectedKey then .error .slotChanged
      else .ok (call.pre.kind = .automatic && !isBaseline candidate)

inductive FlushOutcome where
  | written
  | clean
  | lockBusy
  | failed (error : String)
  deriving DecidableEq, Repr

/-- The outcome of waiting for the advisory lock. -/
inductive LockAttempt where
  | held
  | busy
  | unavailable (error : String)
  deriving DecidableEq, Repr

/-- Where a flush job stands. A claimed job is scheduled but not spawned yet. -/
inductive FlushPhase where
  | idle
  | claimed
  | pending
  | snapped (persisted : PersistedRoomState) (stamp : ℕ)
  | writing
  | wrote (stamp : ℕ)
  | failed (error : String)

/-- Where the commit that holds the lock stands. -/
inductive CommitPhase where
  | entered (call : CommitCall)
  | reserved (effect : CommittedEffect)
  | snapped (effect : CommittedEffect) (persisted : PersistedRoomState)
  | written (effect : CommittedEffect)
  | leaving (outcome : Except AbstainReason CommittedEffect)

inductive Lock where
  | free
  | flush (job : ℕ) (persisted : PersistedRoomState) (stamp : ℕ)
  | commit (phase : CommitPhase)

structure Room where
  memory : RoomState
  file : PersistedRoomState
  lock : Lock
  jobs : ℕ → FlushPhase

inductive RoomEvent where
  | observe (path : String) (observation : FileObservation)
  | recharge
  | scheduleFlush (job now : ℕ)
  | spawn (job : ℕ) (runtime : Bool)
  | callFlush (job : ℕ)
  | flushBegin (job : ℕ)
  | flushLock (job : ℕ) (attempt : LockAttempt)
  | flushWrite (error : Option String)
  | flushEnd (job now : ℕ)
  | commitEnter (call : CommitCall) (now : ℕ) (attempt : LockAttempt)
  | commitReserve (now : ℕ) (slot : SlotState) (normalisePath : String → String)
  | commitSnapshot
  | commitWrite (error : Option String)
  | commitClear (now : ℕ)
  | commitReturn
  | restart

inductive RoomReply where
  | unit
  | observed (epoch : ℕ)
  | scheduled (dueIn : ℕ)
  | flushed (outcome : FlushOutcome)
  | reserved (outcome : Except AbstainReason CommittedEffect)
  | returned (outcome : Except AbstainReason CommittedEffect)

namespace Room

/-- A process that has just loaded the file. -/
def start (file : PersistedRoomState) : Room := ⟨.load file, file, .free, fun _ => .idle⟩

def setJob (s : Room) (job : ℕ) (phase : FlushPhase) : Room :=
  { s with jobs := Function.update s.jobs job phase }

def scheduleFlush (s : Room) (job now : ℕ) : Room × RoomReply :=
  match s.jobs job with
  | .idle =>
    if !s.memory.dirty || s.memory.flushScheduled then (s, .unit)
    else ({ s.setJob job .claimed with memory := { s.memory with flushScheduled := true } },
      .scheduled (match s.memory.lastFlush with
        | some last => flushDebounce - (now - last)
        | none => 0))
  | _ => (s, .unit)

def spawn (s : Room) (job : ℕ) (runtime : Bool) : Room × RoomReply :=
  match s.jobs job with
  | .claimed =>
    if runtime then (s.setJob job .pending, .unit)
    else ({ s.setJob job .idle with memory := { s.memory with flushScheduled := false } }, .unit)
  | _ => (s, .unit)

def callFlush (s : Room) (job : ℕ) : Room × RoomReply :=
  match s.jobs job with
  | .idle => (s.setJob job .pending, .unit)
  | _ => (s, .unit)

def flushBegin (s : Room) (job : ℕ) : Room × RoomReply :=
  match s.jobs job with
  | .pending =>
    if s.memory.dirty then
      (s.setJob job (.snapped s.memory.toPersisted s.memory.rechargeStamp), .unit)
    else (s.setJob job .idle, .flushed .clean)
  | _ => (s, .unit)

def flushLock (s : Room) (job : ℕ) (attempt : LockAttempt) : Room × RoomReply :=
  match s.jobs job with
  | .snapped persisted stamp =>
    match attempt, s.lock with
    | .held, .free => ({ s.setJob job .writing with lock := .flush job persisted stamp }, .unit)
    | .held, _ => (s, .unit)
    | .busy, _ => (s.setJob job .idle, .flushed .lockBusy)
    | .unavailable error, _ => (s.setJob job .idle, .flushed (.failed error))
  | _ => (s, .unit)

def flushWrite (s : Room) (error : Option String) : Room × RoomReply :=
  match s.lock with
  | .flush job persisted stamp =>
    match error with
    | none => ({ s.setJob job (.wrote stamp) with file := persisted, lock := .free }, .unit)
    | some error => ({ s.setJob job (.failed error) with lock := .free }, .unit)
  | _ => (s, .unit)

def flushEnd (s : Room) (job now : ℕ) : Room × RoomReply :=
  match s.jobs job with
  | .wrote stamp =>
    ({ s.setJob job .idle with
        memory := { s.memory with
          dirty := if s.memory.rechargeStamp = stamp then false else s.memory.dirty
          lastFlush := some now
          flushScheduled := false } },
      .flushed .written)
  | .failed error =>
    ({ s.setJob job .idle with memory := { s.memory with flushScheduled := false } },
      .flushed (.failed error))
  | _ => (s, .unit)

/-- Steps 2 and 3 of a commit. -/
def commitEnter (s : Room) (call : CommitCall) (now : ℕ) (attempt : LockAttempt) :
    Room × RoomReply :=
  if stalePreconditions < now - call.pre.observedAt then (s, .returned (.error .preconditionsStale))
  else match attempt, s.lock with
    | .held, .free => ({ s with lock := .commit (.entered call) }, .unit)
    | .held, _ => (s, .unit)
    | .busy, _ => (s, .returned (.error .lockBusy))
    | .unavailable error, _ => (s, .returned (.error (.lockUnavailable error)))

/-- Steps 4 and 5. Under the lock nobody else writes the file it reads. -/
def commitReserve (s : Room) (now : ℕ) (slot : SlotState) (normalisePath : String → String) :
    Room × RoomReply :=
  match s.lock with
  | .commit (.entered call) =>
    match call.check now slot normalisePath with
    | .error reason =>
      ({ s with lock := .commit (.leaving (.error reason)) }, .reserved (.error reason))
    | .ok routable =>
      let section5 := s.memory.reserve s.file call.pre.sessionId call.expectedKey call.pre.kind
        routable
      match section5.2 with
      | .error reason =>
        ({ s with memory := section5.1, lock := .commit (.leaving (.error reason)) },
          .reserved (.error reason))
      | .ok effect =>
        ({ s with memory := section5.1, lock := .commit (.reserved effect) },
          .reserved (.ok effect))
  | _ => (s, .unit)

def commitSnapshot (s : Room) : Room × RoomReply :=
  match s.lock with
  | .commit (.reserved effect) =>
    ({ s with lock := .commit (.snapped effect s.memory.toPersisted) }, .unit)
  | _ => (s, .unit)

def commitWrite (s : Room) (error : Option String) : Room × RoomReply :=
  match s.lock with
  | .commit (.snapped effect persisted) =>
    match error with
    | none => ({ s with file := persisted, lock := .commit (.written effect) }, .unit)
    | some _ => ({ s with lock := .commit (.leaving (.ok effect)) }, .unit)
  | _ => (s, .unit)

def commitClear (s : Room) (now : ℕ) : Room × RoomReply :=
  match s.lock with
  | .commit (.written effect) =>
    ({ s with
        memory := { s.memory with dirty := false, lastFlush := some now }
        lock := .commit (.leaving (.ok effect)) },
      .unit)
  | _ => (s, .unit)

def commitReturn (s : Room) : Room × RoomReply :=
  match s.lock with
  | .commit (.leaving outcome) => ({ s with lock := .free }, .returned outcome)
  | _ => (s, .unit)

def step (s : Room) : RoomEvent → Room × RoomReply
  | .observe path observation =>
    ({ s with memory := (s.memory.observe path observation).1 },
      .observed (s.memory.observe path observation).2)
  | .recharge => ({ s with memory := s.memory.rechargeInMemory }, .unit)
  | .scheduleFlush job now => s.scheduleFlush job now
  | .spawn job runtime => s.spawn job runtime
  | .callFlush job => s.callFlush job
  | .flushBegin job => s.flushBegin job
  | .flushLock job attempt => s.flushLock job attempt
  | .flushWrite error => s.flushWrite error
  | .flushEnd job now => s.flushEnd job now
  | .commitEnter call now attempt => s.commitEnter call now attempt
  | .commitReserve now slot normalisePath => s.commitReserve now slot normalisePath
  | .commitSnapshot => s.commitSnapshot
  | .commitWrite error => s.commitWrite error
  | .commitClear now => s.commitClear now
  | .commitReturn => s.commitReturn
  | .restart => (.start s.file, .unit)

end Room

def room : Machine Room RoomEvent RoomReply := ⟨Room.step⟩

end AgentsCommander.Capture
