import AgentsCommander.Clocks.Store
import AgentsCommander.Idle.Detector
import AgentsCommander.Foundation.Machine

/-! The rules by which the auto-close reads ages and clocks, and its tick, split at everything it
reads, among what goes on around it. -/
namespace AgentsCommander.AutoClose
open Foundation Clocks Idle

def repaintGrace : Duration := 10 * 10 ^ 9
def wakeGrace : Duration := 30 * 10 ^ 9

def i64Min : ℤ := -2 ^ 63

/-- `Duration::as_secs`. -/
def asSecs (d : Duration) : ℤ := ((d / 10 ^ 9 : ℕ) : ℤ)

def silenceAge (idle : IdleDetector) (id : Uuid) (now : Instant) : Option Duration :=
  (idle.silence.lookup id).bind (checkedDurationSince now)

def aliveAge (idle : IdleDetector) (id : Uuid) (now : Instant) : Option Duration :=
  (idle.registeredAt.lookup id).bind (checkedDurationSince now)

/-- The silence of a member whose last output lies behind its repaint window. -/
def memberPostRepaintSilence (aliveAge silenceAge : Option Duration) (grace : Duration) :
    Option Duration :=
  match aliveAge, silenceAge with
  | some alive, some silence =>
    if grace ≤ alive ∧ silence < alive - grace then some silence else none
  | _, _ => none

/-- What was read of one member. -/
structure Reading where
  id : Uuid
  team : String
  alive : Option Duration
  silence : Option Duration
  deriving DecidableEq, Repr

def Reading.postRepaint (reading : Reading) : Option Duration :=
  memberPostRepaintSilence reading.alive reading.silence repaintGrace

def teamMinSilence (readings : List Reading) (team : String) : Option Duration :=
  ((readings.filter (·.team = team)).filterMap Reading.postRepaint).min?

def teamIdleSinceSecs (lastUserMessageAt lastActivityAt : Option DateTime) : ℤ :=
  max (lastUserMessageAt.elim i64Min timestamp) (lastActivityAt.elim i64Min timestamp)

/-- The anchor of a member whose team has no coordinator record; `i64::saturating_sub`. -/
def orphanAnchorSecs (silenceAge : Option Duration) (nowSecs : ℤ) : ℤ :=
  silenceAge.elim i64Min fun d => max i64Min (nowSecs - asSecs d)

def resolveMemberAnchor (coordRef : Option (String × String)) (snap : ClockMap)
    (memberSilence : Option Duration) (nowSecs : ℤ) : ℤ :=
  match coordRef with
  | some (fqn, _) =>
    teamIdleSinceSecs ((snap.lookup fqn).bind (·.lastUserMessageAt))
      ((snap.lookup fqn).bind (·.lastActivityAt))
  | none => orphanAnchorSecs memberSilence nowSecs

def teamIsCloseable (established : Bool) (anchorSecs nowSecs timeoutSecs : ℤ) : Bool :=
  established && anchorSecs ≠ i64Min && nowSecs - anchorSecs > timeoutSecs

def sessionIsTelegramProtected (skipTelegramAssigned hasTelegram : Bool) : Bool :=
  skipTelegramAssigned && hasTelegram

def shouldCloseMember (telegramProtected established : Bool)
    (anchorSecs nowSecs timeoutSecs : ℤ) : Bool :=
  !telegramProtected && teamIsCloseable established anchorSecs nowSecs timeoutSecs

structure CloseSettings where
  enabled : Bool
  minutes : ℕ
  skipTelegramAssigned : Bool
  deriving DecidableEq, Repr

structure AutoClosePolicy where
  nowSecs : ℤ
  timeoutSecs : ℤ
  skipTelegramAssigned : Bool
  deriving DecidableEq, Repr

def autoClosePolicy (closeSettings : Option CloseSettings) (nowSecs : ℤ) :
    Option AutoClosePolicy :=
  closeSettings.bind fun settings =>
    if !settings.enabled || settings.minutes = 0 then none
    else some ⟨nowSecs, settings.minutes * 60, settings.skipTelegramAssigned⟩

/-- What the auto-close reads of a session record. -/
structure Session where
  /-- `agent_fqn_from_path` of its working directory. -/
  fqn : String
  workingDirectory : String
  isCoordinator : Bool
  hasAgent : Bool
  telegramBot : Bool
  pendingCreate : Bool
  deriving DecidableEq, Repr

/-- `rsplit_once('/')`, the part in front. -/
def teamKey (fqn : String) : Option String :=
  match fqn.toList.reverse.dropWhile (· ≠ '/') with
  | [] => none
  | _ :: rest => some (String.ofList rest.reverse)

abbrev SessionTable := AList fun _ : Uuid => Session

def agentTeamMembers (sessions : SessionTable) : List (Uuid × String) :=
  sessions.entries.filterMap fun e =>
    if !e.2.pendingCreate && (e.2.isCoordinator || e.2.hasAgent) then
      (teamKey e.2.fqn).map (Prod.mk e.1) else none

/-- The last of two records of one team wins. -/
def coordinatorRefsByTeam (sessions : SessionTable) : AList fun _ : String => String × String :=
  (sessions.entries.filterMap fun e =>
    if !e.2.pendingCreate && e.2.isCoordinator then
      (teamKey e.2.fqn).map fun team => (team, e.2.fqn, e.2.workingDirectory)
    else none).foldl (fun refs ref => refs.insert ref.1 ref.2) ∅

def sessionHasTelegramBot (sessions : SessionTable) (id : Uuid) : Bool :=
  (sessions.lookup id).any fun session => !session.pendingCreate && session.telegramBot

/-- `outputs`: when each session last produced any output. -/
structure World where
  settings : Option CloseSettings
  sessions : SessionTable
  live : List Uuid
  idle : Idle.World
  clocks : CoordinatorClocks
  outputs : AList fun _ : Uuid => Instant

/-- What `confirm_closeable_members` read of a session that it confirms, and the last output that
the session had produced by then. -/
structure Confirmation where
  id : Uuid
  anchor : ℤ
  readAt : Instant
  stamp : Option Instant
  telegramBot : Bool
  lastOutput : Option Instant
  deriving DecidableEq, Repr

inductive Stage where
  | resting
  | candidates
  | live
  | protecting (todo : List (Uuid × String))
  | establishing (todo : List (Uuid × String))
  | references
  | clock
  | measuring (todo : List (Uuid × String))
  | advancing
  | snapshot
  | choosing (policy : AutoClosePolicy) (todo : List (Uuid × String))
  | reserving (policy : AutoClosePolicy)
  | confirming (policy : AutoClosePolicy) (todo : List Uuid)
  | listening (policy : AutoClosePolicy) (id : Uuid) (anchor : ℤ) (todo : List Uuid)
  | assigning (policy : AutoClosePolicy) (confirmation : Confirmation) (todo : List Uuid)
  | finalized
  deriving DecidableEq, Repr

/-- The locals of one tick. `startedAt` and `registeredAt` keep how old every session was when it
began. -/
structure Tick where
  startedAt : Instant
  registeredAt : AList fun _ : Uuid => Instant
  closeSettings : Option CloseSettings
  members : List (Uuid × String)
  telegramProtected : List Uuid
  establishedTeams : List String
  coordRefs : AList fun _ : String => String × String
  nowSecs : ℤ
  readings : List Reading
  snap : ClockMap
  toClose : List Uuid
  confirmed : List Confirmation

def Tick.begun (startedAt : Instant) (registeredAt : AList fun _ : Uuid => Instant)
    (closeSettings : Option CloseSettings) : Tick :=
  ⟨startedAt, registeredAt, closeSettings, [], [], [], ∅, 0, [], ∅, [], []⟩

structure Evaluator where
  world : World
  stage : Stage
  tick : Tick

/-- The clocks as a step reads them, and whether `reserve_auto_close` answers with a ticket. -/
structure Choice where
  now : Instant
  later : Instant
  wall : DateTime
  reserved : Bool

inductive AutoCloseEvent where
  | proceed (choice : Choice)
  | settings (settings : Option CloseSettings)
  | sessions (sessions : SessionTable) (live : List Uuid)
  | userMessage (fqn : String) (now : DateTime)
  | spawnCoordinator (fqn : String) (now : DateTime)
  /-- A section of a function of the idle detector. -/
  | detect (thread : Thread) (act : Act) (choice : Idle.Choice)
  | output (id : Uuid) (byteCount : ℕ) (printable : Bool) (now : Instant)

/-- A program of the idle detector with nothing between its sections. -/
def runAlone {α : Type} (choice : Idle.Choice) : IdleProgram α → Idle.World → Idle.World
  | .done _, w => w
  | .act o k, w => runAlone choice (k (Idle.World.act 0 o choice w).1) (Idle.World.act 0 o choice w).2

namespace World
variable (world : World)

/-- `note_coordinator_create_on_app`, but for the ledger of creates. -/
def spawnCoordinator (fqn : String) (now : DateTime) : World :=
  let seeded := (world.clocks.seedIfAbsent fqn now).1
  { world with clocks := ((seeded.clearAutoClosed fqn).1.clearManuallyClosed fqn).1 }

def output (id : Uuid) (byteCount : ℕ) (printable : Bool) (now : Instant) : World :=
  { world with
    outputs := world.outputs.insert id now
    idle := runAlone ⟨now, true⟩ (recordOutputAt id byteCount printable now) world.idle }

/-- `advance_team_activity` under the clocks lock. -/
def advance (tick : Tick) : World :=
  { world with
    clocks := tick.coordRefs.entries.foldl (fun clocks e =>
      match teamMinSilence tick.readings e.1 with
      | some silence =>
        (clocks.noteActivity e.2.1 ((tick.nowSecs - asSecs silence) * 10 ^ 9)).1
      | none => clocks) world.clocks }

end World

namespace Evaluator
variable (s : Evaluator)

def atRest (world : World) : Evaluator := ⟨world, .resting, .begun 0 ∅ none⟩

def goTo (stage : Stage) (tick : Tick) : Evaluator := ⟨s.world, stage, tick⟩

def start (choice : Choice) : Evaluator :=
  s.goTo .candidates (.begun choice.now s.world.idle.detector.registeredAt s.world.settings)

def readCandidates : Evaluator :=
  s.goTo .live { s.tick with members := agentTeamMembers s.world.sessions }

def liveMembers : Evaluator :=
  let members := s.tick.members.filter fun m => m.1 ∈ s.world.live
  s.goTo (if s.tick.closeSettings.any (·.skipTelegramAssigned) then .protecting members
    else .establishing members) { s.tick with members := members }

/-- One round of `telegram_protected_members`. -/
def protect (id : Uuid) (todo : List (Uuid × String)) : Evaluator :=
  s.goTo (.protecting todo) { s.tick with
    telegramProtected := if sessionHasTelegramBot s.world.sessions id then
      id :: s.tick.telegramProtected else s.tick.telegramProtected }

def isEstablished (id : Uuid) (now : Instant) : Bool :=
  (aliveAge s.world.idle.detector id now).any (wakeGrace ≤ ·)

/-- One round of `established_teams`. -/
def establish (choice : Choice) (id : Uuid) (team : String) (todo : List (Uuid × String)) :
    Evaluator :=
  s.goTo (.establishing todo) { s.tick with
    establishedTeams := if s.isEstablished id choice.now then team :: s.tick.establishedTeams
      else s.tick.establishedTeams }

def readReferences : Evaluator :=
  s.goTo .clock { s.tick with coordRefs := coordinatorRefsByTeam s.world.sessions }

def readClock (choice : Choice) : Evaluator :=
  s.goTo (.measuring s.tick.members) { s.tick with nowSecs := timestamp choice.wall }

/-- One round of `team_min_silence`. -/
def measure (choice : Choice) (id : Uuid) (team : String) (todo : List (Uuid × String)) :
    Evaluator :=
  s.goTo (.measuring todo) { s.tick with
    readings := ⟨id, team, aliveAge s.world.idle.detector id choice.now,
      silenceAge s.world.idle.detector id choice.later⟩ :: s.tick.readings }

def advance : Evaluator := { s with world := s.world.advance s.tick, stage := .snapshot }

def takeSnapshot : Evaluator :=
  let tick := { s.tick with snap := s.world.clocks.map }
  match autoClosePolicy tick.closeSettings tick.nowSecs with
  | some policy => s.goTo (.choosing policy tick.members) tick
  | none => s.goTo .resting tick

/-- One round of `closeable_members`. -/
def chooses (policy : AutoClosePolicy) (choice : Choice) (id : Uuid) (team : String) : Bool :=
  shouldCloseMember
    (sessionIsTelegramProtected policy.skipTelegramAssigned (id ∈ s.tick.telegramProtected))
    (team ∈ s.tick.establishedTeams)
    (resolveMemberAnchor (s.tick.coordRefs.lookup team) s.tick.snap
      (silenceAge s.world.idle.detector id choice.now) policy.nowSecs)
    policy.nowSecs policy.timeoutSecs

def choose (policy : AutoClosePolicy) (choice : Choice) (id : Uuid) (team : String)
    (todo : List (Uuid × String)) : Evaluator :=
  s.goTo (.choosing policy todo) { s.tick with
    toClose := if s.chooses policy choice id team then s.tick.toClose ++ [id]
      else s.tick.toClose }

def reserve (policy : AutoClosePolicy) (choice : Choice) : Evaluator :=
  s.goTo (if choice.reserved then .confirming policy s.tick.toClose else .resting) s.tick

/-- The coordinator record of a session's team. -/
def coordRef (id : Uuid) : Option (String × String) :=
  ((s.tick.members.find? (·.1 = id)).map (·.2)).bind s.tick.coordRefs.lookup

def freshAnchor (id : Uuid) : ℤ :=
  match s.coordRef id with
  | some (fqn, _) =>
    teamIdleSinceSecs (s.world.clocks.lastUserMessageAt fqn) (s.world.clocks.lastActivityAt fqn)
  | none => i64Min

/-- One round of `confirm_closeable_members`: the anchor, the silence, and the assignment. -/
def confirmAnchor (policy : AutoClosePolicy) (id : Uuid) (todo : List Uuid) : Evaluator :=
  let anchor := s.freshAnchor id
  s.goTo (if anchor ≠ i64Min ∧ policy.nowSecs - anchor ≤ policy.timeoutSecs then
    .confirming policy todo else .listening policy id anchor todo) s.tick

def confirm (policy : AutoClosePolicy) (confirmation : Confirmation) (todo : List Uuid) :
    Evaluator :=
  s.goTo (.confirming policy todo)
    { s.tick with confirmed := s.tick.confirmed ++ [confirmation] }

def confirmSilence (policy : AutoClosePolicy) (choice : Choice) (id : Uuid) (anchor : ℤ)
    (todo : List Uuid) : Evaluator :=
  let confirmation : Confirmation := ⟨id, anchor, choice.now,
    s.world.idle.detector.silence.lookup id, false, s.world.outputs.lookup id⟩
  if (silenceAge s.world.idle.detector id choice.now).any (· < repaintGrace) then
    s.goTo (.confirming policy todo) s.tick
  else if policy.skipTelegramAssigned then s.goTo (.assigning policy confirmation todo) s.tick
  else s.confirm policy confirmation todo

def confirmAssignment (policy : AutoClosePolicy) (confirmation : Confirmation)
    (todo : List Uuid) : Evaluator :=
  let telegramBot := sessionHasTelegramBot s.world.sessions confirmation.id
  if sessionIsTelegramProtected true telegramBot then s.goTo (.confirming policy todo) s.tick
  else s.confirm policy { confirmation with telegramBot := telegramBot } todo

def proceed (choice : Choice) : Evaluator :=
  match s.stage with
  | .resting | .finalized => s.start choice
  | .candidates => s.readCandidates
  | .live => s.liveMembers
  | .protecting [] => s.goTo (.establishing s.tick.members) s.tick
  | .protecting ((id, _) :: todo) => s.protect id todo
  | .establishing [] => s.goTo .references s.tick
  | .establishing ((id, team) :: todo) => s.establish choice id team todo
  | .references => s.readReferences
  | .clock => s.readClock choice
  | .measuring [] => s.goTo .advancing s.tick
  | .measuring ((id, team) :: todo) => s.measure choice id team todo
  | .advancing => s.advance
  | .snapshot => s.takeSnapshot
  | .choosing policy [] => s.goTo (if s.tick.toClose = [] then .resting else .reserving policy) s.tick
  | .choosing policy ((id, team) :: todo) => s.choose policy choice id team todo
  | .reserving policy => s.reserve policy choice
  | .confirming _ [] => s.goTo .finalized s.tick
  | .confirming policy (id :: todo) => s.confirmAnchor policy id todo
  | .listening policy id anchor todo => s.confirmSilence policy choice id anchor todo
  | .assigning policy confirmation todo => s.confirmAssignment policy confirmation todo

def inWorld (world : World) : Evaluator := { s with world := world }

def step : AutoCloseEvent → Evaluator × Unit
  | .proceed choice => (s.proceed choice, ())
  | .settings settings => (s.inWorld { s.world with settings := settings }, ())
  | .sessions sessions live => (s.inWorld { s.world with sessions := sessions, live := live }, ())
  | .userMessage fqn now => (s.inWorld { s.world with
      clocks := (s.world.clocks.noteUserMessage fqn now).1 }, ())
  | .spawnCoordinator fqn now => (s.inWorld (s.world.spawnCoordinator fqn now), ())
  | .detect thread act choice => (s.inWorld { s.world with
      idle := (Idle.World.act thread act choice s.world.idle).2 }, ())
  | .output id byteCount printable now =>
    (s.inWorld (s.world.output id byteCount printable now), ())

end Evaluator

def autoClose : Machine Evaluator AutoCloseEvent Unit := ⟨Evaluator.step⟩

end AgentsCommander.AutoClose
