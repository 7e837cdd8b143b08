import AgentsCommander.Capture.TurnCodex

/-! Loop files: configuration, state, audit rows, and the pure functions over them.
What the TOML, JSON and cron crates compute is a parameter. -/
namespace AgentsCommander.Loops
open Capture.TurnCodex (isWhitespace trim)

/-- An instant in UTC, in nanoseconds. -/
abbrev DateTime := ℤ
abbrev Uuid := ℕ
abbrev Bytes := List UInt8

inductive LoopTriggerKind where
  | cron
  deriving DecidableEq, Repr

inductive LoopTargetKind where
  | workgroupCoordinator
  deriving DecidableEq, Repr

inductive MissedWhileClosedPolicy where
  | notify
  deriving DecidableEq, Repr

inductive BusyCoordinatorPolicy where
  | waitUntilIdle
  | forceInject
  | skip
  deriving DecidableEq, Repr

inductive LoopSessionStart where
  | fresh
  | accumulate
  deriving DecidableEq, Repr

structure LoopDef where
  id : String
  name : String
  enabled : Bool
  deriving DecidableEq, Repr

structure LoopTrigger where
  kind : LoopTriggerKind
  expr : String
  timezone : String
  deriving DecidableEq, Repr

structure LoopTarget where
  kind : LoopTargetKind
  workgroup : String
  deriving DecidableEq, Repr

structure LoopPrompt where
  body : String
  deriving DecidableEq, Repr

structure LoopPolicy where
  missedWhileClosed : MissedWhileClosedPolicy := .notify
  busyCoordinator : BusyCoordinatorPolicy := .waitUntilIdle
  sessionStart : LoopSessionStart := .fresh
  deriving DecidableEq, Repr

structure LoopConfigToml where
  loopDef : LoopDef
  trigger : LoopTrigger
  target : LoopTarget
  prompt : LoopPrompt
  policy : LoopPolicy
  deriving DecidableEq, Repr

structure LoopLastResult where
  kind : String
  message : String
  deriving DecidableEq, Repr

structure LoopState where
  lastCheckedAt : Option DateTime := none
  lastDueAt : Option DateTime := none
  lastDeliveredAt : Option DateTime := none
  lastResult : Option LoopLastResult := none
  pendingDueAt : Option DateTime := none
  pendingRunId : Option Uuid := none
  lastMissedClosedAt : Option DateTime := none
  nextDueAt : Option DateTime := none
  deriving DecidableEq, Repr, Inhabited

inductive LoopAuditKind where
  | delivered
  | pendingBusy
  | skippedBusy
  | missedWhileClosed
  | deliveryFailed
  | coalescedPending
  | targetUnresolved
  deriving DecidableEq, Repr

def auditKindName : LoopAuditKind → String
  | .delivered => "delivered"
  | .pendingBusy => "pendingBusy"
  | .skippedBusy => "skippedBusy"
  | .missedWhileClosed => "missedWhileClosed"
  | .deliveryFailed => "deliveryFailed"
  | .coalescedPending => "coalescedPending"
  | .targetUnresolved => "targetUnresolved"

def auditKindEvent : LoopAuditKind → String
  | .delivered => "delivered"
  | .pendingBusy => "pending"
  | .skippedBusy => "skipped"
  | .missedWhileClosed => "missed"
  | .deliveryFailed => "failed"
  | .coalescedPending => "coalesced"
  | .targetUnresolved => "unresolved"

structure LoopAuditEntry where
  runId : Uuid
  loopId : String
  projectPath : String
  kind : LoopAuditKind
  dueAt : DateTime
  startedAt : DateTime
  completedAt : Option DateTime
  target : Option String
  sessionId : Option Uuid
  busyCoordinatorPolicy : BusyCoordinatorPolicy
  sessionStart : Option LoopSessionStart
  error : Option String
  promptSnapshot : Option String
  deriving DecidableEq, Repr

/-- What `append_loop_audit_once` compares. -/
def LoopAuditEntry.key (e : LoopAuditEntry) : String × Uuid × LoopAuditKind × DateTime :=
  (e.loopId, e.runId, e.kind, e.dueAt)

structure LoopDeliveryReport where
  kind : LoopAuditKind
  message : String
  target : Option String
  sessionId : Option Uuid
  error : Option String
  promptSnapshot : Option String
  completedAt : Option DateTime
  deriving DecidableEq, Repr

structure LoopUpdatePatch where
  name : Option String := none
  expr : Option String := none
  workgroup : Option String := none
  promptBody : Option String := none
  busyCoordinator : Option BusyCoordinatorPolicy := none
  sessionStart : Option LoopSessionStart := none
  enabled : Option Bool := none

/-- The crates behind the Loop files: `toml`, `serde_json` and `croner`. Occurrences are
found in local time and given in UTC; the previous one may be the instant itself. -/
structure Crates where
  tomlFromStr : Bytes → Except String LoopConfigToml
  tomlToString : LoopConfigToml → Except String Bytes
  jsonFromStr : Bytes → Except String LoopState
  jsonToString : LoopState → Except String Bytes
  parseCron : String → Except String Unit
  findNextOccurrence : String → DateTime → Except String DateTime
  findPreviousOccurrence : String → DateTime → Except String DateTime

/-- `serde_json` writes every state as text, and reads back what it wrote. -/
structure Crates.ReadsBack (crates : Crates) : Prop where
  state : ∀ s, ∃ text, crates.jsonToString s = .ok text ∧
    ByteArray.validateUTF8 ⟨text.toArray⟩ = true ∧ crates.jsonFromStr text = .ok s

def isAsciiAlphanumeric (c : Char) : Bool := c.isAlphanum

def validateLoopId (id : String) : Except String Unit :=
  if id.toList = [] then .error "Loop id cannot be empty"
  else if id.toList.head? = some '-' ∨ id.toList.getLast? = some '-' then
    .error "Loop id cannot start or end with a hyphen"
  else if ¬ id.toList.all (fun c => isAsciiAlphanumeric c || c == '-') then
    .error "Invalid Loop id: only alphanumeric characters and hyphens are allowed"
  else .ok ()

def splitWhitespace (s : String) : List (List Char) :=
  (s.toList.splitOnP isWhitespace).filter (· ≠ [])

section
variable (crates : Crates)

def validateCronExpr (expr : String) : Except String Unit :=
  if (splitWhitespace expr).length ≠ 5 then
    .error ("Cron expression must use exactly 5 fields: " ++
      "minute hour day-of-month month day-of-week")
  else (crates.parseCron expr).mapError ("Invalid cron expression: " ++ ·)

def nextDueAfter (expr : String) (after : DateTime) : Except String (Option DateTime) := do
  validateCronExpr crates expr
  let next ← (crates.findNextOccurrence expr after).mapError
    ("Failed to calculate next Loop due time: " ++ ·)
  return some next

def latestDueBetween (expr : String) (after now : DateTime) : Except String (Option DateTime) := do
  validateCronExpr crates expr
  if after ≥ now then return none
  let latest ← (crates.findPreviousOccurrence expr now).mapError
    ("Failed to calculate Loop due time: " ++ ·)
  if latest > after ∧ latest ≤ now then return some latest else return none

def baselineLoopState (config : LoopConfigToml) (now : DateTime) : Except String LoopState := do
  let next ← nextDueAfter crates config.trigger.expr now
  return { lastCheckedAt := some now, nextDueAt := next }

end

def loopDeliveryConfigMatches (current expected : LoopConfigToml) : Bool :=
  current.loopDef.id = expected.loopDef.id ∧
  current.loopDef.enabled = expected.loopDef.enabled ∧
  current.trigger.kind = expected.trigger.kind ∧
  current.trigger.expr = expected.trigger.expr ∧
  current.trigger.timezone = expected.trigger.timezone ∧
  current.target.kind = expected.target.kind ∧
  current.target.workgroup = expected.target.workgroup ∧
  current.prompt.body = expected.prompt.body ∧
  current.policy.missedWhileClosed = expected.policy.missedWhileClosed ∧
  current.policy.busyCoordinator = expected.policy.busyCoordinator ∧
  current.policy.sessionStart = expected.policy.sessionStart

/-- One field of a patch: the new value, and whether the schedule starts over. -/
def patchField {α : Type} [DecidableEq α] (current : α) (patch : Option α) : α × Bool :=
  match patch with
  | none => (current, false)
  | some new => if current ≠ new then (new, true) else (current, false)

def applyLoopUpdatePatch (config : LoopConfigToml) (patch : LoopUpdatePatch) :
    Except String (LoopConfigToml × Bool) := do
  if patch.name.any fun name => (trim name).isEmpty then throw "Loop name cannot be empty"
  let expr := patchField config.trigger.expr patch.expr
  let workgroup := patchField config.target.workgroup patch.workgroup
  if patch.promptBody.any fun body => (trim body).isEmpty then throw "Loop prompt cannot be empty"
  let body := patchField config.prompt.body patch.promptBody
  let policy := patchField config.policy.busyCoordinator patch.busyCoordinator
  let start := patchField config.policy.sessionStart patch.sessionStart
  let enabled := patchField config.loopDef.enabled patch.enabled
  let name := patch.name.getD config.loopDef.name
  return ({ loopDef := { config.loopDef with name := name, enabled := enabled.1 }
            trigger := { config.trigger with expr := expr.1 }
            target := { config.target with workgroup := workgroup.1 }
            prompt := { body := body.1 }
            policy := { config.policy with
              busyCoordinator := policy.1, sessionStart := start.1 } },
    expr.2 || workgroup.2 || body.2 || policy.2 || start.2 || enabled.2)

def hasEntityPrefix (name : String) : Bool := name.startsWith "room-" || name.startsWith "wg-"

def validateWorkgroupName (name : String) : Except String Unit :=
  if name.toList = [] then .error "Room name cannot be empty"
  else if ¬ name.toList.all (fun c => isAsciiAlphanumeric c || c == '-') then
    .error "Invalid Room name: only alphanumeric characters and hyphens are allowed"
  else .ok ()

theorem loopDeliveryConfigMatches_refl (config : LoopConfigToml) :
    loopDeliveryConfigMatches config config = true := by simp [loopDeliveryConfigMatches]

theorem loopDeliveryConfigMatches_trans {a b c : LoopConfigToml}
    (h : loopDeliveryConfigMatches a b = true) (h' : loopDeliveryConfigMatches b c = true) :
    loopDeliveryConfigMatches a c = true := by
  simp only [loopDeliveryConfigMatches, decide_eq_true_eq] at h h' ⊢
  simp only [h, h', and_self]

theorem loopDeliveryConfigMatches_symm {a b : LoopConfigToml}
    (h : loopDeliveryConfigMatches a b = true) : loopDeliveryConfigMatches b a = true := by
  simp only [loopDeliveryConfigMatches, decide_eq_true_eq] at h ⊢
  simp only [h, and_self]

/-- A due time lies strictly after the instant it is asked for. -/
theorem lt_of_latestDueBetween {crates : Crates} {expr : String} {after now due : DateTime}
    (h : latestDueBetween crates expr after now = .ok (some due)) : after < due := by
  unfold latestDueBetween at h
  cases hv : validateCronExpr crates expr with
  | error e => rw [hv] at h; cases h
  | ok u =>
    rw [hv] at h
    by_cases hn : after ≥ now
    · simp [hn, bind, Except.bind, pure, Except.pure] at h
    cases hp : crates.findPreviousOccurrence expr now with
    | error e => simp [hp, hn, bind, Except.bind, Except.mapError] at h
    | ok latest =>
      by_cases hl : latest > after ∧ latest ≤ now
      · simp [hp, hn, hl, bind, Except.bind, pure, Except.pure, Except.mapError] at h
        exact h ▸ hl.1
      · simp [hp, hn, hl, bind, Except.bind, pure, Except.pure, Except.mapError] at h

end AgentsCommander.Loops
