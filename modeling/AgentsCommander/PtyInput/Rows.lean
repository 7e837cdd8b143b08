import AgentsCommander.Foundation.Table
import AgentsCommander.PtyInput.Contract

/-! The two tables of the PTY input store under the constraints of their schema, and how a
row is read back. -/
namespace AgentsCommander.PtyInput
open Foundation
open MessageStore (Timestamp MessageStoreError)

inductive PtyStatus where
  | queued
  | preparing
  | retry
  | actuating
  | injected
  | rejected
  | indeterminate
  deriving DecidableEq, Repr

local instance (priority := 2000) decidableEqPayload : DecidableEq ByteArray :=
  ByteArray.instDecidableEq

/-- Nothing has been typed yet. -/
def PtyStatus.isWaiting : PtyStatus → Bool
  | .queued | .preparing | .retry => true
  | .actuating | .injected | .rejected | .indeterminate => false

def PtyStatus.isTerminal : PtyStatus → Bool
  | .injected | .rejected | .indeterminate => true
  | .queued | .preparing | .retry | .actuating => false

def PtyStatus.toPublic : PtyStatus → PtyInputPublicStatus
  | .queued | .preparing | .retry => .queued
  | .actuating => .actuating
  | .injected => .injected
  | .rejected => .rejected
  | .indeterminate => .indeterminate

@[simp] theorem isTerminal_toPublic (status : PtyStatus) :
    status.toPublic.isTerminal = status.isTerminal := by cases status <;> rfl

theorem toPublic_of_isWaiting {status : PtyStatus} (h : status.isWaiting = true) :
    status.toPublic = .queued := by
  cases status <;> first | rfl | cases h

theorem not_isTerminal_of_isWaiting {status : PtyStatus} (h : status.isWaiting = true) :
    status.isTerminal = false := by
  cases status <;> first | rfl | cases h

theorem not_isWaiting_of_isTerminal {status : PtyStatus} (h : status.isTerminal = true) :
    status.isWaiting = false := by
  cases status <;> first | rfl | cases h

/-- The columns the two tables share: all a tombstone has. -/
structure PtyRecord where
  injectionId : String
  senderFqn : String
  targetFqn : String
  opId : String
  nonceSha256 : String
  requestFingerprint : String
  confirmationTag : Option String
  senderIncarnationFingerprint : String
  version : ℤ
  payloadSha256 : String
  payloadBytes : ℤ
  sourcePlane : PtyInputSourcePlane
  selectedSessionId : Option String
  selectedBackend : Option String
  issuedAt : Timestamp
  expiresAt : Timestamp
  queuedAt : Timestamp
  actuatingAt : Option Timestamp
  terminalAt : Option Timestamp
  status : PtyStatus
  reasonCode : Option PtyInputReasonCode
  reasonDetail : Option String
  deriving DecidableEq

/-- A row of `pty_input_operations`. -/
structure OperationRow extends PtyRecord where
  enterMode : String
  requestedAgentId : Option String
  payload : Option ByteArray
  senderIdentityFingerprint : Option String
  targetIdentityFingerprint : Option String
  authoritySessionId : Option String
  authorityClientId : Option String
  authorityClientGeneration : Option String
  attempt : ℤ
  nextAttemptAt : Timestamp
  leaseOwner : Option String
  leaseUntil : Option Timestamp
  preparingAt : Option Timestamp
  hostArtifactAt : Option Timestamp
  updatedAt : Timestamp
  deriving DecidableEq

/-- The schema also fixes the variant, which the parser leaves open. -/
def isSchemaUuidV4 (value : String) : Bool :=
  isCanonicalUuidV4 value && value.toList[19]?.any (· ∈ ['8', '9', 'a', 'b'])

namespace PtyRecord

def identifierChecks (r : PtyRecord) : Bool :=
  isSchemaUuidV4 r.injectionId && isSchemaUuidV4 r.opId && r.selectedSessionId.all isSchemaUuidV4 &&
    isLowerHex64 r.nonceSha256 && isLowerHex64 r.requestFingerprint &&
    isLowerHex64 r.payloadSha256 && isLowerHex64 r.senderIncarnationFingerprint &&
    r.confirmationTag.all isLowerHex64

def valueChecks (r : PtyRecord) : Bool :=
  r.version = 1 && (1 ≤ r.payloadBytes && r.payloadBytes ≤ 65536) &&
    r.selectedSessionId.isNone = r.selectedBackend.isNone && r.selectedBackend.all isBackend &&
    r.reasonCode.isNone = r.reasonDetail.isNone

def windowChecks (r : PtyRecord) : Bool :=
  r.issuedAt ≤ r.queuedAt && r.queuedAt < r.expiresAt &&
    r.actuatingAt.all (fun at' => r.queuedAt ≤ at' && at' < r.expiresAt) &&
    r.terminalAt.all (r.queuedAt ≤ ·)

/-- A `CHECK` that comes out null passes, so an indeterminate row may lack its reason. -/
def reasonCheck (r : PtyRecord) : Bool :=
  match r.status with
  | .queued | .preparing | .retry => r.reasonCode.all (·.transient)
  | .actuating => r.reasonCode.isNone
  | .injected => r.reasonCode.all (·.afterInjection)
  | .rejected => r.reasonCode.any (·.rejects)
  | .indeterminate => r.reasonCode.all (·.afterBoundary)

/-- The constraints of `pty_input_tombstones`. -/
def tombstoneChecks (r : PtyRecord) : Bool :=
  r.identifierChecks && r.valueChecks && r.windowChecks && r.reasonCheck &&
    r.status.isTerminal && r.terminalAt.isSome &&
    (match r.sourcePlane with
      | .hostCli => r.confirmationTag.isSome && r.injectionId = r.opId
      | .containerApi => r.confirmationTag.isNone) &&
    (match r.status with
      | .rejected => r.actuatingAt.isNone && r.selectedSessionId.isNone
      | _ => r.actuatingAt.isSome && r.selectedSessionId.isSome)

end PtyRecord

namespace OperationRow

def fieldChecks (r : OperationRow) : Bool :=
  r.enterMode = "agent-submit" && (0 ≤ r.attempt && r.attempt ≤ 5) &&
    r.authoritySessionId.all isSchemaUuidV4 && r.authorityClientGeneration.all isSchemaUuidV4 &&
    r.senderIdentityFingerprint.all isLowerHex64 && r.targetIdentityFingerprint.all isLowerHex64 &&
    r.payload.all (fun payload => (payload.size : ℤ) = r.payloadBytes)

/-- Once an operation leaves the waiting states its payload and authority are gone. -/
def shapeCheck (r : OperationRow) : Bool :=
  let cleared := r.payload.isNone && r.requestedAgentId.isNone && r.authoritySessionId.isNone &&
    r.authorityClientId.isNone && r.authorityClientGeneration.isNone &&
    r.senderIdentityFingerprint.isNone && r.targetIdentityFingerprint.isNone
  let selected := r.selectedSessionId.isSome && r.selectedBackend.isSome
  let unselected := r.selectedSessionId.isNone && r.selectedBackend.isNone
  match r.status with
  | .queued | .preparing | .retry =>
    r.payload.isSome && r.authoritySessionId.isSome && r.senderIdentityFingerprint.isSome &&
      r.targetIdentityFingerprint.isSome && r.actuatingAt.isNone && r.terminalAt.isNone &&
      unselected
  | .rejected => cleared && r.actuatingAt.isNone && r.terminalAt.isSome && unselected
  | .actuating | .injected | .indeterminate => cleared && r.actuatingAt.isSome && selected

def planeCheck (r : OperationRow) : Bool :=
  match r.sourcePlane with
  | .hostCli => r.confirmationTag.isSome && r.authorityClientId.isNone &&
      r.authorityClientGeneration.isNone && r.injectionId = r.opId
  | .containerApi => r.confirmationTag.isNone &&
      if r.status.isWaiting then
        r.authorityClientId.isSome && r.authorityClientGeneration.isSome
      else r.authorityClientId.isNone && r.authorityClientGeneration.isNone

def stageChecks (r : OperationRow) : Bool :=
  r.status.isTerminal = r.terminalAt.isSome &&
    decide (r.status = .preparing) = (r.leaseOwner.isSome && r.leaseUntil.isSome) &&
    (r.status ≠ .preparing || r.preparingAt.isSome) &&
    (r.hostArtifactAt.isNone || r.terminalAt.isSome)

/-- The constraints of `pty_input_operations`. -/
def checks (r : OperationRow) : Bool :=
  r.identifierChecks && r.valueChecks && r.windowChecks && r.reasonCheck &&
    r.fieldChecks && r.shapeCheck && r.planeCheck && r.stageChecks

end OperationRow

/-- A stored row has passed its checks. -/
structure Operation where
  row : OperationRow
  checked : row.checks = true
  deriving DecidableEq

structure Tombstone where
  record : PtyRecord
  checked : record.tombstoneChecks = true
  deriving DecidableEq

structure PtyTables where
  operations : Table (fun o : Operation => o.row.injectionId)
  tombstones : Table (fun t : Tombstone => t.record.injectionId)

def PtyRecord.toResult (r : PtyRecord) : PtyInputResult where
  version := 1
  injectionId := r.injectionId
  opId := some r.opId
  sender := some r.senderFqn
  target := some r.targetFqn
  status := r.status.toPublic
  terminal := r.status.toPublic.isTerminal
  payloadBytes := some r.payloadBytes
  payloadSha256 := some r.payloadSha256
  sourcePlane := some r.sourcePlane
  selectedSessionId := r.selectedSessionId
  selectedBackend := r.selectedBackend
  issuedAt := some r.issuedAt
  expiresAt := some r.expiresAt
  queuedAt := some r.queuedAt
  actuatingAt := r.actuatingAt
  terminalAt := r.terminalAt
  reason := r.reasonCode.map PtyInputReason.fromCode

def PtyRecord.rowValid (r : PtyRecord) : Bool :=
  r.version = 1 && isCanonicalUuidV4 r.injectionId && isCanonicalUuidV4 r.opId &&
    !r.senderFqn.isEmpty && !r.targetFqn.isEmpty && (1 ≤ r.payloadBytes && r.payloadBytes ≤ 65536) &&
    isLowerHex64 r.payloadSha256 && r.terminalAt.isSome = r.status.toPublic.isTerminal &&
    r.selectedSessionId.isSome = r.selectedBackend.isSome &&
    r.selectedSessionId.all isCanonicalUuidV4 && r.selectedBackend.all isBackend &&
    r.reasonCode.isSome = r.reasonDetail.isSome &&
    r.reasonCode.all fun code => r.reasonDetail = some (safeDetail code)

def resultFromRow (r : PtyRecord) : Except MessageStoreError PtyInputResult := do
  ensure r.rowValid .sqlite
  ensure (validateEnqueuedPtyInputResult r.toResult).isOk .sqlite
  .ok r.toResult

structure IdempotencyRow where
  injectionId : String
  requestFingerprint : String
  senderIncarnationFingerprint : String

namespace PtyTables

def empty : PtyTables := ⟨.empty, .empty⟩

/-- Live operations first, then tombstones, as every `UNION ALL` of the store lists them. -/
def records (t : PtyTables) : List PtyRecord :=
  t.operations.rows.map (·.row.toPtyRecord) ++ t.tombstones.rows.map (·.record)

def lookupIdempotencyRow (t : PtyTables) (sender opId : String) : Option IdempotencyRow :=
  (t.records.find? fun r => r.senderFqn = sender ∧ r.opId = opId).map fun r =>
    ⟨r.injectionId, r.requestFingerprint, r.senderIncarnationFingerprint⟩

/-- Some operation or tombstone has the injection id, or the nonce of this sender. -/
def collision (t : PtyTables) (injectionId sender nonceSha256 : String) : Bool :=
  t.records.any fun r =>
    r.injectionId = injectionId || (r.senderFqn = sender && r.nonceSha256 = nonceSha256)

def loadPtyResult (t : PtyTables) (injectionId : String) :
    Except MessageStoreError (Option PtyInputResult) :=
  match t.operations.get injectionId with
  | some o => (resultFromRow o.row.toPtyRecord).map some
  | none =>
    match t.tombstones.get injectionId with
    | some s => (resultFromRow s.record).map some
    | none => .ok none

/-- The row, or `StoreCorrupt` where a caller finds it missing. -/
def loadExisting (t : PtyTables) (injectionId : String) :
    Except MessageStoreError PtyInputResult := do
  require (← t.loadPtyResult injectionId) .storeCorrupt

/-- All 22 columns are compared. A terminal instant is never null in a tombstone, so `=` and
`IS` agree. -/
def tombstoneMatches (t : PtyTables) (injectionId : String) : Bool :=
  match t.operations.get injectionId, t.tombstones.get injectionId with
  | some o, some s => s.record = o.row.toPtyRecord
  | _, _ => false

/-- `INSERT INTO pty_input_operations`. -/
def insertOperation (t : PtyTables) (r : OperationRow) : Except MessageStoreError PtyTables :=
  if hc : r.checks = true then
    if hf : t.operations.get r.injectionId = none then
      if t.operations.rows.any fun o => o.row.senderFqn = r.senderFqn &&
          (o.row.opId = r.opId || o.row.nonceSha256 = r.nonceSha256) then .error .sqlite
      else .ok { t with operations := t.operations.insert ⟨r, hc⟩ hf }
    else .error .sqlite
  else .error .sqlite

/-- `UPDATE` of the row with this id. -/
def writeOperation (t : PtyTables) (r : OperationRow) : Except MessageStoreError PtyTables :=
  if hc : r.checks = true then .ok { t with operations := t.operations.set ⟨r, hc⟩ }
  else .error .sqlite

/-- `INSERT INTO pty_input_tombstones`. -/
def insertTombstone (t : PtyTables) (r : PtyRecord) : Except MessageStoreError PtyTables :=
  if hc : r.tombstoneChecks = true then
    if hf : t.tombstones.get r.injectionId = none then
      if t.tombstones.rows.any fun s => s.record.senderFqn = r.senderFqn &&
          (s.record.opId = r.opId || s.record.nonceSha256 = r.nonceSha256) then .error .sqlite
      else .ok { t with tombstones := t.tombstones.insert ⟨r, hc⟩ hf }
    else .error .sqlite
  else .error .sqlite

/-- `ON CONFLICT(injection_id) DO NOTHING`; the checks come first. -/
def insertPtyTombstone (t : PtyTables) (r : PtyRecord) : Except MessageStoreError PtyTables :=
  if r.tombstoneChecks = true ∧ (t.tombstones.get r.injectionId).isSome then .ok t
  else t.insertTombstone r

end PtyTables

/-- What a row must satisfy to be shown, the order of its last two instants aside. -/
structure PtyRecord.Coherent (r : PtyRecord) : Prop where
  version : r.version = 1
  injectionId : isCanonicalUuidV4 r.injectionId = true
  opId : isCanonicalUuidV4 r.opId = true
  sender : isIdentifier r.senderFqn = true
  target : isIdentifier r.targetFqn = true
  payloadBytes : 1 ≤ r.payloadBytes ∧ r.payloadBytes ≤ 65536
  payloadSha256 : isLowerHex64 r.payloadSha256 = true
  paired : r.selectedSessionId.isSome = r.selectedBackend.isSome
  session : r.selectedSessionId.all isCanonicalUuidV4 = true
  backend : r.selectedBackend.all isBackend = true
  detail : r.reasonDetail = r.reasonCode.map safeDetail
  ttl : r.expiresAt - r.issuedAt = ptyInputTtl
  queued : r.issuedAt ≤ r.queuedAt ∧ r.queuedAt < r.expiresAt
  actuating : ∀ at' ∈ r.actuatingAt, r.queuedAt ≤ at' ∧ at' < r.expiresAt
  settled : ∀ end' ∈ r.terminalAt, r.queuedAt ≤ end'
  allowed : ptyInputReasonAllowedForStatus r.status.toPublic r.reasonCode = true
  shape : r.status.toPublic.shape r.actuatingAt.isSome r.terminalAt.isSome
    r.selectedSessionId.isSome = true
  host : r.sourcePlane = .hostCli → r.opId = r.injectionId

/-- It ended no earlier than it began to be typed. -/
def PtyRecord.InOrder (r : PtyRecord) : Prop :=
  ∀ at' ∈ r.actuatingAt, ∀ end' ∈ r.terminalAt, at' ≤ end'

theorem isTerminal_of_shape {status : PtyInputPublicStatus} {actuating terminal selected : Bool}
    (h : status.shape actuating terminal selected = true) : terminal = status.isTerminal := by
  cases status <;> cases terminal <;>
    simp_all [PtyInputPublicStatus.shape, PtyInputPublicStatus.isTerminal]

theorem ne_empty_of_isIdentifier {name : String} (h : isIdentifier name = true) :
    name.isEmpty = false := by
  unfold isIdentifier at h
  cases he : name.isEmpty with
  | false => rfl
  | true => rw [he] at h; cases h

theorem isOk_validate {r : PtyInputResult} {issued expires queued : Timestamp}
    (hi : r.issuedAt = some issued) (he : r.expiresAt = some expires)
    (hq : r.queuedAt = some queued) :
    (validateEnqueuedPtyInputResult r).isOk = true ↔ r.fieldsValid = true ∧
      r.timesValid issued expires queued = true ∧ r.reasonValid = true ∧ r.stateValid = true ∧
      (r.sourcePlane ≠ some .hostCli || r.opId = some r.injectionId) = true := by
  have hok : ∀ x : Except PtyInputReasonCode Unit, x.isOk = true ↔ x = .ok () := by
    intro x
    cases x <;> simp [Except.isOk, Except.toBool]
  rw [hok]
  simp only [validateEnqueuedPtyInputResult, hi, he, hq, require_some, ok_bind, bind_eq_ok,
    ensure_eq_ok, exists_const]

/-- The instants of a coherent row are those the reader asks for. -/
theorem timesValid_toResult {r : PtyRecord} (h : r.Coherent) (ho : r.InOrder) :
    r.toResult.timesValid r.issuedAt r.expiresAt r.queuedAt = true := by
  have hact : r.actuatingAt.all (fun at' => r.queuedAt ≤ at' && at' < r.expiresAt) = true := by
    simpa only [Option.all_eq_true, Bool.and_eq_true, decide_eq_true_eq, Option.mem_def]
      using h.actuating
  have hend : r.terminalAt.all (fun end' => r.queuedAt ≤ end' && r.actuatingAt.all (· ≤ end'))
      = true := by
    simp only [Option.all_eq_true, Bool.and_eq_true, decide_eq_true_eq]
    intro end' hend'
    exact ⟨h.settled end' hend', fun at' hat' => ho at' hat' end' hend'⟩
  simp only [PtyInputResult.timesValid, PtyRecord.toResult, h.ttl, h.queued.1, h.queued.2, hact,
    hend, decide_true, Bool.and_self]

theorem reasonValid_toResult {r : PtyRecord}
    (h : ptyInputReasonAllowedForStatus r.status.toPublic r.reasonCode = true) :
    r.toResult.reasonValid = true := by
  have hcode : (r.reasonCode.map PtyInputReason.fromCode).map (·.code) = r.reasonCode := by
    cases r.reasonCode <;> rfl
  have hdetail : (r.reasonCode.map PtyInputReason.fromCode).all
      (fun reason => reason.detail = safeDetail reason.code) = true := by
    cases r.reasonCode <;> simp [PtyInputReason.fromCode]
  simp only [PtyInputResult.reasonValid, PtyRecord.toResult, hcode, hdetail, h, Bool.and_self]

theorem rowValid_of_coherent {r : PtyRecord} (h : r.Coherent) : r.rowValid = true := by
  have hterm := isTerminal_of_shape h.shape
  have hdetail : r.reasonCode.isSome = r.reasonDetail.isSome := by rw [h.detail]; simp
  have hcode : r.reasonCode.all (fun code => r.reasonDetail = some (safeDetail code)) = true := by
    rw [h.detail]
    cases r.reasonCode <;> simp
  simp only [PtyRecord.rowValid, h.version, h.injectionId, h.opId, h.payloadSha256, h.paired,
    h.session, h.backend, ne_empty_of_isIdentifier h.sender, ne_empty_of_isIdentifier h.target,
    h.payloadBytes.1, h.payloadBytes.2, hterm, hcode, hdetail, decide_true, Bool.and_self,
    Bool.not_false]

theorem fieldsValid_of_coherent {r : PtyRecord} (h : r.Coherent) :
    r.toResult.fieldsValid = true := by
  simp [PtyInputResult.fieldsValid, PtyRecord.toResult, h.injectionId, h.opId, h.sender, h.target,
    h.payloadBytes, h.payloadSha256, h.paired, h.session, h.backend, ptyInputVersion]

theorem resultFromRow_of_coherent {r : PtyRecord} (h : r.Coherent) (ho : r.InOrder) :
    resultFromRow r = .ok r.toResult := by
  have hhost : (r.toResult.sourcePlane ≠ some .hostCli ||
      r.toResult.opId = some r.toResult.injectionId) = true := by
    have := h.host
    cases hp : r.sourcePlane <;> simp_all [PtyRecord.toResult]
  have hvalid : (validateEnqueuedPtyInputResult r.toResult).isOk = true := by
    rw [isOk_validate rfl rfl rfl]
    exact ⟨fieldsValid_of_coherent h, timesValid_toResult h ho, reasonValid_toResult h.allowed,
      h.shape, hhost⟩
  rw [resultFromRow, rowValid_of_coherent h, hvalid]
  rfl

theorem coherent_of_resultFromRow {r : PtyRecord} {x : PtyInputResult}
    (h : resultFromRow r = .ok x) : r.Coherent ∧ r.InOrder ∧ x = r.toResult := by
  simp only [resultFromRow, bind_eq_ok, ensure_eq_ok, exists_const] at h
  obtain ⟨hrow, hvalid, hx⟩ := h
  rw [isOk_validate rfl rfl rfl] at hvalid
  obtain ⟨hfields, htimes, hreason, hstate, hhost⟩ := hvalid
  simp only [PtyRecord.rowValid, Bool.and_eq_true, decide_eq_true_eq] at hrow
  obtain ⟨⟨⟨⟨⟨⟨⟨⟨⟨⟨⟨⟨hversion, hid⟩, hop⟩, -⟩, -⟩, hbytes⟩, hsha⟩, -⟩, hpaired⟩, hsession⟩,
    hbackend⟩, hsome⟩, hcode⟩ := hrow
  simp only [PtyInputResult.timesValid, PtyRecord.toResult, Bool.and_eq_true, decide_eq_true_eq,
    Option.all_eq_true] at htimes
  obtain ⟨⟨⟨⟨httl, hiq⟩, hqe⟩, hact⟩, hend⟩ := htimes
  simp only [PtyInputResult.fieldsValid, PtyRecord.toResult, Bool.and_eq_true,
    Option.any_some] at hfields
  obtain ⟨⟨⟨⟨⟨⟨⟨⟨⟨-, hsender⟩, htarget⟩, -⟩, -⟩, -⟩, -⟩, -⟩, -⟩, -⟩ := hfields
  have hdetail : r.reasonDetail = r.reasonCode.map safeDetail := by
    cases hc : r.reasonCode with
    | none => simpa [hc] using hsome.symm
    | some code => simpa [hc] using hcode
  have hcodes : (r.reasonCode.map PtyInputReason.fromCode).map (·.code) = r.reasonCode := by
    cases r.reasonCode <;> rfl
  have hallowed : ptyInputReasonAllowedForStatus r.status.toPublic r.reasonCode = true := by
    simp only [PtyInputResult.reasonValid, PtyRecord.toResult, hcodes, Bool.and_eq_true] at hreason
    exact hreason.2
  refine ⟨⟨hversion, hid, hop, hsender, htarget, hbytes, hsha, hpaired, hsession, hbackend, hdetail, httl,
    ⟨hiq, hqe⟩, hact, fun end' he => (hend end' he).1, hallowed, hstate, ?_⟩, ?_, ?_⟩
  · intro hp
    simpa [PtyRecord.toResult, hp] using hhost
  · exact fun at' ha end' he => (hend end' he).2 at' ha
  · cases hx
    rfl
end AgentsCommander.PtyInput
