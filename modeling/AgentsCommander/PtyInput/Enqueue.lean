import Mathlib.Data.Prod.Lex
import Mathlib.Data.String.Basic
import AgentsCommander.Foundation.Keyset
import AgentsCommander.PtyInput.Rows

/-! Admission of PTY input, host rejections, and the preparation lease. -/
namespace AgentsCommander.PtyInput
open Foundation
open MessageStore (Timestamp MessageStoreError i64Max)

def ptyInputMaxNonterminalPerSender : ℕ := 16

def ptyInputMaxNonterminalGlobal : ℕ := 512

def ptyInputMaxNonterminalBytes : ℤ := 16 * 1024 * 1024

/-- An instant is missing where its text is not canonical. -/
structure PtyInputEnqueueRequest where
  injectionId : String
  senderFqn : String
  targetFqn : String
  opId : String
  nonceSha256 : String
  requestFingerprint : String
  confirmationTag : Option String
  requestedAgentId : Option String
  payload : ByteArray
  sourcePlane : PtyInputSourcePlane
  senderIncarnationFingerprint : String
  senderIdentityFingerprint : String
  targetIdentityFingerprint : String
  authoritySessionId : String
  authorityClientId : Option String
  authorityClientGeneration : Option String
  issuedAt : Option Timestamp
  expiresAt : Option Timestamp

structure HostPtyInputRejectionRequest where
  injectionId : String
  senderFqn : String
  targetFqn : String
  opId : String
  nonceSha256 : String
  requestFingerprint : String
  confirmationTag : String
  senderIncarnationFingerprint : String
  payloadSha256 : String
  payloadBytes : ℕ
  issuedAt : Option Timestamp
  expiresAt : Option Timestamp
  reason : PtyInputReasonCode

structure PtyInputEnqueueResult where
  result : PtyInputResult
  duplicate : Bool

structure ClaimedPtyInputOperation where
  injectionId : String
  senderFqn : String
  targetFqn : String
  opId : String
  sourcePlane : PtyInputSourcePlane
  leaseOwner : String
  attempt : ℤ
  authoritySessionId : String
  authorityClientId : Option String
  authorityClientGeneration : Option String
  senderIdentityFingerprint : String
  targetIdentityFingerprint : String
  requestedAgentId : Option String
  expiresAt : Timestamp

/-- The instants parsed on the way: `issued_at` and `expires_at`. -/
def validatePtyEnqueueRequest (req : PtyInputEnqueueRequest) :
    Except MessageStoreError (Timestamp × Timestamp) := do
  ensure (isCanonicalUuidV4 req.injectionId) .storeCorrupt
  ensure (isCanonicalUuidV4 req.opId) .storeCorrupt
  let issuedAt ← require req.issuedAt .storeCorrupt
  let expiresAt ← require req.expiresAt .storeCorrupt
  ensure (expiresAt - issuedAt = ptyInputTtl) .storeCorrupt
  let text ← require (String.fromUTF8? req.payload) .storeCorrupt
  ensure (validatePtyInputText text).isOk .storeCorrupt
  ensure (isLowerHex64 req.nonceSha256 && isLowerHex64 req.requestFingerprint &&
    isLowerHex64 req.senderIncarnationFingerprint && isLowerHex64 req.senderIdentityFingerprint &&
    isLowerHex64 req.targetIdentityFingerprint && isCanonicalUuidV4 req.authoritySessionId)
    .storeCorrupt
  ensure (match req.sourcePlane with
    | .hostCli => req.confirmationTag.any isLowerHex64 && req.authorityClientId.isNone &&
        req.authorityClientGeneration.isNone && req.injectionId = req.opId
    | .containerApi => req.confirmationTag.isNone && req.authorityClientId.any (!·.isEmpty) &&
        req.authorityClientGeneration.any isCanonicalUuidV4) .storeCorrupt
  .ok (issuedAt, expiresAt)

def validateHostRejectionRequest (req : HostPtyInputRejectionRequest) :
    Except MessageStoreError (Timestamp × Timestamp) := do
  ensure (isCanonicalUuidV4 req.injectionId) .storeCorrupt
  ensure (isCanonicalUuidV4 req.opId) .storeCorrupt
  let issued ← require req.issuedAt .storeCorrupt
  let expires ← require req.expiresAt .storeCorrupt
  ensure (req.injectionId = req.opId && expires - issued = ptyInputTtl &&
    isIdentifier req.senderFqn && isIdentifier req.targetFqn && isLowerHex64 req.nonceSha256 &&
    isLowerHex64 req.requestFingerprint && isLowerHex64 req.confirmationTag &&
    isLowerHex64 req.senderIncarnationFingerprint && isLowerHex64 req.payloadSha256 &&
    (1 ≤ req.payloadBytes && req.payloadBytes ≤ ptyInputMaxBytes) &&
    ptyInputReasonAllowedForStatus .rejected (some req.reason)) .storeCorrupt
  .ok (issued, expires)

/-- The row the `INSERT` of `enqueue_pty_input` writes. -/
def PtyInputEnqueueRequest.toRow (req : PtyInputEnqueueRequest) (sha256Hex : ByteArray → String)
    (issuedAt expiresAt queuedAt : Timestamp) : OperationRow where
  injectionId := req.injectionId
  senderFqn := req.senderFqn
  targetFqn := req.targetFqn
  opId := req.opId
  nonceSha256 := req.nonceSha256
  requestFingerprint := req.requestFingerprint
  confirmationTag := req.confirmationTag
  senderIncarnationFingerprint := req.senderIncarnationFingerprint
  version := 1
  payloadSha256 := sha256Hex req.payload
  payloadBytes := req.payload.size
  sourcePlane := req.sourcePlane
  selectedSessionId := none
  selectedBackend := none
  issuedAt := issuedAt
  expiresAt := expiresAt
  queuedAt := queuedAt
  actuatingAt := none
  terminalAt := none
  status := .queued
  reasonCode := none
  reasonDetail := none
  enterMode := "agent-submit"
  requestedAgentId := req.requestedAgentId
  payload := some req.payload
  senderIdentityFingerprint := some req.senderIdentityFingerprint
  targetIdentityFingerprint := some req.targetIdentityFingerprint
  authoritySessionId := some req.authoritySessionId
  authorityClientId := req.authorityClientId
  authorityClientGeneration := req.authorityClientGeneration
  attempt := 0
  nextAttemptAt := queuedAt
  leaseOwner := none
  leaseUntil := none
  preparingAt := none
  hostArtifactAt := none
  updatedAt := queuedAt

/-- The tombstone a host rejection leaves without ever having been an operation. -/
def HostPtyInputRejectionRequest.toRecord (req : HostPtyInputRejectionRequest)
    (issued expires terminalAt : Timestamp) : PtyRecord where
  injectionId := req.injectionId
  senderFqn := req.senderFqn
  targetFqn := req.targetFqn
  opId := req.opId
  nonceSha256 := req.nonceSha256
  requestFingerprint := req.requestFingerprint
  confirmationTag := some req.confirmationTag
  senderIncarnationFingerprint := req.senderIncarnationFingerprint
  version := 1
  payloadSha256 := req.payloadSha256
  payloadBytes := req.payloadBytes
  sourcePlane := .hostCli
  selectedSessionId := none
  selectedBackend := none
  issuedAt := issued
  expiresAt := expires
  queuedAt := issued
  actuatingAt := none
  terminalAt := some terminalAt
  status := .rejected
  reasonCode := some req.reason
  reasonDetail := some (safeDetail req.reason)

namespace PtyTables

/-- The rows admission counts: every status but the three terminal ones. -/
def nonterminal (t : PtyTables) : List OperationRow :=
  (t.operations.rows.map (·.row)).filter (!·.status.isTerminal)

def checkPtyEnqueueAdmission (t : PtyTables) (req : PtyInputEnqueueRequest) (payloadBytes : ℤ) :
    Except MessageStoreError Unit := do
  let senderCount := t.nonterminal.countP (·.senderFqn = req.senderFqn)
  let aggregateBytes := (t.nonterminal.map (·.payloadBytes)).sum
  ensure (senderCount < ptyInputMaxNonterminalPerSender &&
    t.nonterminal.length < ptyInputMaxNonterminalGlobal &&
    min i64Max (aggregateBytes + payloadBytes) ≤ ptyInputMaxNonterminalBytes) .capacityExceeded
  ensure (!t.collision req.injectionId req.senderFqn req.nonceSha256) .idempotencyConflict

/-- The last transaction of `enqueue_pty_input`, on a validated request. -/
def enqueuePtyInput (sha256Hex : ByteArray → String) (t : PtyTables)
    (req : PtyInputEnqueueRequest) (issuedAt expiresAt queuedAt : Timestamp) :
    Except MessageStoreError (PtyTables × PtyInputEnqueueResult) :=
  match t.lookupIdempotencyRow req.senderFqn req.opId with
  | some existing => do
    ensure (existing.requestFingerprint = req.requestFingerprint &&
      existing.senderIncarnationFingerprint = req.senderIncarnationFingerprint)
      .idempotencyConflict
    let result ← t.loadExisting existing.injectionId
    .ok (t, ⟨result, true⟩)
  | none => do
    t.checkPtyEnqueueAdmission req req.payload.size
    let t ← t.insertOperation (req.toRow sha256Hex issuedAt expiresAt queuedAt)
    let result ← t.loadExisting req.injectionId
    .ok (t, ⟨result, false⟩)

/-- `unlocked` is whether the operation lock could be taken. -/
def recordHostPtyInputRejection (t : PtyTables) (req : HostPtyInputRejectionRequest)
    (now : Timestamp) (unlocked : Bool) :
    Except MessageStoreError (PtyTables × PtyInputResult) := do
  let (issued, expires) ← validateHostRejectionRequest req
  ensure unlocked .invalidTransition
  match t.lookupIdempotencyRow req.senderFqn req.opId with
  | some existing =>
    ensure (existing.injectionId = req.injectionId &&
      existing.requestFingerprint = req.requestFingerprint &&
      existing.senderIncarnationFingerprint = req.senderIncarnationFingerprint)
      .idempotencyConflict
    let result ← t.loadExisting existing.injectionId
    ensure (result.status = .rejected && result.reason.map (·.code) = some req.reason)
      .idempotencyConflict
    .ok (t, result)
  | none =>
    ensure (!t.collision req.injectionId req.senderFqn req.nonceSha256) .idempotencyConflict
    let t ← t.insertTombstone (req.toRecord issued expires (max now issued))
    let result ← t.loadExisting req.injectionId
    .ok (t, result)

end PtyTables

namespace OperationRow

/-- What `claim_pty_input` selects, and checks again in its `UPDATE`. -/
def claimable (r : OperationRow) (sourcePlane : PtyInputSourcePlane) (now : Timestamp) : Bool :=
  r.sourcePlane = sourcePlane && r.attempt < 5 && now < r.expiresAt &&
    (((r.status = .queued || r.status = .retry) && r.nextAttemptAt ≤ now) ||
      (r.status = .preparing && r.leaseUntil.any (· ≤ now)))

def claimKey (r : OperationRow) : Timestamp ×ₗ (Timestamp ×ₗ String) :=
  toLex (r.nextAttemptAt, toLex (r.queuedAt, r.injectionId))

def claim (r : OperationRow) (leaseOwner : String) (now : Timestamp) : OperationRow :=
  { r with
    status := .preparing
    attempt := r.attempt + 1
    leaseOwner := some leaseOwner
    leaseUntil := some (min (now + 120 * 1000) r.expiresAt)
    preparingAt := some now
    updatedAt := now }

def renew (r : OperationRow) (now : Timestamp) : OperationRow :=
  { r with leaseUntil := some (min (now + 120 * 1000) r.expiresAt), updatedAt := now }

/-- Fails where a column the claim needs is null. -/
def claimedFromRow (r : OperationRow) : Option ClaimedPtyInputOperation := do
  let leaseOwner ← r.leaseOwner
  let authoritySessionId ← r.authoritySessionId
  let senderIdentityFingerprint ← r.senderIdentityFingerprint
  let targetIdentityFingerprint ← r.targetIdentityFingerprint
  some {
    injectionId := r.injectionId
    senderFqn := r.senderFqn
    targetFqn := r.targetFqn
    opId := r.opId
    sourcePlane := r.sourcePlane
    leaseOwner := leaseOwner
    attempt := r.attempt
    authoritySessionId := authoritySessionId
    authorityClientId := r.authorityClientId
    authorityClientGeneration := r.authorityClientGeneration
    senderIdentityFingerprint := senderIdentityFingerprint
    targetIdentityFingerprint := targetIdentityFingerprint
    requestedAgentId := r.requestedAgentId
    expiresAt := r.expiresAt }

end OperationRow

namespace PtyTables

/-- The rows of `pty_input_operations` that satisfy a `WHERE` clause. -/
def select (t : PtyTables) (p : OperationRow → Bool) : List OperationRow :=
  (t.operations.rows.map (·.row)).filter p

def claimCandidate (t : PtyTables) (sourcePlane : PtyInputSourcePlane)
    (exactInjectionId : Option String) (now : Timestamp) : Option OperationRow :=
  match exactInjectionId with
  | some injectionId =>
    ((t.operations.get injectionId).map (·.row)).filter (·.claimable sourcePlane now)
  | none => (Keyset.page OperationRow.claimKey (t.select (·.claimable sourcePlane now)) none 1).head?

def claimPtyInput (t : PtyTables) (sourcePlane : PtyInputSourcePlane)
    (exactInjectionId : Option String) (leaseOwner : String) (now : Timestamp) :
    Except MessageStoreError (PtyTables × Option ClaimedPtyInputOperation) :=
  match t.claimCandidate sourcePlane exactInjectionId now with
  | none => .ok (t, none)
  | some r => do
    let t ← t.writeOperation (r.claim leaseOwner now)
    let claimed ← require (r.claim leaseOwner now).claimedFromRow .sqlite
    .ok (t, some claimed)

def renewPtyInputLease (t : PtyTables) (injectionId leaseOwner : String) (now : Timestamp) :
    Except MessageStoreError (PtyTables × Bool) :=
  match t.operations.get injectionId with
  | none => .ok (t, false)
  | some o =>
    if o.row.status = .preparing ∧ o.row.leaseOwner = some leaseOwner ∧
        o.row.leaseUntil.any (now < ·) ∧ now < o.row.expiresAt then do
      let t ← t.writeOperation (o.row.renew now)
      .ok (t, true)
    else .ok (t, false)

end PtyTables
end AgentsCommander.PtyInput
