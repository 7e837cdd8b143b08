import AgentsCommander.PtyInput.Enqueue

/-! The no-replay boundary: beginning to type, retrying before it, ending after it, and
dropping what a tombstone remembers. -/
namespace AgentsCommander.PtyInput
open Foundation
open MessageStore (Timestamp MessageStoreError retryBackoffSeconds)

/-- How the commit of `begin_pty_actuating` turns out: reported done, failed, or failed as far
as the caller can tell. -/
inductive CommitOutcome where
  | done
  | lost
  | ambiguous
  deriving DecidableEq, Repr

/-- A rejection ends an operation that waits, the other two one that is being typed. -/
def PtyStatus.mayEndAs (current status : PtyStatus) : Bool :=
  if status = .rejected then current.isWaiting else current = .actuating

namespace OperationRow

/-- What an operation keeps only while it waits. -/
def clear (r : OperationRow) : OperationRow :=
  { r with
    payload := none
    requestedAgentId := none
    senderIdentityFingerprint := none
    targetIdentityFingerprint := none
    authoritySessionId := none
    authorityClientId := none
    authorityClientGeneration := none
    leaseOwner := none
    leaseUntil := none }

def actuate (r : OperationRow) (selectedSessionId selectedBackend : String) (now : Timestamp) :
    OperationRow :=
  { r.clear with
    status := .actuating
    actuatingAt := some now
    updatedAt := now
    selectedSessionId := some selectedSessionId
    selectedBackend := some selectedBackend
    reasonCode := none
    reasonDetail := none }

def retryAt (r : OperationRow) (code : PtyInputReasonCode) (next now : Timestamp) : OperationRow :=
  { r with
    status := .retry
    nextAttemptAt := next
    leaseOwner := none
    leaseUntil := none
    updatedAt := now
    reasonCode := some code
    reasonDetail := some (safeDetail code) }

def terminalize (r : OperationRow) (status : PtyStatus) (reason : Option PtyInputReasonCode)
    (now : Timestamp) : OperationRow :=
  { r.clear with
    status := status
    terminalAt := some now
    updatedAt := now
    reasonCode := reason
    reasonDetail := reason.map safeDetail }

def validateActuatingRow (sha256Hex : ByteArray → String) (r : OperationRow) (payload : ByteArray)
    (selectedSessionId selectedBackend : String) : Bool :=
  r.version = 1 && r.enterMode = "agent-submit" &&
    (match r.sourcePlane with
      | .hostCli => r.authorityClientId.isNone && r.authorityClientGeneration.isNone
      | .containerApi => r.authorityClientId.any (!·.isEmpty) &&
          r.authorityClientGeneration.any isCanonicalUuidV4) &&
    (payload.size : ℤ) = r.payloadBytes && r.payloadSha256 = sha256Hex payload &&
    isLowerHex64 r.payloadSha256 && isLowerHex64 r.nonceSha256 &&
    isLowerHex64 r.requestFingerprint && isLowerHex64 r.senderIncarnationFingerprint &&
    r.senderIdentityFingerprint.any isLowerHex64 && r.targetIdentityFingerprint.any isLowerHex64 &&
    r.authoritySessionId.any isCanonicalUuidV4 && r.expiresAt - r.issuedAt = ptyInputTtl &&
    isCanonicalUuidV4 selectedSessionId && isBackend selectedBackend

end OperationRow

namespace PtyTables

/-- What `begin_pty_actuating` has written when it comes to commit. -/
def writeActuating (sha256Hex : ByteArray → String) (t : PtyTables)
    (injectionId leaseOwner selectedSessionId selectedBackend : String) (now : Timestamp) :
    Except MessageStoreError (PtyTables × ByteArray) := do
  let o ← require ((t.operations.get injectionId).filter fun o =>
    o.row.status = .preparing && o.row.leaseOwner = some leaseOwner &&
      o.row.leaseUntil.any (now < ·) && now < o.row.expiresAt) .invalidTransition
  let payload ← require o.row.payload .sqlite
  ensure (o.row.validateActuatingRow sha256Hex payload selectedSessionId selectedBackend)
    .storeCorrupt
  let text ← require (String.fromUTF8? payload) .storeCorrupt
  ensure (validatePtyInputText text).isOk .storeCorrupt
  let t ← t.writeOperation (o.row.actuate selectedSessionId selectedBackend now)
  .ok (t, payload)

/-- What is reported of a failed commit, by the status it left. -/
def commitError (t : PtyTables) (injectionId : String) : MessageStoreError :=
  match t.operations.get injectionId with
  | none => .operationNotFound
  | some o =>
    match o.row.status with
    | .actuating => .actuationCommitAmbiguous
    | .preparing => .sqlite
    | _ => .storeCorrupt

def beginPtyActuating (sha256Hex : ByteArray → String) (t : PtyTables)
    (injectionId leaseOwner selectedSessionId selectedBackend : String) (now : Timestamp)
    (commit : CommitOutcome) : PtyTables × Except MessageStoreError ByteArray :=
  match t.writeActuating sha256Hex injectionId leaseOwner selectedSessionId selectedBackend now with
  | .error e => (t, .error e)
  | .ok (t', payload) =>
    match commit with
    | .done => (t', .ok payload)
    | .lost => (t, .error (t.commitError injectionId))
    | .ambiguous => (t', .error (t'.commitError injectionId))

/-- A terminal row is left alone; the same end reported again is no error. -/
def terminalizeInTransaction (t : PtyTables) (injectionId : String) (status : PtyStatus)
    (reason : Option PtyInputReasonCode) (now : Timestamp) :
    Except MessageStoreError PtyTables := do
  let o ← require (t.operations.get injectionId) .sqlite
  ensure status.isTerminal .invalidTransition
  ensure (ptyInputReasonAllowedForStatus status.toPublic reason) .invalidTransition
  if o.row.status.isTerminal then
    ensure (o.row.status = status && o.row.reasonCode = reason &&
      o.row.reasonDetail = reason.map safeDetail) .invalidTransition
    ensure (t.tombstoneMatches injectionId) .storeCorrupt
    .ok t
  else
    ensure (o.row.status.mayEndAs status) .invalidTransition
    let t ← t.writeOperation (o.row.terminalize status reason now)
    let t ← t.insertPtyTombstone (o.row.terminalize status reason now).toPtyRecord
    ensure (t.tombstoneMatches injectionId) .storeCorrupt
    .ok t

def retryPtyInput (t : PtyTables) (injectionId leaseOwner : String) (code : PtyInputReasonCode)
    (now : Timestamp) : Except MessageStoreError PtyTables := do
  let o ← require ((t.operations.get injectionId).filter fun o =>
    o.row.status = .preparing && o.row.leaseOwner = some leaseOwner) .sqlite
  if 5 ≤ o.row.attempt then t.terminalizeInTransaction injectionId .rejected (some code) now
  else
    let delay := min (retryBackoffSeconds o.row.attempt) 40
    t.writeOperation (o.row.retryAt code (now + delay * 1000) now)

/-- The result is read after the commit: failing to read it undoes nothing. -/
def terminalizePtyInput (t : PtyTables) (injectionId : String) (status : PtyInputPublicStatus)
    (reason : Option PtyInputReasonCode) (now : Timestamp) :
    PtyTables × Except MessageStoreError PtyInputResult :=
  let terminal : Except MessageStoreError PtyStatus := match status with
    | .injected => .ok .injected
    | .rejected => .ok .rejected
    | .indeterminate => .ok .indeterminate
    | .queued | .actuating => .error .invalidTransition
  match terminal.bind fun status => t.terminalizeInTransaction injectionId status reason now with
  | .error e => (t, .error e)
  | .ok t' => (t', t'.loadExisting injectionId)

/-- The transaction startup recovery runs on a lease that outlived its process. -/
def retryStartupPreparation (t : PtyTables) (injectionId : String) (now : Timestamp) :
    Except MessageStoreError PtyTables := do
  let o ← require ((t.operations.get injectionId).filter fun o =>
    o.row.status = .preparing && o.row.attempt < 5) .invalidTransition
  t.writeOperation (o.row.retryAt .leaseLost now now)

def retryRuntimePtyPreparation (t : PtyTables) (injectionId : String) (now : Timestamp) :
    Except MessageStoreError PtyTables := do
  let o ← require ((t.operations.get injectionId).filter fun o =>
    o.row.status = .preparing && o.row.leaseUntil.any (· ≤ now)) .invalidTransition
  t.writeOperation (o.row.retryAt .leaseLost now now)

def markHostArtifact (t : PtyTables) (injectionId : String) (now : Timestamp) :
    Except MessageStoreError PtyTables :=
  match t.operations.get injectionId with
  | some o =>
    if o.row.sourcePlane = .hostCli ∧ o.row.status.isTerminal then
      t.writeOperation { o.row with hostArtifactAt := some now }
    else if (t.tombstones.get injectionId).any (·.record.sourcePlane = .hostCli) then .ok t
    else .error .invalidTransition
  | none =>
    if (t.tombstones.get injectionId).any (·.record.sourcePlane = .hostCli) then .ok t
    else .error .invalidTransition

end PtyTables

namespace OperationRow

def endedBefore (r : OperationRow) (cutoff : Timestamp) : Bool :=
  r.status.isTerminal && r.terminalAt.any (· < cutoff)

/-- A host operation waits longer while its artifact is unclaimed. -/
def compactable (r : OperationRow) (normalCutoff unclaimedCutoff : Timestamp) : Bool :=
  match r.sourcePlane with
  | .hostCli =>
    r.endedBefore (if r.hostArtifactAt.isSome then normalCutoff else unclaimedCutoff)
  | .containerApi => r.endedBefore normalCutoff

end OperationRow

namespace PtyTables

def deleteOperation (t : PtyTables) (injectionId : String) : PtyTables :=
  { t with operations := t.operations.delete injectionId }

/-- One row of `compact_pty_terminal_before`, and whether it was deleted. -/
def compactBefore (t : PtyTables) (injectionId : String) (cutoff : Timestamp) :
    Except MessageStoreError (PtyTables × Bool) :=
  if (t.operations.get injectionId).any (·.row.endedBefore cutoff) then do
    ensure (t.tombstoneMatches injectionId) .storeCorrupt
    .ok (t.deleteOperation injectionId, true)
  else .ok (t, false)

/-- One row of `compact_pty_terminal_maintenance`. -/
def compactMaintenance (t : PtyTables) (injectionId : String)
    (normalCutoff unclaimedCutoff : Timestamp) :
    Except MessageStoreError (PtyTables × Bool) := do
  ensure (t.tombstoneMatches injectionId) .storeCorrupt
  ensure ((t.operations.get injectionId).any (·.row.compactable normalCutoff unclaimedCutoff))
    .invalidTransition
  .ok (t.deleteOperation injectionId, true)

end PtyTables
end AgentsCommander.PtyInput
