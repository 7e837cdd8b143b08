import AgentsCommander.Foundation.Transaction
import AgentsCommander.MessageStore.Basic

/-! The public contract of PTY input: sources, statuses, reasons, the canonical forms of its
identifiers and texts, and the result a caller is shown. Instants are in milliseconds and
stand for their canonical texts. -/
namespace AgentsCommander.PtyInput
open Foundation
open MessageStore (Timestamp)

inductive PtyInputSourcePlane where
  | hostCli
  | containerApi
  deriving DecidableEq, Repr

inductive PtyInputPublicStatus where
  | queued
  | actuating
  | injected
  | rejected
  | indeterminate
  deriving DecidableEq, Repr

def PtyInputPublicStatus.isTerminal : PtyInputPublicStatus → Bool
  | .injected | .rejected | .indeterminate => true
  | .queued | .actuating => false

inductive PtyInputReasonCode where
  | invalidEnvelope
  | mixedPayload
  | unsupportedVersion
  | invalidEnterMode
  | invalidId
  | invalidNonce
  | invalidTimestamp
  | expired
  | invalidTarget
  | invalidText
  | payloadTooLarge
  | idempotencyConflict
  | capacityExceeded
  | sessionTokenRequired
  | invalidSessionToken
  | ambiguousSessionToken
  | senderSessionNotLive
  | senderBackendNotLocal
  | senderIdentityInvalid
  | senderNotCoordinator
  | rootIdentityInvalid
  | targetNotMember
  | targetIsCoordinator
  | targetOutOfScope
  | unsafePath
  | apiScopeRequired
  | apiClientUnbound
  | apiClientStale
  | apiBindingMismatch
  | authorityChanged
  | busy
  | resizeUnsettled
  | untrackedReadiness
  | unsupportedSession
  | nonpersistentLiveSession
  | inconsistentSession
  | unsupportedProfile
  | readinessTimeout
  | storeCorrupt
  | restoreInProgress
  | purgeInProgress
  | sessionRace
  | leaseLost
  | spawnFailedSafe
  | storeTransient
  | menuGuardBlocked
  | finalRevalidationFailed
  | textWriteFailed
  | requiredEnterFailed
  | daemonRestartAfterActuation
  | runtimeActuationOrphan
  | terminalStoreFailed
  | redundantEnterFailed
  | boundaryMetadataFailed
  | artifactUnclaimed
  deriving DecidableEq, Repr

/-- The fixed public text of a reason. -/
def safeDetail : PtyInputReasonCode → String
  | .invalidEnvelope => "The PTY input envelope is invalid."
  | .mixedPayload => "PTY input cannot be mixed with another payload type."
  | .unsupportedVersion => "The PTY input contract version is unsupported."
  | .invalidEnterMode => "The PTY input Enter mode is invalid."
  | .invalidId => "A canonical UUID version 4 operation ID is required."
  | .invalidNonce => "A distinct canonical UUID version 4 nonce is required."
  | .invalidTimestamp => "The PTY input timestamp is invalid."
  | .expired => "The PTY input operation expired before actuation."
  | .invalidTarget => "An exact canonical room target is required."
  | .invalidText => "The PTY input text contains a forbidden scalar or is empty."
  | .payloadTooLarge => "The PTY input text exceeds 65,536 UTF-8 bytes."
  | .idempotencyConflict => "The operation ID was already used with different semantics."
  | .capacityExceeded => "The privileged PTY input queue is at capacity."
  | .sessionTokenRequired => "A live session token is required for PTY input."
  | .invalidSessionToken => "The PTY input session token is invalid or stale."
  | .ambiguousSessionToken => "The PTY input session token is not unique."
  | .senderSessionNotLive => "The sender session is not live."
  | .senderBackendNotLocal => "The filesystem PTY input plane requires a local sender."
  | .senderIdentityInvalid => "The sender replica identity could not be verified."
  | .senderNotCoordinator => "The sender is not the verified room orchestrator."
  | .rootIdentityInvalid => "The live Root Agent identity could not be verified."
  | .targetNotMember => "The target is not a verified member of the sender room."
  | .targetIsCoordinator => "An orchestrator cannot target an orchestrator on this route."
  | .targetOutOfScope => "The target is outside the sender's PTY input authority."
  | .unsafePath => "A privileged path failed confinement or link safety checks."
  | .apiScopeRequired => "The API token is not scoped for PTY input."
  | .apiClientUnbound => "A live automatically bound container credential is required."
  | .apiClientStale => "The bound API credential is revoked, expired, or stale."
  | .apiBindingMismatch => "The API credential does not match the live container route."
  | .authorityChanged => "Sender or target authority changed before actuation."
  | .busy => "The target coding agent is busy."
  | .resizeUnsettled => "The target terminal resize state is not settled."
  | .untrackedReadiness => "The target readiness state is incomplete."
  | .unsupportedSession => "The target session is not a trusted coding-agent session."
  | .nonpersistentLiveSession => "A live nonpersistent target session prevents actuation."
  | .inconsistentSession => "The target session lifecycle is inconsistent."
  | .unsupportedProfile => "No trusted supported coding-agent profile is available."
  | .readinessTimeout => "The spawned coding agent did not become ready in time."
  | .storeCorrupt => "The privileged operation store failed an integrity check."
  | .restoreInProgress => "Session restore temporarily blocks target preparation."
  | .purgeInProgress => "Room purge temporarily blocks target preparation."
  | .sessionRace => "The target session changed during preparation."
  | .leaseLost => "The preparation lease was lost before actuation."
  | .spawnFailedSafe => "Target spawn failed without leaving an ambiguous session."
  | .storeTransient => "A transient operation-store failure prevented actuation."
  | .menuGuardBlocked => "The target session is blocked by an interactive menu."
  | .finalRevalidationFailed =>
    "Final authority or readiness validation failed after the no-replay boundary."
  | .textWriteFailed => "The exact text write could not be durably proven."
  | .requiredEnterFailed => "The required Enter write could not be durably proven."
  | .daemonRestartAfterActuation => "The daemon restarted after the no-replay boundary."
  | .runtimeActuationOrphan => "The actuation owner disappeared after the no-replay boundary."
  | .terminalStoreFailed => "The terminal result could not be durably recorded."
  | .redundantEnterFailed => "The redundant second Enter failed after successful submission."
  | .boundaryMetadataFailed => "Submission succeeded but boundary metadata could not be completed."
  | .artifactUnclaimed => "A host terminal artifact was not confirmed before compaction."

structure PtyInputReason where
  code : PtyInputReasonCode
  detail : String
  deriving DecidableEq, Repr

def PtyInputReason.fromCode (code : PtyInputReasonCode) : PtyInputReason := ⟨code, safeDetail code⟩

def ptyInputVersion : ℤ := 1

def ptyInputTtl : ℤ := 10 * 60 * 1000

def ptyInputMaxBytes : ℕ := 65536

/-- What a submission is told about itself. -/
structure PtyInputResult where
  version : ℤ
  injectionId : String
  opId : Option String
  sender : Option String
  target : Option String
  status : PtyInputPublicStatus
  terminal : Bool
  payloadBytes : Option ℤ
  payloadSha256 : Option String
  sourcePlane : Option PtyInputSourcePlane
  selectedSessionId : Option String
  selectedBackend : Option String
  issuedAt : Option Timestamp
  expiresAt : Option Timestamp
  queuedAt : Option Timestamp
  actuatingAt : Option Timestamp
  terminalAt : Option Timestamp
  reason : Option PtyInputReason
  deriving DecidableEq

/-- The reasons that leave an operation waiting for another attempt. -/
def PtyInputReasonCode.transient : PtyInputReasonCode → Bool
  | .restoreInProgress | .purgeInProgress | .sessionRace | .leaseLost | .spawnFailedSafe
  | .storeTransient | .menuGuardBlocked => true
  | _ => false

/-- The reasons of an injection that went through all the same. -/
def PtyInputReasonCode.afterInjection : PtyInputReasonCode → Bool
  | .redundantEnterFailed | .boundaryMetadataFailed => true
  | _ => false

/-- The reasons of a failure past the no-replay boundary. -/
def PtyInputReasonCode.afterBoundary : PtyInputReasonCode → Bool
  | .finalRevalidationFailed | .textWriteFailed | .requiredEnterFailed
  | .daemonRestartAfterActuation | .runtimeActuationOrphan | .terminalStoreFailed => true
  | _ => false

/-- The reasons a rejection may give. -/
def PtyInputReasonCode.rejects (code : PtyInputReasonCode) : Bool :=
  !code.afterBoundary && !code.afterInjection && code ≠ .artifactUnclaimed

def ptyInputReasonAllowedForStatus :
    PtyInputPublicStatus → Option PtyInputReasonCode → Bool
  | .queued, reason => reason.all (·.transient)
  | .actuating, reason => reason.isNone
  | .injected, reason => reason.all (·.afterInjection)
  | .rejected, reason => reason.any (·.rejects)
  | .indeterminate, reason => reason.any (·.afterBoundary)

def isLowerHexDigit (c : Char) : Bool := ('0' ≤ c && c ≤ '9') || ('a' ≤ c && c ≤ 'f')

/-- `is_lower_hex_digest` of the contract and `is_lower_hex_64` of the store. -/
def isLowerHex64 (value : String) : Bool :=
  value.toList.length = 64 && value.toList.all isLowerHexDigit

/-- `parse_canonical_uuid_v4` succeeds: lower-case hyphenated form, version nibble 4. -/
def isCanonicalUuidV4 (raw : String) : Bool :=
  raw.toList.length = 36 && raw.toList[14]? = some '4' &&
    raw.toList.zipIdx.all fun c =>
      if c.2 ∈ [8, 13, 18, 23] then c.1 = '-' else isLowerHexDigit c.1

/-- `char::is_control`. -/
def isControl (c : Char) : Bool := c.toNat < 0x20 || (0x7f ≤ c.toNat && c.toNat ≤ 0x9f)

/-- A name that may stand for a sender or a target. -/
def isIdentifier (name : String) : Bool := !name.isEmpty && !name.toList.any isControl

def isBackend (backend : String) : Bool := backend ∈ ["localProcess", "containerTransport"]

def isForbiddenPtyScalar (c : Char) : Bool :=
  c.toNat ≤ 0x08 || c.toNat = 0x0b || c.toNat = 0x0c || c.toNat = 0x0d ||
    (0x0e ≤ c.toNat && c.toNat ≤ 0x1f) || (0x7f ≤ c.toNat && c.toNat ≤ 0x9f) ||
    c.toNat = 0x061c || c.toNat = 0x200e || c.toNat = 0x200f || c.toNat = 0x2028 ||
    c.toNat = 0x2029 || (0x202a ≤ c.toNat && c.toNat ≤ 0x202e) ||
    (0x2066 ≤ c.toNat && c.toNat ≤ 0x2069)

inductive PtyInputTextErrorKind where
  | empty
  | tooLarge
  | forbiddenScalar
  deriving DecidableEq, Repr

structure PtyInputTextError where
  kind : PtyInputTextErrorKind
  byteOffset : ℕ
  scalarOffset : ℕ
  codePoint : Option ℕ
  deriving DecidableEq, Repr

/-- `char_indices`: every scalar with the byte it starts at. -/
def charIndices : ℕ → List Char → List (ℕ × Char)
  | _, [] => []
  | offset, c :: cs => (offset, c) :: charIndices (offset + c.utf8Size) cs

def validatePtyInputText (text : String) : Except PtyInputTextError Unit :=
  let scalars := charIndices 0 text.toList
  if text.isEmpty then .error ⟨.empty, 0, 0, none⟩
  else if ptyInputMaxBytes < text.utf8ByteSize then
    .error ⟨.tooLarge, ptyInputMaxBytes,
      (scalars.takeWhile fun c => c.1 < ptyInputMaxBytes).length, none⟩
  else match scalars.zipIdx.find? fun c => isForbiddenPtyScalar c.1.2 with
    | some ((byteOffset, c), scalarOffset) =>
      .error ⟨.forbiddenScalar, byteOffset, scalarOffset, some c.toNat⟩
    | none => .ok ()

/-- Which of the optional instants and the session go with a status. -/
def PtyInputPublicStatus.shape (status : PtyInputPublicStatus)
    (actuating terminal selected : Bool) : Bool :=
  match status with
  | .queued => !actuating && !terminal && !selected
  | .actuating => actuating && !terminal && selected
  | .injected | .indeterminate => actuating && terminal && selected
  | .rejected => !actuating && terminal && !selected

namespace PtyInputResult

def fieldsValid (r : PtyInputResult) : Bool :=
  r.version = ptyInputVersion && isCanonicalUuidV4 r.injectionId && r.opId.any isCanonicalUuidV4 &&
    r.sender.any isIdentifier && r.target.any isIdentifier &&
    r.payloadBytes.any (fun n => 1 ≤ n && n ≤ 65536) && r.payloadSha256.any isLowerHex64 &&
    r.sourcePlane.isSome && r.terminal = r.status.isTerminal &&
    r.selectedSessionId.isSome = r.selectedBackend.isSome &&
    r.selectedSessionId.all isCanonicalUuidV4 && r.selectedBackend.all isBackend

def timesValid (r : PtyInputResult) (issued expires queued : Timestamp) : Bool :=
  expires - issued = ptyInputTtl && issued ≤ queued && queued < expires &&
    r.actuatingAt.all (fun at' => queued ≤ at' && at' < expires) &&
    r.terminalAt.all fun end' => queued ≤ end' && r.actuatingAt.all (· ≤ end')

def reasonValid (r : PtyInputResult) : Bool :=
  r.reason.all (fun reason => reason.detail = safeDetail reason.code) &&
    ptyInputReasonAllowedForStatus r.status (r.reason.map (·.code))

def stateValid (r : PtyInputResult) : Bool :=
  r.status.shape r.actuatingAt.isSome r.terminalAt.isSome r.selectedSessionId.isSome

end PtyInputResult

def validateEnqueuedPtyInputResult (r : PtyInputResult) : Except PtyInputReasonCode Unit := do
  ensure r.fieldsValid .storeCorrupt
  let issued ← require r.issuedAt .storeCorrupt
  let expires ← require r.expiresAt .storeCorrupt
  let queued ← require r.queuedAt .storeCorrupt
  ensure (r.timesValid issued expires queued) .storeCorrupt
  ensure r.reasonValid .storeCorrupt
  ensure r.stateValid .storeCorrupt
  ensure (r.sourcePlane ≠ some .hostCli || r.opId = some r.injectionId) .storeCorrupt

end AgentsCommander.PtyInput
