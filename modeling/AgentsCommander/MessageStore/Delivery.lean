import Mathlib.Data.List.Sort
import AgentsCommander.Foundation.Machine
import AgentsCommander.Foundation.Table
import AgentsCommander.MessageStore.Basic

/-! The `messages` queue: enqueue, lease and the three settle transactions. Each is one
serializable transaction. Readings are in nanoseconds. -/
namespace AgentsCommander.MessageStore
open Foundation

inductive MessageStatus where
  | queued
  | delivering
  | retry
  | delivered
  | poisoned
  deriving DecidableEq, Repr

/-- `delivered` and `poisoned` end a message. -/
def MessageStatus.terminal : MessageStatus → Bool
  | .delivered | .poisoned => true
  | .queued | .delivering | .retry => false

structure EnqueueRequest where
  senderFqn : String
  targetFqn : String
  opId : String
  contentType : String
  body : String
  sourcePlane : String
  sourceRef : Option String

structure EnqueueResult where
  messageId : String
  senderFqn : String
  targetFqn : String
  opId : String
  status : MessageStatus
  duplicate : Bool

structure LeasedMessage where
  messageId : String
  senderFqn : String
  targetFqn : String
  opId : String
  contentType : String
  body : String
  attempt : ℤ

/-- A row of `messages`. -/
structure Message where
  messageId : String
  senderFqn : String
  targetFqn : String
  opId : String
  contentType : String
  body : String
  bodySha256 : String
  bodyBytes : ℕ
  sourcePlane : String
  sourceRef : Option String
  status : MessageStatus
  attempt : ℤ
  nextAttemptAt : Timestamp
  leaseOwner : Option String
  leaseUntil : Option Timestamp
  createdAt : Timestamp
  deliveredAt : Option Timestamp
  lastError : Option String
  deriving DecidableEq

abbrev Messages := Table Message.messageId

def Message.toEnqueueResult (m : Message) (duplicate : Bool) : EnqueueResult :=
  ⟨m.messageId, m.senderFqn, m.targetFqn, m.opId, m.status, duplicate⟩

def Message.toLeasedMessage (m : Message) : LeasedMessage :=
  ⟨m.messageId, m.senderFqn, m.targetFqn, m.opId, m.contentType, m.body, m.attempt⟩

/-- The row the `INSERT` of `enqueue` writes. -/
def EnqueueRequest.toMessage (req : EnqueueRequest) (sha256Hex : ByteArray → String)
    (messageId : String) (now : Timestamp) : Message where
  messageId := messageId
  senderFqn := req.senderFqn
  targetFqn := req.targetFqn
  opId := req.opId
  contentType := req.contentType
  body := req.body
  bodySha256 := sha256Hex req.body.toUTF8
  bodyBytes := req.body.utf8ByteSize
  sourcePlane := req.sourcePlane
  sourceRef := req.sourceRef
  status := .queued
  attempt := 0
  nextAttemptAt := now
  leaseOwner := none
  leaseUntil := none
  createdAt := now
  deliveredAt := none
  lastError := none

namespace Messages

def findOp (t : Messages) (sender op : String) : Option Message :=
  t.rows.find? fun m => m.senderFqn = sender ∧ m.opId = op

/-- `INSERT OR IGNORE` under the primary key and `UNIQUE(sender_fqn, op_id)`. -/
def insertOrIgnore (t : Messages) (m : Message) : Messages × Bool :=
  if h : t.get m.messageId = none then
    if (findOp t m.senderFqn m.opId).isNone then (t.insert m h, true) else (t, false)
  else (t, false)

def enqueue (sha256Hex : ByteArray → String) (t : Messages) (req : EnqueueRequest)
    (messageId : String) (now : Timestamp) :
    Except MessageStoreError (Messages × EnqueueResult) :=
  if inlineBodyMaxBytes < req.body.utf8ByteSize then .error .bodyTooLarge
  else
    let inserted := insertOrIgnore t (req.toMessage sha256Hex messageId now)
    match findOp inserted.1 req.senderFqn req.opId with
    | none => .error .sqlite
    | some m => .ok (inserted.1, m.toEnqueueResult (!inserted.2))

end Messages

/-- What `lease_due` selects, and checks again in its `UPDATE`. -/
def Message.due (now : Timestamp) (m : Message) : Bool :=
  ((m.status = .queued ∨ m.status = .retry) ∧ m.nextAttemptAt ≤ now) ∨
    (m.status = .delivering ∧ m.leaseUntil.any (· ≤ now))

def Message.lease (leaseOwner : String) (leaseUntil : Timestamp) (m : Message) : Message :=
  { m with
    status := .delivering
    leaseOwner := some leaseOwner
    leaseUntil := some leaseUntil
    lastError := none }

@[simp] theorem Message.messageId_lease (leaseOwner : String) (leaseUntil : Timestamp)
    (m : Message) : (m.lease leaseOwner leaseUntil).messageId = m.messageId := rfl

/-- `chrono::Duration::from_std(..).unwrap_or_default()`, in nanoseconds. -/
def durationFromStd (d : ℕ) : ℤ := if (d : ℤ) ≤ i64Max * 10 ^ 6 then d else 0

namespace Messages

/-- One turn of the loop of `lease_due`; `closing` is `response_target_is_closing`. -/
def leaseOne (now leaseUntil : Timestamp) (leaseOwner : String) (closing : String → Bool)
    (acc : Messages × List LeasedMessage) (candidate : String × String) :
    Messages × List LeasedMessage :=
  if closing candidate.2 then acc
  else match acc.1.get candidate.1 with
    | none => acc
    | some m =>
      if m.due now then
        (acc.1.update candidate.1 (Message.lease leaseOwner leaseUntil)
            (Message.messageId_lease leaseOwner leaseUntil),
          acc.2 ++ [(m.lease leaseOwner leaseUntil).toLeasedMessage])
      else acc

def dueCandidates (t : Messages) (now : Timestamp) (limit : ℕ) : List (String × String) :=
  (((t.rows.filter (·.due now)).insertionSort (·.createdAt ≤ ·.createdAt)).take limit).map
    fun m => (m.messageId, m.targetFqn)

def leaseDue (t : Messages) (now : Timestamp) (limit leaseFor : ℕ) (leaseOwner : String)
    (closing : String → Bool) : Messages × List LeasedMessage :=
  (dueCandidates t now limit).foldl
    (leaseOne now (now + durationFromStd leaseFor) leaseOwner closing) (t, [])

end Messages

def Message.deliver (now : Timestamp) (m : Message) : Message :=
  { m with
    status := .delivered
    deliveredAt := some now
    leaseOwner := none
    leaseUntil := none
    lastError := none }

@[simp] theorem Message.messageId_deliver (now : Timestamp) (m : Message) :
    (m.deliver now).messageId = m.messageId := rfl

def Message.failedStatus (maxAttempts : ℤ) (m : Message) : MessageStatus :=
  if maxAttempts ≤ m.attempt + 1 then .poisoned else .retry

def Message.fail (error : String) (now : Timestamp) (maxAttempts : ℤ) (m : Message) : Message :=
  { m with
    status := m.failedStatus maxAttempts
    attempt := m.attempt + 1
    nextAttemptAt := now + retryBackoffSeconds (m.attempt + 1) * 10 ^ 9
    leaseOwner := none
    leaseUntil := none
    lastError := some error }

@[simp] theorem Message.messageId_fail (error : String) (now : Timestamp) (maxAttempts : ℤ)
    (m : Message) : (m.fail error now maxAttempts).messageId = m.messageId := rfl

def Message.release (reason : String) (now : Timestamp) (m : Message) : Message :=
  { m with
    status := .queued
    nextAttemptAt := now
    leaseOwner := none
    leaseUntil := none
    lastError := some reason }

@[simp] theorem Message.messageId_release (reason : String) (now : Timestamp) (m : Message) :
    (m.release reason now).messageId = m.messageId := rfl

namespace Messages

/-- Settling names the row by its id alone. On a missing row the audit insert breaks its
foreign key (or the attempt cannot be read), and nothing is written. -/
def settleWith (t : Messages) (messageId : String) (f : Message → Message)
    (hf : ∀ m, (f m).messageId = m.messageId) : Except MessageStoreError Messages :=
  match t.get messageId with
  | none => .error .sqlite
  | some _ => .ok (t.update messageId f hf)

def markDelivered (t : Messages) (messageId : String) (now : Timestamp) :
    Except MessageStoreError Messages :=
  settleWith t messageId (Message.deliver now) (Message.messageId_deliver now)

/-- The source also returns the status it wrote; its caller only logs it. -/
def markDeliveryFailed (t : Messages) (messageId error : String) (now : Timestamp)
    (maxAttempts : ℤ) : Except MessageStoreError Messages :=
  settleWith t messageId (Message.fail error now maxAttempts)
    (Message.messageId_fail error now maxAttempts)

def releaseDeliveryLease (t : Messages) (messageId reason : String) (now : Timestamp) :
    Except MessageStoreError Messages :=
  settleWith t messageId (Message.release reason now) (Message.messageId_release reason now)

end Messages

/-- The three ways a worker settles a message it was handed. -/
inductive Settlement where
  | delivered
  | failed (error : String) (maxAttempts : ℤ)
  | released (reason : String)

def Messages.settle (t : Messages) (messageId : String) (now : Timestamp) :
    Settlement → Except MessageStoreError Messages
  | .delivered => markDelivered t messageId now
  | .failed error maxAttempts => markDeliveryFailed t messageId error now maxAttempts
  | .released reason => releaseDeliveryLease t messageId reason now

end AgentsCommander.MessageStore
