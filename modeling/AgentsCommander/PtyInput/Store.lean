import AgentsCommander.PtyInput.Actuation

/-! The transactions on the PTY input tables as one machine. Operations made of several of them may
interleave; each transaction is serializable. The operations of the store that run several
transactions: recovery, expiry, compaction and the whole of an enqueue. Each reads a page of
candidates and then goes through them one by one; a candidate whose operation lock is taken is
passed over. -/
namespace AgentsCommander.PtyInput
open Foundation
open MessageStore (Timestamp MessageStoreError)

inductive Txn where
  | enqueuePtyInput (req : PtyInputEnqueueRequest) (wallNow : Timestamp)
  | recordHostPtyInputRejection (req : HostPtyInputRejectionRequest) (now : Timestamp)
      (unlocked : Bool)
  | claimPtyInput (sourcePlane : PtyInputSourcePlane) (exactInjectionId : Option String)
      (leaseOwner : String) (now : Timestamp)
  | renewPtyInputLease (injectionId leaseOwner : String) (now : Timestamp)
  | beginPtyActuating (injectionId leaseOwner selectedSessionId selectedBackend : String)
      (now : Timestamp) (commit : CommitOutcome)
  | retryPtyInput (injectionId leaseOwner : String) (code : PtyInputReasonCode) (now : Timestamp)
  | terminalizePtyInput (injectionId : String) (status : PtyInputPublicStatus)
      (reason : Option PtyInputReasonCode) (now : Timestamp)
  | retryStartupPreparation (injectionId : String) (now : Timestamp)
  | retryRuntimePtyPreparation (injectionId : String) (now : Timestamp)
  | compactBefore (injectionId : String) (cutoff : Timestamp)
  | compactMaintenance (injectionId : String) (normalCutoff unclaimedCutoff : Timestamp)
  | markHostArtifact (injectionId : String) (now : Timestamp)

/-- The transactions recovery, expiry and compaction are made of. -/
def Txn.maintains : Txn → Bool
  | .terminalizePtyInput .. | .retryStartupPreparation .. | .retryRuntimePtyPreparation ..
  | .compactBefore .. | .compactMaintenance .. => true
  | _ => false

/-- What a transaction answers. `payload` names the operation whose payload it hands out. -/
inductive Reply where
  | enqueued (result : PtyInputEnqueueResult)
  | result (result : PtyInputResult)
  | claimed (operation : Option ClaimedPtyInputOperation)
  | renewed (changed : Bool)
  | payload (injectionId : String) (payload : ByteArray)
  | compacted (deleted : Bool)
  | done

section
variable (sha256Hex : ByteArray → String)

/-- `enqueue_pty_input` from its validation on, without the expiry pages. An instant ahead of
the wall clock queues the row at that instant. -/
def PtyTables.admit (t : PtyTables) (req : PtyInputEnqueueRequest) (wallNow : Timestamp) :
    Except MessageStoreError (PtyTables × PtyInputEnqueueResult) := do
  let (issuedAt, expiresAt) ← validatePtyEnqueueRequest req
  t.enqueuePtyInput sha256Hex req issuedAt expiresAt (max wallNow issuedAt)

/-- A transaction with nothing to answer but that it is done. -/
def PtyTables.commit (t : PtyTables) (x : Except MessageStoreError PtyTables) :
    PtyTables × Except MessageStoreError Reply := atomically t (x.map (·, .done))

/-- A transaction whose answer is tagged by the kind of reply. -/
def PtyTables.reply {α : Type} (t : PtyTables) (tag : α → Reply)
    (x : Except MessageStoreError (PtyTables × α)) : PtyTables × Except MessageStoreError Reply :=
  atomically t (x.map fun p => (p.1, tag p.2))

def PtyTables.step (t : PtyTables) : Txn → PtyTables × Except MessageStoreError Reply
  | .enqueuePtyInput req wallNow => t.reply .enqueued ( t.admit sha256Hex req wallNow)
  | .recordHostPtyInputRejection req now unlocked =>
    t.reply .result (t.recordHostPtyInputRejection req now unlocked)
  | .claimPtyInput sourcePlane exactInjectionId leaseOwner now =>
    t.reply .claimed (t.claimPtyInput sourcePlane exactInjectionId leaseOwner now)
  | .renewPtyInputLease injectionId leaseOwner now =>
    t.reply .renewed (t.renewPtyInputLease injectionId leaseOwner now)
  | .beginPtyActuating injectionId leaseOwner selectedSessionId selectedBackend now commit =>
    let begun := t.beginPtyActuating sha256Hex injectionId leaseOwner selectedSessionId
      selectedBackend now commit
    (begun.1, begun.2.map (.payload injectionId))
  | .retryPtyInput injectionId leaseOwner code now =>
    t.commit (t.retryPtyInput injectionId leaseOwner code now)
  | .terminalizePtyInput injectionId status reason now =>
    let ended := t.terminalizePtyInput injectionId status reason now
    (ended.1, ended.2.map .result)
  | .retryStartupPreparation injectionId now => t.commit (t.retryStartupPreparation injectionId now)
  | .retryRuntimePtyPreparation injectionId now =>
    t.commit (t.retryRuntimePtyPreparation injectionId now)
  | .compactBefore injectionId cutoff => t.reply .compacted (t.compactBefore injectionId cutoff)
  | .compactMaintenance injectionId normalCutoff unclaimedCutoff =>
    t.reply .compacted (t.compactMaintenance injectionId normalCutoff unclaimedCutoff)
  | .markHostArtifact injectionId now => t.commit (t.markHostArtifact injectionId now)

def transactions : Machine PtyTables Txn (Except MessageStoreError Reply) :=
  ⟨PtyTables.step sha256Hex⟩

end

/-- A place in a scan ordered by an instant and the injection id. -/
abbrev ScanKey := Timestamp ×ₗ String

namespace OperationRow

def updatedKey (r : OperationRow) : ScanKey := toLex (r.updatedAt, r.injectionId)

def expiresKey (r : OperationRow) : ScanKey := toLex (r.expiresAt, r.injectionId)

/-- The rows scanned in this order all have their `terminal_at`. -/
def terminalKey (r : OperationRow) : ScanKey := toLex (r.terminalAt.getD 0, r.injectionId)

def startupCandidate (now : Timestamp) (r : OperationRow) : Bool :=
  r.status = .preparing || r.status = .actuating ||
    ((r.status = .queued || r.status = .retry) && r.expiresAt ≤ now)

def startupTurn (now : Timestamp) (unlocked : String → Bool) (r : OperationRow) : Option Txn :=
  if !unlocked r.injectionId then none
  else if r.status = .actuating then
    some (.terminalizePtyInput r.injectionId .indeterminate (some .daemonRestartAfterActuation) now)
  else if r.expiresAt ≤ now then
    some (.terminalizePtyInput r.injectionId .rejected (some .expired) now)
  else if r.status = .preparing && 5 ≤ r.attempt then
    some (.terminalizePtyInput r.injectionId .rejected (some .leaseLost) now)
  else if r.status = .preparing then some (.retryStartupPreparation r.injectionId now)
  else none

def runtimeCandidate (now : Timestamp) (r : OperationRow) : Bool :=
  (r.status = .actuating && r.actuatingAt.any (· < now - 15 * 1000)) ||
    (r.status.isWaiting && r.expiresAt ≤ now) ||
    (r.status = .preparing && r.leaseUntil.any (· ≤ now))

def runtimeTurn (active : String → Bool) (now : Timestamp) (unlocked : String → Bool)
    (r : OperationRow) : Option Txn :=
  if active r.injectionId || !unlocked r.injectionId then none
  else if r.expiresAt ≤ now && r.status ≠ .actuating then
    some (.terminalizePtyInput r.injectionId .rejected (some .expired) now)
  else if r.status = .actuating then
    some (.terminalizePtyInput r.injectionId .indeterminate (some .runtimeActuationOrphan) now)
  else if r.status = .preparing && r.leaseUntil.any (· ≤ now) then
    if 5 ≤ r.attempt then some (.terminalizePtyInput r.injectionId .rejected (some .leaseLost) now)
    else some (.retryRuntimePtyPreparation r.injectionId now)
  else none

def expired (now : Timestamp) (r : OperationRow) : Bool :=
  r.status.isWaiting && r.expiresAt ≤ now

def expiryTurn (now : Timestamp) (unlocked : String → Bool) (r : OperationRow) : Option Txn :=
  if unlocked r.injectionId then
    some (.terminalizePtyInput r.injectionId .rejected (some .expired) now)
  else none

end OperationRow

/-- Where each scan goes on; a restart forgets it. -/
structure PtyInputMaintenanceCursors where
  runtimeRecovery : Option ScanKey
  admissionExpiry : Option ScanKey
  compactBefore : Option ScanKey
  compactMaintenance : Option ScanKey

def PtyInputMaintenanceCursors.default : PtyInputMaintenanceCursors := ⟨none, none, none, none⟩

structure PtyStore where
  tables : PtyTables
  cursors : PtyInputMaintenanceCursors

def PtyStore.empty : PtyStore := ⟨.empty, .default⟩

inductive PtyEvent where
  /-- One transaction: an operation that is no more, or a part of one that others overtake. -/
  | transaction (txn : Txn)
  | enqueuePtyInput (req : PtyInputEnqueueRequest) (wallNow : Timestamp)
      (unlocked : ℕ → String → Bool)
  | recoverPtyInputStartup (now : Timestamp) (unlocked : String → Bool)
  | recoverPtyInputRuntime (active : String → Bool) (now : Timestamp) (unlocked : String → Bool)
  | expirePtyInputForAdmissionPage (now : Timestamp) (unlocked : String → Bool)
  | compactPtyTerminalBefore (cutoff : Timestamp) (limit : ℕ) (unlocked : String → Bool)
  | compactPtyTerminalMaintenance (now : Timestamp) (limit : ℕ) (unlocked : String → Bool)

inductive StoreReply where
  | transaction (reply : Reply)
  | count (n : ℕ)
  | recovered

/-- The count of a compaction pass leaves out the rows it found ineligible. -/
def Reply.compactedCount : Reply → ℕ
  | .compacted deleted => if deleted then 1 else 0
  | _ => 1

section
variable (sha256Hex : ByteArray → String)

namespace PtyTables

def startupPage (t : PtyTables) (now : Timestamp) (cursor : Option ScanKey) : List OperationRow :=
  Keyset.page OperationRow.updatedKey (t.select (·.startupCandidate now)) cursor 64

/-- The loop of `recover_pty_input_startup`, for at most so many pages. -/
def startupPages (now : Timestamp) (unlocked : String → Bool) :
    ℕ → PtyTables → Option ScanKey → PtyTables × Except MessageStoreError Unit
  | 0, t, _ => (t, .ok ())
  | pages + 1, t, cursor =>
    let page := t.startupPage now cursor
    let swept := sweep (transactions sha256Hex) (OperationRow.startupTurn now unlocked)
      (fun _ => 1) t page
    match swept.2 with
    | .error e => (swept.1, .error e)
    | .ok _ =>
      if page.length < 64 then (swept.1, .ok ())
      else startupPages now unlocked pages swept.1 (Keyset.cursorAfter OperationRow.updatedKey page)

end PtyTables

namespace PtyStore

/-- Every full page moves 64 candidates behind the cursor, so the rows bound the pages. -/
def recoverPtyInputStartup (s : PtyStore) (now : Timestamp) (unlocked : String → Bool) :
    PtyStore × Except MessageStoreError Unit :=
  let swept := s.tables.startupPages sha256Hex now unlocked (s.tables.operations.rows.length + 1)
    none
  (⟨swept.1, .default⟩, swept.2)

def recoverPtyInputRuntime (s : PtyStore) (active : String → Bool) (now : Timestamp)
    (unlocked : String → Bool) : PtyStore × Except MessageStoreError ℕ :=
  let page := Keyset.wrappedPage OperationRow.updatedKey
    (s.tables.select (·.runtimeCandidate now)) s.cursors.runtimeRecovery 64
  let swept := sweep (transactions sha256Hex) (OperationRow.runtimeTurn active now unlocked)
    (fun _ => 1) s.tables page
  (⟨swept.1, { s.cursors with
    runtimeRecovery := Keyset.cursorAfter OperationRow.updatedKey page }⟩, swept.2)

/-- Also answers how many candidates the page had. -/
def expirePtyInputForAdmissionPage (s : PtyStore) (now : Timestamp) (unlocked : String → Bool) :
    PtyStore × Except MessageStoreError (ℕ × ℕ) :=
  let page := Keyset.wrappedPage OperationRow.expiresKey (s.tables.select (·.expired now))
    s.cursors.admissionExpiry 64
  let swept := sweep (transactions sha256Hex) (OperationRow.expiryTurn now unlocked)
    (fun _ => 1) s.tables page
  (⟨swept.1, { s.cursors with
    admissionExpiry := Keyset.cursorAfter OperationRow.expiresKey page }⟩,
    swept.2.map (·, page.length))

/-- The expiry pages of an enqueue. The page that is still to come numbers its locks. -/
def expirePages (now : Timestamp) (unlocked : ℕ → String → Bool) :
    ℕ → PtyStore → PtyStore × Except MessageStoreError Unit
  | 0, s => (s, .ok ())
  | pages + 1, s =>
    let expiry := s.expirePtyInputForAdmissionPage sha256Hex now (unlocked pages)
    match expiry.2 with
    | .error e => (expiry.1, .error e)
    | .ok (_, scanned) =>
      if scanned < 64 then (expiry.1, .ok ()) else expirePages now unlocked pages expiry.1

def transact (s : PtyStore) (txn : Txn) : PtyStore × Except MessageStoreError Reply :=
  (⟨(transactions sha256Hex).next s.tables txn, s.cursors⟩,
    (transactions sha256Hex).answer s.tables txn)

def enqueuePtyInput (s : PtyStore) (req : PtyInputEnqueueRequest) (wallNow : Timestamp)
    (unlocked : ℕ → String → Bool) : PtyStore × Except MessageStoreError Reply :=
  match validatePtyEnqueueRequest req with
  | .error e => (s, .error e)
  | .ok _ =>
    let expiry := s.expirePages sha256Hex wallNow unlocked 8
    match expiry.2 with
    | .error e => (expiry.1, .error e)
    | .ok () => expiry.1.transact sha256Hex (.enqueuePtyInput req wallNow)

def compactPtyTerminalBefore (s : PtyStore) (cutoff : Timestamp) (limit : ℕ)
    (unlocked : String → Bool) : PtyStore × Except MessageStoreError ℕ :=
  let page := Keyset.wrappedPage OperationRow.terminalKey (s.tables.select (·.endedBefore cutoff))
    s.cursors.compactBefore (min limit 64)
  let swept := sweep (transactions sha256Hex)
    (fun r => if unlocked r.injectionId then some (Txn.compactBefore r.injectionId cutoff) else none)
    Reply.compactedCount s.tables page
  (⟨swept.1, { s.cursors with
    compactBefore := Keyset.cursorAfter OperationRow.terminalKey page }⟩, swept.2)

def compactPtyTerminalMaintenance (s : PtyStore) (now : Timestamp) (limit : ℕ)
    (unlocked : String → Bool) : PtyStore × Except MessageStoreError ℕ :=
  let normalCutoff := now - 7 * 24 * 60 * 60 * 1000
  let unclaimedCutoff := now - 30 * 24 * 60 * 60 * 1000
  let page := Keyset.wrappedPage OperationRow.terminalKey
    (s.tables.select (·.compactable normalCutoff unclaimedCutoff))
    s.cursors.compactMaintenance (min limit 64)
  let swept := sweep (transactions sha256Hex)
    (fun r => if unlocked r.injectionId then
      some (Txn.compactMaintenance r.injectionId normalCutoff unclaimedCutoff) else none)
    Reply.compactedCount s.tables page
  (⟨swept.1, { s.cursors with
    compactMaintenance := Keyset.cursorAfter OperationRow.terminalKey page }⟩, swept.2)

def step (s : PtyStore) : PtyEvent → PtyStore × Except MessageStoreError StoreReply
  | .transaction txn =>
    let r := s.transact sha256Hex txn
    (r.1, r.2.map .transaction)
  | .enqueuePtyInput req wallNow unlocked =>
    let r := s.enqueuePtyInput sha256Hex req wallNow unlocked
    (r.1, r.2.map .transaction)
  | .recoverPtyInputStartup now unlocked =>
    let r := s.recoverPtyInputStartup sha256Hex now unlocked
    (r.1, r.2.map fun _ => .recovered)
  | .recoverPtyInputRuntime active now unlocked =>
    let r := s.recoverPtyInputRuntime sha256Hex active now unlocked
    (r.1, r.2.map .count)
  | .expirePtyInputForAdmissionPage now unlocked =>
    let r := s.expirePtyInputForAdmissionPage sha256Hex now unlocked
    (r.1, r.2.map fun n => .count n.1)
  | .compactPtyTerminalBefore cutoff limit unlocked =>
    let r := s.compactPtyTerminalBefore sha256Hex cutoff limit unlocked
    (r.1, r.2.map .count)
  | .compactPtyTerminalMaintenance now limit unlocked =>
    let r := s.compactPtyTerminalMaintenance sha256Hex now limit unlocked
    (r.1, r.2.map .count)

end PtyStore

def ptyStore : Machine PtyStore PtyEvent (Except MessageStoreError StoreReply) :=
  ⟨PtyStore.step sha256Hex⟩

end
end AgentsCommander.PtyInput
