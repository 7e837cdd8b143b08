import AgentsCommander.PtyInput.Progress
import AgentsCommander.PtyInput.Startup

/-! Runtime recoveries among the other transactions of the store: each has read its page of
candidates and then goes through them one by one. A row that waits has attempts left as long as no
recovery puts back a row it has not seen on its last attempt. -/
namespace AgentsCommander.PtyInput
open Foundation
open MessageStore (Timestamp MessageStoreError)

/-- A runtime recovery under way: the rows it has not come to, as it read them. -/
structure RecoveryPass where
  active : String → Bool
  now : Timestamp
  candidates : List OperationRow
  recovered : ℕ

structure Recoveries where
  tables : PtyTables
  passes : ℕ → Option RecoveryPass

inductive RecoveryEvent where
  | transaction (txn : Txn)
  /-- A recovery reads its page beyond the place it takes for its cursor. -/
  | readPage (pass : ℕ) (active : String → Bool) (now : Timestamp) (cursor : Option ScanKey)
  /-- It comes to its next candidate, or returns. -/
  | candidate (pass : ℕ) (unlocked : Bool)
  /-- No recovery outlives its process. -/
  | restart

inductive RecoveryReply where
  | transaction (answer : Except MessageStoreError Reply)
  | goesOn
  | returned (recovered : ℕ)

/-- The transaction that only a runtime recovery runs. -/
def Txn.retriesRuntime : Txn → Bool
  | .retryRuntimePtyPreparation .. => true
  | _ => false

namespace Recoveries

def empty : Recoveries := ⟨.empty, fun _ => none⟩

def setPass (s : Recoveries) (pass : ℕ) (p : Option RecoveryPass) : Recoveries :=
  { s with passes := Function.update s.passes pass p }

def page (s : Recoveries) (now : Timestamp) (cursor : Option ScanKey) : List OperationRow :=
  Keyset.page OperationRow.updatedKey (s.tables.select (·.runtimeCandidate now)) cursor 64

section
variable (sha256Hex : ByteArray → String)

/-- An error ends the recovery; what it has recovered stays recovered. -/
def recoverCandidate (s : Recoveries) (pass : ℕ) (p : RecoveryPass) (rest : List OperationRow)
    (txn : Txn) : Recoveries × Except MessageStoreError RecoveryReply :=
  let t := (transactions sha256Hex).next s.tables txn
  match (transactions sha256Hex).answer s.tables txn with
  | .error e => ({ s with tables := t }.setPass pass none, .error e)
  | .ok _ =>
    ({ s with tables := t }.setPass pass
      (some { p with candidates := rest, recovered := p.recovered + 1 }), .ok .goesOn)

def step (s : Recoveries) : RecoveryEvent → Recoveries × Except MessageStoreError RecoveryReply
  | .transaction txn =>
    if txn.retriesRuntime then (s, .ok .goesOn)
    else ({ s with tables := (transactions sha256Hex).next s.tables txn },
      .ok (.transaction ((transactions sha256Hex).answer s.tables txn)))
  | .readPage pass active now cursor =>
    if (s.passes pass).isSome then (s, .ok .goesOn)
    else (s.setPass pass (some ⟨active, now, s.page now cursor, 0⟩), .ok .goesOn)
  | .candidate pass unlocked =>
    match s.passes pass with
    | none => (s, .ok .goesOn)
    | some p =>
      match p.candidates with
      | [] => (s.setPass pass none, .ok (.returned p.recovered))
      | r :: rest =>
        match r.runtimeTurn p.active p.now (fun _ => unlocked) with
        | none => (s.setPass pass (some { p with candidates := rest }), .ok .goesOn)
        | some txn => s.recoverCandidate sha256Hex pass p rest txn
  | .restart => ({ s with passes := fun _ => none }, .ok .goesOn)

end
end Recoveries

def recoveries (sha256Hex : ByteArray → String) :
    Machine Recoveries RecoveryEvent (Except MessageStoreError RecoveryReply) :=
  ⟨Recoveries.step sha256Hex⟩

/-- Queued or put back. -/
def PtyStatus.rests : PtyStatus → Bool
  | .queued | .retry => true
  | _ => false

def AttemptsLeft (t : PtyTables) : Prop :=
  ∀ o ∈ t.operations.rows, o.row.status.rests = true → o.row.attempt < 5

/-- The lease that a runtime retry would find run out is not one of a last attempt. -/
def Txn.Spares (t : PtyTables) : Txn → Prop
  | .retryRuntimePtyPreparation injectionId now => ∀ o ∈ t.operations.get injectionId,
      o.row.status = .preparing → o.row.leaseUntil.any (· ≤ now) = true → o.row.attempt < 5
  | _ => True

/-- A recovery puts back no row that another transaction has given its last attempt since its page
was read. -/
def RecoveryEvent.Spares (s : Recoveries) : RecoveryEvent → Prop
  | .candidate pass unlocked => ∀ p ∈ s.passes pass, ∀ r ∈ p.candidates.head?,
      ∀ txn ∈ r.runtimeTurn p.active p.now (fun _ => unlocked), txn.Spares s.tables
  | _ => True

section
variable {t t' : PtyTables}

theorem attemptsLeft_writeOperation {r : OperationRow} (h : AttemptsLeft t)
    (hw : t.writeOperation r = .ok t') (hr : r.status.rests = true → r.attempt < 5) :
    AttemptsLeft t' := by
  obtain ⟨hc, rfl⟩ := writeOperation_eq_ok.mp hw
  intro o ho
  obtain ⟨p, hp, rfl⟩ := List.mem_map.mp ho
  split_ifs
  · exact hr
  · exact h p hp

theorem attemptsLeft_operations (h : AttemptsLeft t) (hops : t'.operations = t.operations) :
    AttemptsLeft t' := fun o ho => h o (hops ▸ ho)

theorem attemptsLeft_delete (h : AttemptsLeft t) (injectionId : String) :
    AttemptsLeft (t.deleteOperation injectionId) :=
  fun o ho => h o (List.mem_filter.mp ho).1

theorem not_rests_of_isTerminal {status : PtyStatus} (h : status.isTerminal = true) :
    status.rests = false := by
  cases status <;> first | rfl | cases h

theorem attemptsLeft_terminalizeInTransaction {injectionId : String} {status : PtyStatus}
    {reason : Option PtyInputReasonCode} {now : Timestamp} (h : AttemptsLeft t)
    (hok : t.terminalizeInTransaction injectionId status reason now = .ok t') :
    AttemptsLeft t' := by
  cases ho : t.operations.get injectionId with
  | none =>
    simp only [PtyTables.terminalizeInTransaction, ho, require_none, error_bind] at hok
    cases hok
  | some o =>
    cases hlive : o.row.status.isTerminal with
    | true =>
      simp only [PtyTables.terminalizeInTransaction, ho, require_some, ok_bind, bind_eq_ok,
        ensure_eq_ok, hlive, if_true] at hok
      obtain ⟨_, -, _, -, _, -, _, -, hok⟩ := hok
      cases hok
      exact h
    | false =>
      obtain ⟨hterm, hc, hops⟩ := operations_terminalizeInTransaction ho hlive hok
      refine attemptsLeft_operations (attemptsLeft_writeOperation h (writeOperation_eq_ok.mpr
        ⟨hc, rfl⟩) fun hrests => ?_) hops
      have hrests' : status.rests = true := hrests
      rw [not_rests_of_isTerminal hterm] at hrests'
      cases hrests'

variable {sha256Hex : ByteArray → String}

theorem attemptsLeft_admit {req : PtyInputEnqueueRequest} {wallNow : Timestamp}
    {x : PtyInputEnqueueResult} (h : AttemptsLeft t)
    (hok : t.admit sha256Hex req wallNow = .ok (t', x)) : AttemptsLeft t' := by
  simp only [ PtyTables.admit, bind_eq_ok] at hok
  obtain ⟨⟨issuedAt, expiresAt⟩, -, hok⟩ := hok
  unfold PtyTables.enqueuePtyInput at hok
  cases hl : t.lookupIdempotencyRow req.senderFqn req.opId with
  | some existing =>
    simp only [hl, bind_eq_ok] at hok
    obtain ⟨_, -, _, -, hok⟩ := hok
    cases hok
    exact h
  | none =>
    simp only [hl, bind_eq_ok] at hok
    obtain ⟨_, -, u, hu, _, -, hok⟩ := hok
    obtain ⟨hchecks, hfree, rfl⟩ := insertOperation_ok hu
    cases hok
    intro o ho
    obtain ho | rfl := (Table.mem_insert (h := hfree)).mp ho
    · exact h o ho
    · exact fun _ => (by decide : (0 : ℤ) < 5)

theorem attemptsLeft_recordHostPtyInputRejection {req : HostPtyInputRejectionRequest}
    {now : Timestamp} {unlocked : Bool} {x : PtyInputResult} (h : AttemptsLeft t)
    (hok : t.recordHostPtyInputRejection req now unlocked = .ok (t', x)) : AttemptsLeft t' := by
  simp only [PtyTables.recordHostPtyInputRejection, bind_eq_ok] at hok
  obtain ⟨⟨issued, expires⟩, -, -, -, hok⟩ := hok
  cases hl : t.lookupIdempotencyRow req.senderFqn req.opId with
  | some existing =>
    simp only [hl, bind_eq_ok] at hok
    obtain ⟨_, -, _, -, _, -, hok⟩ := hok
    cases hok
    exact h
  | none =>
    simp only [hl, bind_eq_ok] at hok
    obtain ⟨_, -, u, hu, _, -, hok⟩ := hok
    obtain ⟨hchecks, hfree, rfl⟩ := insertTombstone_ok hu
    cases hok
    exact h

theorem attemptsLeft_claimPtyInput {sourcePlane : PtyInputSourcePlane}
    {exactInjectionId : Option String} {leaseOwner : String} {now : Timestamp}
    {x : Option ClaimedPtyInputOperation} (h : AttemptsLeft t)
    (hok : t.claimPtyInput sourcePlane exactInjectionId leaseOwner now = .ok (t', x)) :
    AttemptsLeft t' := by
  unfold PtyTables.claimPtyInput at hok
  cases hc : t.claimCandidate sourcePlane exactInjectionId now with
  | none =>
    rw [hc] at hok
    cases hok
    exact h
  | some r =>
    simp only [hc, bind_eq_ok] at hok
    obtain ⟨u, hu, _, -, hok⟩ := hok
    cases hok
    exact attemptsLeft_writeOperation h hu fun hrests => nomatch hrests

theorem attemptsLeft_renewPtyInputLease {injectionId leaseOwner : String} {now : Timestamp}
    {x : Bool} (h : AttemptsLeft t)
    (hok : t.renewPtyInputLease injectionId leaseOwner now = .ok (t', x)) : AttemptsLeft t' := by
  unfold PtyTables.renewPtyInputLease at hok
  cases ho : t.operations.get injectionId with
  | none =>
    rw [ho] at hok
    cases hok
    exact h
  | some o =>
    simp only [ho] at hok
    split_ifs at hok with hg
    · simp only [bind_eq_ok] at hok
      obtain ⟨u, hu, hok⟩ := hok
      cases hok
      refine attemptsLeft_writeOperation h hu fun hrests => ?_
      have hrests' : o.row.status.rests = true := hrests
      rw [hg.1] at hrests'
      cases hrests'
    · cases hok
      exact h

theorem attemptsLeft_beginPtyActuating {injectionId leaseOwner sessionId backend : String}
    {now : Timestamp} {commit : CommitOutcome} (h : AttemptsLeft t) :
    AttemptsLeft (t.beginPtyActuating sha256Hex injectionId leaseOwner sessionId backend now
      commit).1 := by
  unfold PtyTables.beginPtyActuating
  cases hw : t.writeActuating sha256Hex injectionId leaseOwner sessionId backend now with
  | error e => exact h
  | ok p =>
    obtain ⟨o, hc, -, -, -, -, -, htables⟩ := writeActuating_ok hw
    have hbegun : AttemptsLeft p.1 := by
      rw [htables]
      exact attemptsLeft_writeOperation h (writeOperation_eq_ok.mpr ⟨hc, rfl⟩)
        fun hrests => nomatch hrests
    cases commit with
    | done => exact hbegun
    | lost => exact h
    | ambiguous => exact hbegun

theorem attemptsLeft_retryPtyInput {injectionId leaseOwner : String} {code : PtyInputReasonCode}
    {now : Timestamp} (h : AttemptsLeft t)
    (hok : t.retryPtyInput injectionId leaseOwner code now = .ok t') : AttemptsLeft t' := by
  simp only [PtyTables.retryPtyInput, bind_eq_ok, require_eq_ok] at hok
  obtain ⟨o, -, hok⟩ := hok
  split_ifs at hok with hlast
  · exact attemptsLeft_terminalizeInTransaction h hok
  · exact attemptsLeft_writeOperation h hok fun _ => not_le.mp hlast

theorem attemptsLeft_terminalizePtyInput {injectionId : String} {status : PtyInputPublicStatus}
    {reason : Option PtyInputReasonCode} {now : Timestamp} (h : AttemptsLeft t) :
    AttemptsLeft (t.terminalizePtyInput injectionId status reason now).1 := by
  unfold PtyTables.terminalizePtyInput
  dsimp only
  split
  · exact h
  · rename_i u hu
    cases status with
    | queued => cases hu
    | actuating => cases hu
    | injected => exact attemptsLeft_terminalizeInTransaction h hu
    | rejected => exact attemptsLeft_terminalizeInTransaction h hu
    | indeterminate => exact attemptsLeft_terminalizeInTransaction h hu

theorem attemptsLeft_retryStartupPreparation {injectionId : String} {now : Timestamp}
    (h : AttemptsLeft t) (hok : t.retryStartupPreparation injectionId now = .ok t') :
    AttemptsLeft t' := by
  simp only [PtyTables.retryStartupPreparation, bind_eq_ok, require_eq_ok,
    Option.filter_eq_some_iff, Bool.and_eq_true, decide_eq_true_eq] at hok
  obtain ⟨o, ⟨-, -, hattempt⟩, hok⟩ := hok
  exact attemptsLeft_writeOperation h hok fun _ => hattempt

theorem attemptsLeft_compactBefore {injectionId : String} {cutoff : Timestamp} {deleted : Bool}
    (h : AttemptsLeft t) (hok : t.compactBefore injectionId cutoff = .ok (t', deleted)) :
    AttemptsLeft t' := by
  unfold PtyTables.compactBefore at hok
  split_ifs at hok with hended
  · simp only [bind_eq_ok] at hok
    obtain ⟨_, -, hok⟩ := hok
    cases hok
    exact attemptsLeft_delete h injectionId
  · cases hok
    exact h

theorem attemptsLeft_compactMaintenance {injectionId : String}
    {normalCutoff unclaimedCutoff : Timestamp} {deleted : Bool} (h : AttemptsLeft t)
    (hok : t.compactMaintenance injectionId normalCutoff unclaimedCutoff = .ok (t', deleted)) :
    AttemptsLeft t' := by
  simp only [PtyTables.compactMaintenance, bind_eq_ok] at hok
  obtain ⟨_, -, _, -, hok⟩ := hok
  cases hok
  exact attemptsLeft_delete h injectionId

theorem attemptsLeft_markHostArtifact {injectionId : String} {now : Timestamp}
    (h : AttemptsLeft t) (hok : t.markHostArtifact injectionId now = .ok t') :
    AttemptsLeft t' := by
  unfold PtyTables.markHostArtifact at hok
  cases ho : t.operations.get injectionId with
  | none =>
    simp only [ho] at hok
    split_ifs at hok
    cases hok
    exact h
  | some o =>
    simp only [ho] at hok
    split_ifs at hok with hterm hcompacted
    · refine attemptsLeft_writeOperation h hok fun hrests => ?_
      have hrests' : o.row.status.rests = true := hrests
      rw [not_rests_of_isTerminal hterm.2] at hrests'
      cases hrests'
    · cases hok
      exact h

theorem attemptsLeft_retryRuntimePtyPreparation {injectionId : String} {now : Timestamp}
    (h : AttemptsLeft t) :
    AttemptsLeft (t.commit (t.retryRuntimePtyPreparation injectionId now)).1 ↔
      (Txn.retryRuntimePtyPreparation injectionId now).Spares t := by
  cases hfound : (t.operations.get injectionId).filter fun o =>
      o.row.status = .preparing && o.row.leaseUntil.any (· ≤ now) with
  | none =>
    have herror : t.retryRuntimePtyPreparation injectionId now = .error .invalidTransition := by
      rw [PtyTables.retryRuntimePtyPreparation, hfound]
      rfl
    rw [herror]
    refine iff_of_true h fun o ho hpreparing hlease => ?_
    rw [Option.mem_def] at ho
    rw [ho, Option.filter_some_pos (by simp [hpreparing, hlease])] at hfound
    cases hfound
  | some o =>
    obtain ⟨ho, hguard⟩ := Option.filter_eq_some_iff.mp hfound
    obtain ⟨hpreparing, hlease⟩ : o.row.status = .preparing ∧
        o.row.leaseUntil.any (· ≤ now) = true := by
      simpa only [Bool.and_eq_true, decide_eq_true_eq] using hguard
    have hc : (o.row.retryAt .leaseLost now now).checks = true :=
      checks_retryAt hpreparing rfl now now
    have hwrite : t.writeOperation (o.row.retryAt .leaseLost now now) =
        .ok ⟨t.operations.set ⟨_, hc⟩, t.tombstones⟩ := writeOperation_eq_ok.mpr ⟨hc, rfl⟩
    have hok : t.retryRuntimePtyPreparation injectionId now =
        .ok ⟨t.operations.set ⟨_, hc⟩, t.tombstones⟩ := by
      rw [PtyTables.retryRuntimePtyPreparation, hfound]
      exact hwrite
    rw [hok]
    constructor
    · intro hleft p hp _ _
      obtain rfl := Option.some.inj (ho.symm.trans hp)
      have hget : (t.operations.set ⟨o.row.retryAt .leaseLost now now, hc⟩).get
          o.row.injectionId = some ⟨o.row.retryAt .leaseLost now now, hc⟩ := by
        obtain rfl := id_of_operation ho
        exact @Table.get_set_self _ _ _ _ t.operations ⟨o.row.retryAt .leaseLost now now, hc⟩ o ho
      exact hleft ⟨o.row.retryAt .leaseLost now now, hc⟩ (Table.mem_of_get hget) rfl
    · intro hspares
      exact attemptsLeft_writeOperation h hwrite fun _ => hspares o ho hpreparing hlease

/-- A transaction keeps an attempt for every row that rests exactly where it spares the last. -/
theorem attemptsLeft_next_iff (txn : Txn) (h : AttemptsLeft t) :
    AttemptsLeft ((transactions sha256Hex).next t txn) ↔ txn.Spares t := by
  have hreply : ∀ {α : Type} (tag : α → Reply) (x : Except MessageStoreError (PtyTables × α)),
      (∀ t' a, x = .ok (t', a) → AttemptsLeft t') → AttemptsLeft (t.reply tag x).1 := by
    intro α tag x hx
    cases x with
    | error e => exact h
    | ok p => exact hx p.1 p.2 rfl
  have hcommit : ∀ x : Except MessageStoreError PtyTables,
      (∀ t', x = .ok t' → AttemptsLeft t') → AttemptsLeft (t.commit x).1 := by
    intro x hx
    cases x with
    | error e => exact h
    | ok u => exact hx u rfl
  cases txn with
  | enqueuePtyInput req wallNow =>
    exact iff_of_true (hreply _ _ fun _ _ hok => attemptsLeft_admit h hok) trivial
  | recordHostPtyInputRejection req now unlocked =>
    exact iff_of_true
      (hreply _ _ fun _ _ hok => attemptsLeft_recordHostPtyInputRejection h hok) trivial
  | claimPtyInput sourcePlane exactInjectionId leaseOwner now =>
    exact iff_of_true (hreply _ _ fun _ _ hok => attemptsLeft_claimPtyInput h hok) trivial
  | renewPtyInputLease injectionId leaseOwner now =>
    exact iff_of_true (hreply _ _ fun _ _ hok => attemptsLeft_renewPtyInputLease h hok) trivial
  | beginPtyActuating injectionId leaseOwner sessionId backend now commit =>
    exact iff_of_true (attemptsLeft_beginPtyActuating h) trivial
  | retryPtyInput injectionId leaseOwner code now =>
    exact iff_of_true (hcommit _ fun _ hok => attemptsLeft_retryPtyInput h hok) trivial
  | terminalizePtyInput injectionId status reason now =>
    exact iff_of_true (attemptsLeft_terminalizePtyInput h) trivial
  | retryStartupPreparation injectionId now =>
    exact iff_of_true (hcommit _ fun _ hok => attemptsLeft_retryStartupPreparation h hok) trivial
  | retryRuntimePtyPreparation injectionId now => exact attemptsLeft_retryRuntimePtyPreparation h
  | compactBefore injectionId cutoff =>
    exact iff_of_true (hreply _ _ fun _ _ hok => attemptsLeft_compactBefore h hok) trivial
  | compactMaintenance injectionId normalCutoff unclaimedCutoff =>
    exact iff_of_true (hreply _ _ fun _ _ hok => attemptsLeft_compactMaintenance h hok) trivial
  | markHostArtifact injectionId now =>
    exact iff_of_true (hcommit _ fun _ hok => attemptsLeft_markHostArtifact h hok) trivial

/-- The same for the steps of the recoveries. -/
theorem attemptsLeft_recoveries_iff {s : Recoveries} (h : AttemptsLeft s.tables)
    (e : RecoveryEvent) :
    AttemptsLeft ((recoveries sha256Hex).next s e).tables ↔ e.Spares s := by
  cases e with
  | transaction txn =>
    simp only [Machine.next, recoveries, Recoveries.step]
    refine iff_of_true ?_ trivial
    split_ifs with hruntime
    · exact h
    · refine (attemptsLeft_next_iff txn h).mpr ?_
      cases txn with
      | retryRuntimePtyPreparation injectionId now => exact absurd rfl hruntime
      | _ => exact trivial
  | readPage pass active now cursor =>
    simp only [Machine.next, recoveries, Recoveries.step]
    refine iff_of_true ?_ trivial
    split_ifs <;> exact h
  | restart => exact iff_of_true h trivial
  | candidate pass unlocked =>
    simp only [Machine.next, recoveries, Recoveries.step, RecoveryEvent.Spares]
    cases hp : s.passes pass with
    | none => exact iff_of_true h fun p hmem => by cases hmem
    | some p =>
      simp only [Option.mem_def, Option.some.injEq, forall_eq']
      cases hcandidates : p.candidates with
      | nil => exact iff_of_true h fun r hr => by cases hr
      | cons r rest =>
        simp only [List.head?_cons, Option.some.injEq, forall_eq']
        cases hturn : r.runtimeTurn p.active p.now fun _ => unlocked with
        | none => exact iff_of_true h fun txn htxn => by cases htxn
        | some txn =>
          simp only [Option.some.injEq, forall_eq']
          rw [← @attemptsLeft_next_iff s.tables sha256Hex txn h]
          unfold Recoveries.recoverCandidate
          dsimp only
          split <;> exact Iff.rfl

/-- A row that rests with an attempt left is claimed once it is due. -/
theorem claimed_of_due {o : Operation} (ho : t.operations.get o.row.injectionId = some o)
    (hrests : o.row.status.rests = true) (hattempt : o.row.attempt < 5) {now : Timestamp}
    (hdue : o.row.nextAttemptAt ≤ now) (hlive : now < o.row.expiresAt) (leaseOwner : String) :
    ∃ claimed, claimed.injectionId = o.row.injectionId ∧
      (transactions sha256Hex).answer t (.claimPtyInput o.row.sourcePlane
        (some o.row.injectionId) leaseOwner now) = .ok (.claimed (some claimed)) := by
  have hstatus : o.row.status = .queued ∨ o.row.status = .retry := by
    cases hs : o.row.status <;> rw [hs] at hrests <;> first | exact Or.inl rfl | exact Or.inr rfl |
      cases hrests
  have hclaimable : o.row.claimable o.row.sourcePlane now = true := by
    simp only [OperationRow.claimable, Bool.and_eq_true, Bool.or_eq_true, decide_eq_true_eq]
    exact ⟨⟨⟨trivial, hattempt⟩, hlive⟩, Or.inl ⟨hstatus, hdue⟩⟩
  have hcandidate : t.claimCandidate o.row.sourcePlane (some o.row.injectionId) now =
      some o.row := by
    unfold PtyTables.claimCandidate
    dsimp only
    rw [ho, Option.map_some]
    exact Option.filter_some_pos hclaimable
  obtain ⟨hc, claimed, hid, hok⟩ := claimPtyInput_of_candidate leaseOwner hcandidate hclaimable
  refine ⟨claimed, hid, ?_⟩
  simp only [Machine.answer, transactions, PtyTables.step, PtyTables.reply, hok]
  rfl

variable (sha256Hex) in
/-- A row that rests is claimed or, past its time, rejected. -/
def Served (t : PtyTables) (o : Operation) (now : Timestamp) : Prop :=
  (now < o.row.expiresAt → ∀ leaseOwner, ∃ claimed, claimed.injectionId = o.row.injectionId ∧
    (transactions sha256Hex).answer t (.claimPtyInput o.row.sourcePlane
      (some o.row.injectionId) leaseOwner now) = .ok (.claimed (some claimed))) ∧
  (o.row.expiresAt ≤ now → o.row.expired now = true ∧ ∃ result,
    (transactions sha256Hex).answer t (.terminalizePtyInput o.row.injectionId .rejected
      (some .expired) now) = .ok (.result result))

theorem served_of_attemptsLeft (hs : Sound t) (h : AttemptsLeft t) {o : Operation}
    (ho : o ∈ t.operations.rows) (hrests : o.row.status.rests = true) {now : Timestamp}
    (hdue : o.row.nextAttemptAt ≤ now) : Served sha256Hex t o now := by
  refine ⟨fun hlive leaseOwner =>
    claimed_of_due (Table.get_key ho) hrests (h o ho hrests) hdue hlive leaseOwner,
    fun hpast => ?_⟩
  have hexpired : o.row.expired now = true := by
    unfold OperationRow.expired
    rw [Bool.and_eq_true, decide_eq_true_eq]
    refine ⟨?_, hpast⟩
    cases hst : o.row.status <;> rw [hst] at hrests <;> first | rfl | cases hrests
  exact ⟨hexpired, (expire_of_expired sha256Hex hs (Table.get_key ho) hexpired).1⟩

theorem sound_recoveries {s : Recoveries} (h : Sound s.tables) (e : RecoveryEvent) :
    Sound ((recoveries sha256Hex).next s e).tables := by
  have hnext : ∀ txn, Sound ((transactions sha256Hex).next s.tables txn) :=
    fun txn => sound_of_effect (effect_next sha256Hex s.tables txn) h
  cases e with
  | transaction txn =>
    simp only [Machine.next, recoveries, Recoveries.step]
    split_ifs
    · exact h
    · exact hnext txn
  | readPage pass active now cursor =>
    simp only [Machine.next, recoveries, Recoveries.step]
    split_ifs <;> exact h
  | restart => exact h
  | candidate pass unlocked =>
    simp only [Machine.next, recoveries, Recoveries.step]
    cases s.passes pass with
    | none => exact h
    | some p =>
      dsimp only
      cases p.candidates with
      | nil => exact h
      | cons r rest =>
        dsimp only
        cases r.runtimeTurn p.active p.now fun _ => unlocked with
        | none => exact h
        | some txn =>
          simp only [Recoveries.recoverCandidate]
          split <;> exact hnext txn

end

/-- Startup recovery ends, and when it ends well it strands nothing but the retries whose attempts
were spent before. In exactly the runs in which no runtime recovery puts back a row on its last
attempt every row that rests has an attempt left, and there it is claimed once it is due, or past
its time rejected. -/
theorem recovery_law (sha256Hex : ByteArray → String) :
    (∀ (s : PtyStore) (now : Timestamp),
      StartupEnds sha256Hex now (fun _ => true) s.tables none
        ((s.recoverPtyInputStartup sha256Hex now fun _ => true).1.tables,
          (s.recoverPtyInputStartup sha256Hex now fun _ => true).2) ∧
      ((s.recoverPtyInputStartup sha256Hex now fun _ => true).2 = .ok () →
        NoneStranded now (s.recoverPtyInputStartup sha256Hex now fun _ => true).1.tables ∧
        (RetriesLeft (s.recoverPtyInputStartup sha256Hex now fun _ => true).1.tables ↔
          UnexpiredRetriesLeft now s.tables))) ∧
    ∀ es : List RecoveryEvent,
      ((recoveries sha256Hex).Always (fun s => AttemptsLeft s.tables) .empty es ↔
        (recoveries sha256Hex).Along (fun s e => e.Spares s) .empty es) ∧
      ((recoveries sha256Hex).Along (fun s e => e.Spares s) .empty es →
        ∀ o ∈ ((recoveries sha256Hex).run .empty es).tables.operations.rows,
          o.row.status.rests = true → ∀ now, o.row.nextAttemptAt ≤ now →
            Served sha256Hex ((recoveries sha256Hex).run .empty es).tables o now) := by
  have hempty : AttemptsLeft Recoveries.empty.tables := fun o ho => nomatch ho
  refine ⟨fun s now => startup_complete sha256Hex s now, fun es => ⟨?_, fun hspares o ho hrests now
    hdue => ?_⟩⟩
  · exact Machine.always_iff_along (Q := fun _ => True) (fun _ _ _ => trivial)
      (fun s e _ h => attemptsLeft_recoveries_iff h e) es trivial hempty
  · have hleft : AttemptsLeft ((recoveries sha256Hex).run .empty es).tables :=
      Machine.run_inv (P := fun s : Recoveries => AttemptsLeft s.tables)
        (fun s e h hok => (attemptsLeft_recoveries_iff h e).mpr hok) hempty hspares
    have hsound : Sound ((recoveries sha256Hex).run .empty es).tables :=
      Machine.run_inv_free (P := fun s : Recoveries => Sound s.tables)
        (fun _ e h => sound_recoveries h e) sound_empty es
    exact served_of_attemptsLeft hsound hleft ho hrests hdue

/-- On its fourth attempt when a recovery reads its page; claimed a fifth time, with a clock read
two minutes and more before the recovery's. -/
def lsLastAttempt : List RecoveryEvent :=
  [.transaction (.enqueuePtyInput lsRequest 1000),
    .transaction (.claimPtyInput .hostCli none "worker" 1000),
    .transaction (.retryPtyInput lsRequest.injectionId "worker" .leaseLost 1000),
    .transaction (.claimPtyInput .hostCli none "worker" 6000),
    .transaction (.claimPtyInput .hostCli none "worker" 126000),
    .transaction (.claimPtyInput .hostCli none "worker" 246000),
    .readPage 0 (fun _ => false) 500000 none,
    .transaction (.claimPtyInput .hostCli none "worker" 366000),
    .candidate 0 true]

def spent (t : PtyTables) : Bool :=
  t.operations.rows.any fun o => o.row.status = .retry && o.row.attempt = 5

section
variable {sha256Hex : ByteArray → String} {s : Recoveries}

theorem next_transaction {txn : Txn} (h : txn.retriesRuntime = false) :
    (recoveries sha256Hex).next s (.transaction txn) =
      ⟨(transactions sha256Hex).next s.tables txn, s.passes⟩ := by
  simp only [Machine.next, recoveries, Recoveries.step, h, Bool.false_eq_true, if_false]

/-- A transaction between the page and its first candidate. -/
theorem tables_readPage {pass : ℕ} {active : String → Bool} {now : Timestamp} {unlocked : Bool}
    {r : OperationRow} {rest : List OperationRow} {txn retry : Txn} (hp : s.passes pass = none)
    (hpage : s.page now none = r :: rest) (htxn : txn.retriesRuntime = false)
    (hturn : r.runtimeTurn active now (fun _ => unlocked) = some retry) :
    ((recoveries sha256Hex).run s
      [.readPage pass active now none, .transaction txn, .candidate pass unlocked]).tables =
      (transactions sha256Hex).next ((transactions sha256Hex).next s.tables txn) retry := by
  have hread : (recoveries sha256Hex).next s (.readPage pass active now none) =
      s.setPass pass (some ⟨active, now, r :: rest, 0⟩) := by
    simp only [Machine.next, recoveries, Recoveries.step, hp, hpage, Option.isSome_none,
      Bool.false_eq_true, if_false]
  rw [Machine.run_cons, hread, Machine.run_cons, next_transaction htxn, Machine.run_cons,
    Machine.run_nil]
  simp only [Machine.next, recoveries, Recoveries.step, Recoveries.setPass, Function.update_self,
    hturn, Recoveries.recoverCandidate]
  split <;> rfl

theorem Alone.transaction {r : OperationRow} {txn : Txn}
    (h : Alone ((transactions sha256Hex).next s.tables txn) r)
    (htxn : txn.retriesRuntime = false) :
    Alone ((recoveries sha256Hex).next s (.transaction txn)).tables r := by
  rw [next_transaction htxn]
  exact h

/-- A claim between the page and its first candidate; by then the lease has run out. -/
theorem Alone.recover {r : OperationRow} {sourcePlane : PtyInputSourcePlane} {pass : ℕ}
    {claimedAt now : Timestamp} (h : Alone s.tables r) (hp : s.passes pass = none)
    (hcandidate : r.runtimeCandidate now = true)
    (hturn : r.runtimeTurn (fun _ => false) now (fun _ => true) =
      some (.retryRuntimePtyPreparation r.injectionId now))
    (hclaimable : r.claimable sourcePlane claimedAt = true) (leaseOwner : String)
    (hlease : claimedAt + 120 * 1000 ≤ now) :
    Alone ((recoveries sha256Hex).run s [.readPage pass (fun _ => false) now none,
      .transaction (.claimPtyInput sourcePlane none leaseOwner claimedAt),
      .candidate pass true]).tables ((r.claim leaseOwner claimedAt).retryAt .leaseLost now now) := by
  have hpage : s.page now none = [r] := by
    rw [Recoveries.page, h.select hcandidate]
    rfl
  rw [tables_readPage hp hpage rfl hturn]
  exact ((h.claim hclaimable leaseOwner).retryRuntime rfl
    (by simpa [OperationRow.claim] using Or.inl hlease)).1

end

/-- What the recovery leaves: put back for good. -/
theorem alone_lsLastAttempt : ∃ r, r.status = .retry ∧ r.attempt = 5 ∧
    r.expiresAt = 10 * 60 * 1000 ∧
    Alone ((recoveries lsSha256Hex).run .empty lsLastAttempt).tables r := by
  have h₀ := @Alone.transaction lsSha256Hex .empty _ _ alone_lsRequest rfl
  have h₁ := (@Alone.claim lsSha256Hex _ _ h₀ .hostCli 1000 rfl "worker").transaction rfl
  have h₂ : Alone ((recoveries lsSha256Hex).next _
      (.transaction (.retryPtyInput lsRequest.injectionId "worker" .leaseLost 1000))).tables _ :=
    (@Alone.retry lsSha256Hex _ 1000 _ h₁ rfl "worker" rfl (by decide) .leaseLost rfl).transaction
      rfl
  have h₃ := (@Alone.claim lsSha256Hex _ _ h₂ .hostCli 6000 (by decide) "worker").transaction rfl
  have h₄ := (@Alone.claim lsSha256Hex _ _ h₃ .hostCli 126000 (by decide) "worker").transaction rfl
  have h₅ := (@Alone.claim lsSha256Hex _ _ h₄ .hostCli 246000 (by decide) "worker").transaction rfl
  have h₆ := @Alone.recover lsSha256Hex _ _ .hostCli 0 366000 500000 h₅ rfl
    (by decide) (by rfl) (by decide) "worker" (by decide)
  obtain ⟨r, ⟨hstatus, hattempt, hexpires⟩, hr⟩ := @Alone.exists _ _ h₆
    (fun r => r.status = .retry ∧ r.attempt = 5 ∧ r.expiresAt = 10 * 60 * 1000) ⟨rfl, rfl, rfl⟩
  refine ⟨r, hstatus, hattempt, hexpires, ?_⟩
  unfold lsLastAttempt
  iterate 6 rw [Machine.run_cons]
  exact hr

/-- With nothing to do a startup recovery does nothing. -/
theorem recoverPtyInputStartup_of_none (sha256Hex : ByteArray → String) {t : PtyTables}
    {now : Timestamp} (h : t.select (·.startupCandidate now) = [])
    (unlocked : String → Bool) :
    ((PtyStore.mk t .default).recoverPtyInputStartup sha256Hex now unlocked).2.isOk = true ∧
      ((PtyStore.mk t .default).recoverPtyInputStartup sha256Hex now unlocked).1.tables = t := by
  have hpage : t.startupPage now none = [] := by
    rw [PtyTables.startupPage, h]
    rfl
  rw [PtyStore.recoverPtyInputStartup, PtyTables.startupPages, hpage]
  exact ⟨rfl, rfl⟩

theorem spent_of_alone {t : PtyTables} {r : OperationRow} (h : Alone t r)
    (hstatus : r.status = .retry) (hattempt : r.attempt = 5) : spent t = true := by
  obtain ⟨o, rfl, hrows⟩ := h
  rw [spent, hrows, List.any_cons, hstatus, hattempt]
  rfl

theorem select_of_alone {t : PtyTables} {r : OperationRow} (h : Alone t r)
    {now : Timestamp} (hstatus : r.status = .retry) (hlive : now < r.expiresAt) :
    t.select (·.startupCandidate now) = [] := by
  obtain ⟨o, rfl, hrows⟩ := h
  have hcandidate : o.row.startupCandidate now = false := by
    rw [OperationRow.startupCandidate, hstatus, decide_eq_false (not_le.mpr hlive)]
    rfl
  rw [PtyTables.select, hrows, List.map_singleton, List.filter_singleton, hcandidate]
  rfl

/-- The recovery puts the row back with all its attempts spent, and a startup recovery that ends
well leaves it so. -/
theorem retry_spent :
    spent ((recoveries lsSha256Hex).run .empty lsLastAttempt).tables = true ∧
      ((PtyStore.mk ((recoveries lsSha256Hex).run .empty lsLastAttempt).tables
        .default).recoverPtyInputStartup lsSha256Hex 510000 fun _ => true).2.isOk = true ∧
      spent ((PtyStore.mk ((recoveries lsSha256Hex).run .empty lsLastAttempt).tables
        .default).recoverPtyInputStartup lsSha256Hex 510000 fun _ => true).1.tables = true := by
  obtain ⟨r, hstatus, hattempt, hexpires, hr⟩ := alone_lsLastAttempt
  have hspent := spent_of_alone hr hstatus hattempt
  have hnone := @select_of_alone _ _ hr 510000 hstatus (hexpires ▸ by decide)
  obtain ⟨hok, hsame⟩ := recoverPtyInputStartup_of_none lsSha256Hex hnone fun _ => true
  refine ⟨hspent, hok, ?_⟩
  rw [hsame]
  exact hspent

end AgentsCommander.PtyInput
