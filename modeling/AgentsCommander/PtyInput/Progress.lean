import AgentsCommander.PtyInput.Idempotency

/-! What is allowed goes through: claims and retries of rows that may be claimed or put back, and
the runs of a store that holds one row. -/
namespace AgentsCommander.PtyInput
open Foundation
open MessageStore (Timestamp MessageStoreError retryBackoffSeconds)

section
variable {sha256Hex : ByteArray → String} {t : PtyTables} {o : Operation} {now : Timestamp}

theorem cases_of_isWaiting {status : PtyStatus} (h : status.isWaiting = true) :
    status = .queued ∨ status = .preparing ∨ status = .retry := by
  cases status <;> simp_all [PtyStatus.isWaiting]

theorem checks_retryAt {o : Operation} (hw : o.row.status = .preparing)
    {code : PtyInputReasonCode} (hcode : code.transient = true) (next now : Timestamp) :
    (o.row.retryAt code next now).checks = true := by
  obtain ⟨hid, hval, hwin, -, hfield, hshape, hplane, hstage⟩ := checks_iff.mp o.checked
  refine checks_iff.mpr ⟨hid, ?_, hwin, hcode, hfield, ?_, ?_, ?_⟩
  · simp only [PtyRecord.valueChecks, Bool.and_eq_true] at hval ⊢
    exact ⟨hval.1, rfl⟩
  · simp only [OperationRow.shapeCheck, hw] at hshape
    exact hshape
  · unfold OperationRow.planeCheck at hplane ⊢
    rw [hw] at hplane
    exact hplane
  · simp only [OperationRow.stageChecks, hw, Bool.and_eq_true] at hstage ⊢
    obtain ⟨⟨⟨hterm, -⟩, -⟩, hartifact⟩ := hstage
    exact ⟨⟨⟨hterm, rfl⟩, rfl⟩, hartifact⟩

theorem checks_claim (hw : o.row.status.isWaiting = true) (hattempt : o.row.attempt < 5)
    (leaseOwner : String) (now : Timestamp) : (o.row.claim leaseOwner now).checks = true := by
  obtain ⟨hid, hval, hwin, hreason, hfield, hshape, hplane, hstage⟩ := checks_iff.mp o.checked
  have hstatus := cases_of_isWaiting hw
  refine checks_iff.mpr ⟨hid, hval, hwin, ?_, ?_, ?_, ?_, ?_⟩
  · unfold PtyRecord.reasonCheck at hreason
    obtain hs | hs | hs := hstatus <;> rw [hs] at hreason <;> exact hreason
  · simp only [OperationRow.fieldChecks, Bool.and_eq_true, decide_eq_true_eq] at hfield
    obtain ⟨⟨⟨⟨⟨⟨hmode, hlo, -⟩, hsession⟩, hgeneration⟩, hsender⟩, htarget⟩, hpayload⟩ := hfield
    have hlo' : 0 ≤ (o.row.claim leaseOwner now).attempt := by
      change 0 ≤ o.row.attempt + 1
      omega
    have hhi' : (o.row.claim leaseOwner now).attempt ≤ 5 := by
      change o.row.attempt + 1 ≤ 5
      omega
    simp only [OperationRow.fieldChecks, Bool.and_eq_true, decide_eq_true_eq]
    exact ⟨⟨⟨⟨⟨⟨hmode, hlo', hhi'⟩, hsession⟩, hgeneration⟩, hsender⟩, htarget⟩, hpayload⟩
  · unfold OperationRow.shapeCheck at hshape
    obtain hs | hs | hs := hstatus <;> rw [hs] at hshape <;> exact hshape
  · unfold OperationRow.planeCheck at hplane
    obtain hs | hs | hs := hstatus <;> rw [hs] at hplane <;> exact hplane
  · simp only [OperationRow.stageChecks, Bool.and_eq_true] at hstage
    obtain ⟨⟨⟨hterm, -⟩, -⟩, hartifact⟩ := hstage
    have hopen : o.row.terminalAt.isSome = false := by
      rw [decide_eq_true_eq] at hterm
      rw [← hterm]
      obtain hs | hs | hs := hstatus <;> rw [hs] <;> rfl
    have hterm' : (o.row.claim leaseOwner now).status.isTerminal =
        (o.row.claim leaseOwner now).terminalAt.isSome := hopen.symm
    simp only [OperationRow.stageChecks, Bool.and_eq_true]
    exact ⟨⟨⟨decide_eq_true hterm', rfl⟩, rfl⟩, hartifact⟩

/-- What a waiting row keeps of its authority. -/
theorem claimedFromRow_claim (hw : o.row.status.isWaiting = true) (leaseOwner : String)
    (now : Timestamp) : ∃ claimed, (o.row.claim leaseOwner now).claimedFromRow = some claimed ∧
      claimed.injectionId = o.row.injectionId := by
  have hshape := (checks_iff.mp o.checked).2.2.2.2.2.1
  obtain ⟨hsession, hsender, htarget⟩ : o.row.authoritySessionId.isSome = true ∧
      o.row.senderIdentityFingerprint.isSome = true ∧
      o.row.targetIdentityFingerprint.isSome = true := by
    unfold OperationRow.shapeCheck at hshape
    obtain hs | hs | hs := cases_of_isWaiting hw <;>
    · simp only [hs, Bool.and_eq_true] at hshape
      exact ⟨hshape.1.1.1.1.1.2, hshape.1.1.1.1.2, hshape.1.1.1.2⟩
  obtain ⟨session, hsession⟩ := Option.isSome_iff_exists.mp hsession
  obtain ⟨sender, hsender⟩ := Option.isSome_iff_exists.mp hsender
  obtain ⟨target, htarget⟩ := Option.isSome_iff_exists.mp htarget
  simp only [OperationRow.claimedFromRow, OperationRow.claim, hsession, hsender, htarget,
    Option.bind_eq_bind, Option.bind_some]
  exact ⟨_, rfl, rfl⟩

theorem attempt_lt_of_claimable {r : OperationRow} {sourcePlane : PtyInputSourcePlane}
    (h : r.claimable sourcePlane now = true) : r.attempt < 5 := by
  simp only [OperationRow.claimable, Bool.and_eq_true, decide_eq_true_eq] at h
  exact h.1.1.2

/-- The candidate of a claim is claimed. -/
theorem claimPtyInput_of_candidate {sourcePlane : PtyInputSourcePlane}
    {exactInjectionId : Option String} (leaseOwner : String)
    (hcandidate : t.claimCandidate sourcePlane exactInjectionId now = some o.row)
    (hclaimable : o.row.claimable sourcePlane now = true) :
    ∃ hc claimed, claimed.injectionId = o.row.injectionId ∧
      t.claimPtyInput sourcePlane exactInjectionId leaseOwner now =
        .ok (⟨t.operations.set ⟨o.row.claim leaseOwner now, hc⟩, t.tombstones⟩, some claimed) := by
  have hw := isWaiting_of_claimable hclaimable
  have hc := checks_claim hw (attempt_lt_of_claimable hclaimable) leaseOwner now
  have hwrite : t.writeOperation (o.row.claim leaseOwner now) =
      .ok ⟨t.operations.set ⟨_, hc⟩, t.tombstones⟩ := writeOperation_eq_ok.mpr ⟨hc, rfl⟩
  obtain ⟨claimed, hclaimed, hid⟩ := claimedFromRow_claim hw leaseOwner now
  refine ⟨hc, claimed, hid, ?_⟩
  simp only [PtyTables.claimPtyInput, hcandidate, hwrite, ok_bind, hclaimed, require_some]

/-- The operations are this one row. -/
def Alone (t : PtyTables) (r : OperationRow) : Prop :=
  ∃ o : Operation, o.row = r ∧ t.operations.rows = [o]

variable {r : OperationRow}

theorem Alone.exists (h : Alone t r) {p : OperationRow → Prop} (hp : p r) :
    ∃ r, p r ∧ Alone t r := ⟨r, hp, h⟩

theorem Alone.get (h : Alone t r) :
    ∃ o : Operation, o.row = r ∧ t.operations.get r.injectionId = some o := by
  obtain ⟨o, rfl, hrows⟩ := h
  exact ⟨o, rfl, Table.get_eq_some.mpr ⟨by rw [hrows]; exact List.mem_singleton_self o, rfl⟩⟩

theorem Alone.select (h : Alone t r) {p : OperationRow → Bool} (hp : p r = true) :
    t.select p = [r] := by
  obtain ⟨o, rfl, hrows⟩ := h
  rw [PtyTables.select, hrows, List.map_singleton, List.filter_singleton, hp]
  rfl

theorem Alone.set {u : PtyTables} (h : Alone t r) {row : OperationRow} {hc : row.checks = true}
    (hid : row.injectionId = r.injectionId) (hops : u.operations = t.operations.set ⟨row, hc⟩) :
    Alone u row := by
  obtain ⟨o, rfl, hrows⟩ := h
  refine ⟨⟨row, hc⟩, rfl, ?_⟩
  rw [hops]
  change t.operations.rows.map _ = _
  rw [hrows, List.map_singleton, if_pos hid.symm]

theorem Alone.claim (h : Alone t r) {sourcePlane : PtyInputSourcePlane} {now : Timestamp}
    (hclaimable : r.claimable sourcePlane now = true) (leaseOwner : String) :
    Alone ((transactions sha256Hex).next t (.claimPtyInput sourcePlane none leaseOwner now))
      (r.claim leaseOwner now) := by
  obtain ⟨o, rfl, ho⟩ := h.get
  have hcandidate : t.claimCandidate sourcePlane none now = some o.row := by
    unfold PtyTables.claimCandidate
    rw [h.select hclaimable]
    rfl
  obtain ⟨hc, claimed, -, hok⟩ := claimPtyInput_of_candidate leaseOwner hcandidate hclaimable
  simp only [Machine.next, transactions, PtyTables.step, PtyTables.reply, hok]
  exact h.set rfl rfl

theorem Alone.retry (h : Alone t r) (hpreparing : r.status = .preparing) {leaseOwner : String}
    (howner : r.leaseOwner = some leaseOwner) (hattempt : r.attempt < 5)
    {code : PtyInputReasonCode} (hcode : code.transient = true) :
    Alone ((transactions sha256Hex).next t (.retryPtyInput r.injectionId leaseOwner code now))
      (r.retryAt code (now + min (retryBackoffSeconds r.attempt) 40 * 1000) now) := by
  obtain ⟨o, rfl, ho⟩ := h.get
  have hc := checks_retryAt hpreparing hcode
    (now + min (retryBackoffSeconds o.row.attempt) 40 * 1000) now
  have hwrite : t.writeOperation (o.row.retryAt code
      (now + min (retryBackoffSeconds o.row.attempt) 40 * 1000) now) =
      .ok ⟨t.operations.set ⟨_, hc⟩, t.tombstones⟩ := writeOperation_eq_ok.mpr ⟨hc, rfl⟩
  have hok : t.retryPtyInput o.row.injectionId leaseOwner code now =
      .ok ⟨t.operations.set ⟨_, hc⟩, t.tombstones⟩ := by
    rw [PtyTables.retryPtyInput, ho, Option.filter_some_pos (by simp [hpreparing, howner]),
      require_some, ok_bind, if_neg (not_le.mpr hattempt)]
    exact hwrite
  simp only [Machine.next, transactions, PtyTables.step, PtyTables.commit, hok]
  exact h.set rfl rfl

theorem Alone.retryRuntime (h : Alone t r) (hpreparing : r.status = .preparing)
    (hlease : r.leaseUntil.any (· ≤ now) = true) :
    Alone ((transactions sha256Hex).next t (.retryRuntimePtyPreparation r.injectionId now))
      (r.retryAt .leaseLost now now) ∧
      ∃ reply, (transactions sha256Hex).answer t
        (.retryRuntimePtyPreparation r.injectionId now) = .ok reply := by
  obtain ⟨o, rfl, ho⟩ := h.get
  have hc : (o.row.retryAt .leaseLost now now).checks = true :=
    checks_retryAt hpreparing rfl now now
  have hwrite : t.writeOperation (o.row.retryAt .leaseLost now now) =
      .ok ⟨t.operations.set ⟨_, hc⟩, t.tombstones⟩ := writeOperation_eq_ok.mpr ⟨hc, rfl⟩
  have hok : t.retryRuntimePtyPreparation o.row.injectionId now =
      .ok ⟨t.operations.set ⟨_, hc⟩, t.tombstones⟩ := by
    rw [PtyTables.retryRuntimePtyPreparation, ho,
      Option.filter_some_pos (by simp [hpreparing, hlease]), require_some, ok_bind]
    exact hwrite
  simp only [Machine.next, Machine.answer, transactions, PtyTables.step, PtyTables.commit, hok]
  exact ⟨h.set rfl rfl, _, rfl⟩

end

theorem alone_lsRequest : Alone ((transactions lsSha256Hex).next .empty
    (.enqueuePtyInput lsRequest 1000)) (lsRequest.toRow lsSha256Hex 0 (10 * 60 * 1000) 1000) := by
  have hrows : (((transactions lsSha256Hex).next .empty
      (.enqueuePtyInput lsRequest 1000)).operations.rows.map (·.row)) =
      [lsRequest.toRow lsSha256Hex 0 (10 * 60 * 1000) 1000] := by decide +kernel
  obtain ⟨o, hrows, hrow⟩ := List.map_eq_singleton_iff.mp hrows
  exact ⟨o, hrow, hrows⟩

end AgentsCommander.PtyInput
