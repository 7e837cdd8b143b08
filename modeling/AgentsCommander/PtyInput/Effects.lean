import AgentsCommander.Foundation.Registry
import AgentsCommander.PtyInput.Store
import AgentsCommander.PtyInput.Writes

/-! What one transaction can do to the tables, said once: every invariant of the store is
read off this list. -/
namespace AgentsCommander.PtyInput
open Foundation
open MessageStore (Timestamp MessageStoreError)

/-- What an injection is bound to for good. -/
structure Identity where
  injectionId : String
  senderFqn : String
  opId : String
  nonceSha256 : String
  requestFingerprint : String
  senderIncarnationFingerprint : String
  deriving DecidableEq

def PtyRecord.identity (r : PtyRecord) : Identity :=
  ⟨r.injectionId, r.senderFqn, r.opId, r.nonceSha256, r.requestFingerprint,
    r.senderIncarnationFingerprint⟩

/-- They claim one injection id, or one operation or nonce of one sender. -/
def Identity.clash (i j : Identity) : Prop :=
  i.injectionId = j.injectionId ∨
    (i.senderFqn = j.senderFqn ∧ (i.opId = j.opId ∨ i.nonceSha256 = j.nonceSha256))

theorem Identity.clash_comm {i j : Identity} : i.clash j ↔ j.clash i := by
  unfold Identity.clash
  constructor <;>
  · intro h
    rcases h with h | ⟨hs, h | h⟩
    · exact Or.inl h.symm
    · exact Or.inr ⟨hs.symm, Or.inl h.symm⟩
    · exact Or.inr ⟨hs.symm, Or.inr h.symm⟩

/-- Everything ever bound, whether the operation lives or only its tombstone does. -/
def PtyTables.identities (t : PtyTables) : Set Identity := {i | ∃ r ∈ t.records, r.identity = i}

theorem mem_records {t : PtyTables} {r : PtyRecord} :
    r ∈ t.records ↔ (∃ o ∈ t.operations.rows, o.row.toPtyRecord = r) ∨
      ∃ s ∈ t.tombstones.rows, s.record = r := by
  simp [PtyTables.records]

theorem mem_records_of_operation {t : PtyTables} {injectionId : String} {o : Operation}
    (h : t.operations.get injectionId = some o) : o.row.toPtyRecord ∈ t.records :=
  mem_records.mpr (Or.inl ⟨o, Table.mem_of_get h, rfl⟩)

theorem mem_records_of_tombstone {t : PtyTables} {injectionId : String} {s : Tombstone}
    (h : t.tombstones.get injectionId = some s) : s.record ∈ t.records :=
  mem_records.mpr (Or.inr ⟨s, Table.mem_of_get h, rfl⟩)

/-- What admission found before it let the row in. -/
structure PtyTables.Room (t : PtyTables) (r : OperationRow) : Prop where
  sender : t.nonterminal.countP (·.senderFqn = r.senderFqn) < ptyInputMaxNonterminalPerSender
  all : t.nonterminal.length < ptyInputMaxNonterminalGlobal
  bytes : (t.nonterminal.map (·.payloadBytes)).sum + r.payloadBytes ≤ ptyInputMaxNonterminalBytes

/-- The ways a transaction leaves the tables. -/
inductive Effect (t : PtyTables) : Txn → PtyTables → Prop where
  | unchanged (txn : Txn) : Effect t txn t
  | admitted (req : PtyInputEnqueueRequest) (wallNow : Timestamp) (o : Operation)
      (free : t.operations.get o.row.injectionId = none)
      (status : o.row.status = .queued)
      (fresh : Registry.Fresh Identity.clash t.identities o.row.toPtyRecord.identity)
      (coherent : o.row.toPtyRecord.Coherent) (room : t.Room o.row) :
      Effect t (.enqueuePtyInput req wallNow) ⟨t.operations.insert o free, t.tombstones⟩
  | refused (req : HostPtyInputRejectionRequest) (now : Timestamp) (unlocked : Bool)
      (s : Tombstone) (free : t.tombstones.get s.record.injectionId = none)
      (fresh : Registry.Fresh Identity.clash t.identities s.record.identity)
      (coherent : s.record.Coherent) (inOrder : s.record.InOrder) :
      Effect t (.recordHostPtyInputRejection req now unlocked)
        ⟨t.operations, t.tombstones.insert s free⟩
  | waited (txn : Txn) (o o' : Operation) (found : t.operations.get o'.row.injectionId = some o)
      (before : o.row.status.isWaiting = true) (after : o'.row.status.isWaiting = true)
      (identity : o'.row.toPtyRecord.identity = o.row.toPtyRecord.identity)
      (coherent : o.row.toPtyRecord.Coherent → o'.row.toPtyRecord.Coherent)
      (bytes : o'.row.payloadBytes = o.row.payloadBytes) :
      Effect t txn ⟨t.operations.set o', t.tombstones⟩
  | begun (leaseOwner selectedSessionId selectedBackend : String) (now : Timestamp)
      (commit : CommitOutcome) (o o' : Operation)
      (found : t.operations.get o'.row.injectionId = some o)
      (before : o.row.status = .preparing) (after : o'.row.status = .actuating)
      (identity : o'.row.toPtyRecord.identity = o.row.toPtyRecord.identity)
      (coherent : o.row.toPtyRecord.Coherent → o'.row.toPtyRecord.Coherent)
      (bytes : o'.row.payloadBytes = o.row.payloadBytes) :
      Effect t (.beginPtyActuating o'.row.injectionId leaseOwner selectedSessionId selectedBackend
        now commit) ⟨t.operations.set o', t.tombstones⟩
  | settled (txn : Txn) (o o' : Operation) (s : Tombstone)
      (tombstones : Table fun s : Tombstone => s.record.injectionId)
      (found : t.operations.get o'.row.injectionId = some o)
      (before : o.row.status.mayEndAs o'.row.status = true)
      (after : o'.row.status.isTerminal = true)
      (buried : tombstones.get o'.row.injectionId = some s)
      (record : s.record = o'.row.toPtyRecord)
      (others : ∀ x, x ∈ tombstones.rows ↔ x ∈ t.tombstones.rows ∨ x = s)
      (identity : o'.row.toPtyRecord.identity = o.row.toPtyRecord.identity)
      (coherent : o.row.toPtyRecord.Coherent → o'.row.toPtyRecord.Coherent)
      (stamped : o.row.status = .actuating →
        o'.row.queuedAt = o.row.queuedAt ∧ o'.row.actuatingAt = o.row.actuatingAt ∧
        ∃ reason now,
          txn = .terminalizePtyInput o'.row.injectionId o'.row.status.toPublic reason now ∧
          ptyInputReasonAllowedForStatus o'.row.status.toPublic reason = true ∧
          o'.row.terminalAt = some now) :
      Effect t txn ⟨t.operations.set o', tombstones⟩
  | compacted (txn : Txn) (o : Operation) (s : Tombstone)
      (found : t.operations.get o.row.injectionId = some o)
      (status : o.row.status.isTerminal = true)
      (buried : t.tombstones.get o.row.injectionId = some s)
      (record : s.record = o.row.toPtyRecord) :
      Effect t txn ⟨t.operations.delete o.row.injectionId, t.tombstones⟩
  | marked (now : Timestamp) (o o' : Operation)
      (found : t.operations.get o'.row.injectionId = some o)
      (status : o.row.status.isTerminal = true)
      (row : o'.row = { o.row with hostArtifactAt := some now }) :
      Effect t (.markHostArtifact o'.row.injectionId now) ⟨t.operations.set o', t.tombstones⟩

theorem lookup_eq_none {t : PtyTables} {sender opId : String} :
    t.lookupIdempotencyRow sender opId = none ↔
      ∀ r ∈ t.records, ¬ (r.senderFqn = sender ∧ r.opId = opId) := by
  simp only [PtyTables.lookupIdempotencyRow, Option.map_eq_none_iff, List.find?_eq_none,
    decide_eq_true_eq]

theorem collision_eq_false {t : PtyTables} {injectionId sender nonceSha256 : String} :
    t.collision injectionId sender nonceSha256 = false ↔ ∀ r ∈ t.records,
      r.injectionId ≠ injectionId ∧ ¬ (r.senderFqn = sender ∧ r.nonceSha256 = nonceSha256) := by
  simp [PtyTables.collision]

/-- What the lookup and the collision query let through is fresh in both tables. -/
theorem fresh_of_unseen {t : PtyTables} {i : Identity}
    (hl : t.lookupIdempotencyRow i.senderFqn i.opId = none)
    (hc : t.collision i.injectionId i.senderFqn i.nonceSha256 = false) :
    Registry.Fresh Identity.clash t.identities i := by
  intro j hj
  obtain ⟨r, hr, rfl⟩ := hj
  have hnot : ¬ Identity.clash r.identity i := by
    intro hclash
    rcases hclash with hid | ⟨hsender, hop | hnonce⟩
    · exact (collision_eq_false.mp hc r hr).1 hid
    · exact lookup_eq_none.mp hl r hr ⟨hsender, hop⟩
    · exact (collision_eq_false.mp hc r hr).2 ⟨hsender, hnonce⟩
  exact ⟨fun h => hnot (Identity.clash_comm.mp h), hnot⟩

theorem effect_admit {sha256Hex : ByteArray → String} {t t' : PtyTables}
    {req : PtyInputEnqueueRequest} {wallNow : Timestamp} {x : PtyInputEnqueueResult}
    (h : t.admit sha256Hex req wallNow = .ok (t', x)) : Effect t (.enqueuePtyInput req wallNow) t' := by
  simp only [ PtyTables.admit, bind_eq_ok] at h
  obtain ⟨⟨issuedAt, expiresAt⟩, -, h⟩ := h
  unfold PtyTables.enqueuePtyInput at h
  cases hl : t.lookupIdempotencyRow req.senderFqn req.opId with
  | some existing =>
    simp only [hl, bind_eq_ok] at h
    obtain ⟨_, _, _, _, h⟩ := h
    cases h
    exact .unchanged _
  | none =>
    simp only [hl, bind_eq_ok, PtyTables.checkPtyEnqueueAdmission, ensure_eq_ok,
      Bool.and_eq_true, decide_eq_true_eq] at h
    obtain ⟨_, ⟨_, ⟨⟨hsender, hall⟩, hbytes⟩, hc⟩, u, hu, x', hx, h⟩ := h
    have hroom : t.Room (req.toRow sha256Hex issuedAt expiresAt (max wallNow issuedAt)) := by
      refine ⟨hsender, hall, ?_⟩
      rcases min_le_iff.mp hbytes with hmax | hsum
      · exact absurd hmax (by decide)
      · exact hsum
    have hseen : t.collision req.injectionId req.senderFqn req.nonceSha256 = false := by
      simpa using hc
    obtain ⟨hchecks, hfree, rfl⟩ := insertOperation_ok hu
    cases h
    have hget := (Table.get_insert t.operations ⟨_, hchecks⟩ hfree req.injectionId).trans (if_pos rfl)
    have hcoh : (req.toRow sha256Hex issuedAt expiresAt
        (max wallNow issuedAt)).toPtyRecord.Coherent := by
      rcases loadExisting_ok hx with ⟨o, ho, hres⟩ | ⟨hnone, -⟩
      · cases hget.symm.trans ho
        exact (coherent_of_resultFromRow hres).1
      · cases hget.symm.trans hnone
    exact .admitted req wallNow ⟨_, hchecks⟩ hfree rfl (fresh_of_unseen hl hseen) hcoh hroom

theorem effect_recordHostPtyInputRejection {t t' : PtyTables}
    {req : HostPtyInputRejectionRequest} {now : Timestamp} {unlocked : Bool} {x : PtyInputResult}
    (h : t.recordHostPtyInputRejection req now unlocked = .ok (t', x)) :
    Effect t (.recordHostPtyInputRejection req now unlocked) t' := by
  simp only [PtyTables.recordHostPtyInputRejection, bind_eq_ok] at h
  obtain ⟨⟨issued, expires⟩, -, -, -, h⟩ := h
  cases hl : t.lookupIdempotencyRow req.senderFqn req.opId with
  | some existing =>
    simp only [hl, bind_eq_ok] at h
    obtain ⟨_, _, _, _, _, _, h⟩ := h
    cases h
    exact .unchanged _
  | none =>
    simp only [hl, bind_eq_ok, ensure_eq_ok] at h
    obtain ⟨_, hc, u, hu, x', hx, h⟩ := h
    obtain ⟨hchecks, hfree, rfl⟩ := insertTombstone_ok hu
    cases h
    have hseen : t.collision req.injectionId req.senderFqn req.nonceSha256 = false := by
      simpa using hc
    have hget := (Table.get_insert t.tombstones ⟨_, hchecks⟩ hfree req.injectionId).trans (if_pos rfl)
    have hres : (req.toRecord issued expires (max now issued)).Coherent ∧
        (req.toRecord issued expires (max now issued)).InOrder := by
      rcases loadExisting_ok hx with ⟨o, ho, -⟩ | ⟨-, s, hs, hres⟩
      · exact absurd (id_of_operation ho)
          (collision_eq_false.mp hseen _ (mem_records_of_operation ho)).1
      · cases hget.symm.trans hs
        obtain ⟨hcoh, hord, -⟩ := coherent_of_resultFromRow hres
        exact ⟨hcoh, hord⟩
    exact .refused req now unlocked ⟨_, hchecks⟩ hfree (fresh_of_unseen hl hseen) hres.1 hres.2

theorem claimCandidate_some {t : PtyTables} {sourcePlane : PtyInputSourcePlane}
    {exactInjectionId : Option String} {now : Timestamp} {r : OperationRow}
    (h : t.claimCandidate sourcePlane exactInjectionId now = some r) :
    r.claimable sourcePlane now = true ∧ ∃ o, t.operations.get r.injectionId = some o ∧ o.row = r := by
  cases exactInjectionId with
  | some injectionId =>
    simp only [PtyTables.claimCandidate, Option.filter_eq_some_iff, Option.map_eq_some_iff] at h
    obtain ⟨⟨o, ho, rfl⟩, hc⟩ := h
    have hk := id_of_operation ho
    exact ⟨hc, o, hk ▸ ho, rfl⟩
  | none =>
    have hm := Keyset.mem_of_mem_page (List.mem_of_head? h)
    simp only [PtyTables.select, List.mem_filter, List.mem_map] at hm
    obtain ⟨⟨o, ho, rfl⟩, hc⟩ := hm
    exact ⟨hc, o, Table.get_key ho, rfl⟩

theorem isWaiting_of_claimable {r : OperationRow} {sourcePlane : PtyInputSourcePlane}
    {now : Timestamp} (h : r.claimable sourcePlane now = true) : r.status.isWaiting = true := by
  unfold OperationRow.claimable at h
  cases hs : r.status <;> simp_all [PtyStatus.isWaiting]

theorem effect_claimPtyInput {t t' : PtyTables} {sourcePlane : PtyInputSourcePlane}
    {exactInjectionId : Option String} {leaseOwner : String} {now : Timestamp}
    {x : Option ClaimedPtyInputOperation}
    (h : t.claimPtyInput sourcePlane exactInjectionId leaseOwner now = .ok (t', x)) (txn : Txn) :
    Effect t txn t' := by
  unfold PtyTables.claimPtyInput at h
  cases hc : t.claimCandidate sourcePlane exactInjectionId now with
  | none =>
    rw [hc] at h
    cases h
    exact .unchanged _
  | some r =>
    simp only [hc, bind_eq_ok] at h
    obtain ⟨u, hu, _, _, h⟩ := h
    cases h
    obtain ⟨hchecks, rfl⟩ := writeOperation_eq_ok.mp hu
    obtain ⟨hclaim, o, ho, rfl⟩ := claimCandidate_some hc
    have hw := isWaiting_of_claimable hclaim
    exact .waited txn o ⟨_, hchecks⟩ ho hw rfl rfl (fun hcoh => coherent_restatus hcoh hw rfl) rfl

theorem effect_renewPtyInputLease {t t' : PtyTables} {injectionId leaseOwner : String}
    {now : Timestamp} {x : Bool}
    (h : t.renewPtyInputLease injectionId leaseOwner now = .ok (t', x)) (txn : Txn) :
    Effect t txn t' := by
  unfold PtyTables.renewPtyInputLease at h
  cases ho : t.operations.get injectionId with
  | none =>
    rw [ho] at h
    cases h
    exact .unchanged _
  | some o =>
    simp only [ho] at h
    split_ifs at h with hg
    · simp only [bind_eq_ok] at h
      obtain ⟨u, hu, h⟩ := h
      cases h
      obtain ⟨hchecks, rfl⟩ := writeOperation_eq_ok.mp hu
      have hk := id_of_operation ho
      have hw : o.row.status.isWaiting = true := by rw [hg.1]; rfl
      exact .waited txn o ⟨_, hchecks⟩ (hk ▸ ho) hw hw rfl id rfl
    · cases h
      exact .unchanged _

/-- A retry keeps the row waiting, under a reason the schema let through. -/
theorem waited_retryAt {t t' : PtyTables} {o : Operation} {code : PtyInputReasonCode}
    {next now : Timestamp} (ho : t.operations.get o.row.injectionId = some o)
    (hw : o.row.status.isWaiting = true)
    (h : t.writeOperation (o.row.retryAt code next now) = .ok t') (txn : Txn) :
    Effect t txn t' := by
  obtain ⟨hchecks, rfl⟩ := writeOperation_eq_ok.mp h
  have hreason : (some code).all (·.transient) = true := (checks_iff.mp hchecks).2.2.2.1
  exact .waited txn o ⟨_, hchecks⟩ ho hw rfl rfl
    (fun hcoh => coherent_waiting hcoh hw rfl hreason) rfl

theorem effect_terminalizeInTransaction {t t' : PtyTables} {injectionId : String}
    {status : PtyStatus} {reason : Option PtyInputReasonCode} {now : Timestamp} {txn : Txn}
    (hstamp : status ≠ .rejected →
      txn = .terminalizePtyInput injectionId status.toPublic reason now)
    (h : t.terminalizeInTransaction injectionId status reason now = .ok t') : Effect t txn t' := by
  simp only [PtyTables.terminalizeInTransaction, bind_eq_ok, require_eq_ok, ensure_eq_ok] at h
  obtain ⟨o, ho, _, hterm, _, hallowed, h⟩ := h
  split_ifs at h with hdone
  · simp only [bind_eq_ok] at h
    obtain ⟨_, _, _, _, h⟩ := h
    cases h
    exact .unchanged _
  · simp only [bind_eq_ok, ensure_eq_ok] at h
    obtain ⟨_, hbefore, u, hu, v, hv, _, hmatch, h⟩ := h
    obtain rfl : v = t' := Except.ok.inj h
    obtain ⟨hchecks, rfl⟩ := writeOperation_eq_ok.mp hu
    obtain ⟨hops, s, hs, hothers⟩ := insertPtyTombstone_ok hv
    obtain ⟨operations, tombstones⟩ := v
    obtain rfl : operations = t.operations.set ⟨_, hchecks⟩ := hops
    obtain rfl : o.row.injectionId = injectionId := id_of_operation ho
    have hset : (t.operations.set ⟨_, hchecks⟩).get o.row.injectionId =
        some ⟨o.row.terminalize status reason now, hchecks⟩ := Table.get_set_self ho
    have hrecord : s.record = (o.row.terminalize status reason now).toPtyRecord := by
      obtain ⟨o', s', ho', hs', heq⟩ := tombstoneMatches_iff.mp hmatch
      cases hset.symm.trans ho'
      cases hs.symm.trans hs'
      exact heq
    have hcoh : o.row.toPtyRecord.Coherent →
        (o.row.terminalize status reason now).toPtyRecord.Coherent := by
      intro hc
      have hwin := (windowChecks_iff.mp (checks_iff.mp hchecks).2.2.1).2.2.2 now rfl
      exact coherent_terminalize hc hbefore hterm hallowed hwin
    refine .settled txn o ⟨_, hchecks⟩ s tombstones ho hbefore hterm hs hrecord hothers
      rfl hcoh ?_
    intro hact
    refine ⟨rfl, rfl, ?_⟩
    have hne : status ≠ .rejected := by
      intro hrej
      rw [hrej, hact] at hbefore
      cases hbefore
    exact ⟨reason, now, hstamp hne, hallowed, rfl⟩

theorem effect_retryPtyInput {t t' : PtyTables} {injectionId leaseOwner : String}
    {code : PtyInputReasonCode} {now : Timestamp}
    (h : t.retryPtyInput injectionId leaseOwner code now = .ok t') (txn : Txn) :
    Effect t txn t' := by
  simp only [PtyTables.retryPtyInput, bind_eq_ok, require_eq_ok, Option.filter_eq_some_iff,
    Bool.and_eq_true, decide_eq_true_eq] at h
  obtain ⟨o, ⟨ho, hprep, -⟩, h⟩ := h
  obtain rfl := id_of_operation ho
  split_ifs at h with hlast
  · exact effect_terminalizeInTransaction (fun hne => absurd rfl hne) h
  · exact waited_retryAt ho (by rw [hprep]; rfl) h txn

theorem effect_retryStartupPreparation {t t' : PtyTables} {injectionId : String} {now : Timestamp}
    (h : t.retryStartupPreparation injectionId now = .ok t') (txn : Txn) : Effect t txn t' := by
  simp only [PtyTables.retryStartupPreparation, bind_eq_ok, require_eq_ok,
    Option.filter_eq_some_iff, Bool.and_eq_true, decide_eq_true_eq] at h
  obtain ⟨o, ⟨ho, hprep, -⟩, h⟩ := h
  obtain rfl := id_of_operation ho
  exact waited_retryAt ho (by rw [hprep]; rfl) h txn

theorem effect_retryRuntimePtyPreparation {t t' : PtyTables} {injectionId : String}
    {now : Timestamp} (h : t.retryRuntimePtyPreparation injectionId now = .ok t') (txn : Txn) :
    Effect t txn t' := by
  simp only [PtyTables.retryRuntimePtyPreparation, bind_eq_ok, require_eq_ok,
    Option.filter_eq_some_iff, Bool.and_eq_true, decide_eq_true_eq] at h
  obtain ⟨o, ⟨ho, hprep, -⟩, h⟩ := h
  obtain rfl := id_of_operation ho
  exact waited_retryAt ho (by rw [hprep]; rfl) h txn

/-- The payload is handed out by the transaction that moves its row out of `preparing`. -/
theorem writeActuating_ok {sha256Hex : ByteArray → String} {t t' : PtyTables}
    {injectionId leaseOwner sessionId backend : String} {now : Timestamp} {payload : ByteArray}
    (h : t.writeActuating sha256Hex injectionId leaseOwner sessionId backend now = .ok (t', payload)) :
    ∃ (o : Operation) (hc : (o.row.actuate sessionId backend now).checks = true),
      t.operations.get o.row.injectionId = some o ∧ o.row.injectionId = injectionId ∧
      o.row.status = .preparing ∧ isCanonicalUuidV4 sessionId = true ∧ isBackend backend = true ∧
      t' = ⟨t.operations.set ⟨_, hc⟩, t.tombstones⟩ := by
  simp only [PtyTables.writeActuating, bind_eq_ok, require_eq_ok, ensure_eq_ok,
    Option.filter_eq_some_iff, Bool.and_eq_true, decide_eq_true_eq] at h
  obtain ⟨o, ⟨ho, ⟨⟨hprep, -⟩, -⟩, -⟩, _, -, _, hvalid, _, -, _, -, u, hu, h⟩ := h
  cases h
  obtain rfl := id_of_operation ho
  obtain ⟨hc, rfl⟩ := writeOperation_eq_ok.mp hu
  simp only [OperationRow.validateActuatingRow, Bool.and_eq_true] at hvalid
  exact ⟨o, hc, ho, rfl, hprep, hvalid.1.2, hvalid.2, rfl⟩

theorem effect_beginPtyActuating {sha256Hex : ByteArray → String} {t : PtyTables}
    {injectionId leaseOwner sessionId backend : String} {now : Timestamp} {commit : CommitOutcome} :
    Effect t (.beginPtyActuating injectionId leaseOwner sessionId backend now commit)
      (t.beginPtyActuating sha256Hex injectionId leaseOwner sessionId backend now commit).1 := by
  unfold PtyTables.beginPtyActuating
  cases hw : t.writeActuating sha256Hex injectionId leaseOwner sessionId backend now with
  | error e => exact .unchanged _
  | ok p =>
    obtain ⟨o, hc, ho, rfl, hprep, hsession, hbackend, htables⟩ := writeActuating_ok hw
    have hwait : o.row.status.isWaiting = true := by rw [hprep]; rfl
    have hbegun : Effect t (.beginPtyActuating o.row.injectionId leaseOwner sessionId backend now commit)
        p.1 := by
      rw [htables]
      exact .begun leaseOwner sessionId backend now commit o ⟨_, hc⟩ ho hprep rfl rfl
        (fun hcoh => coherent_actuate hcoh hwait hsession hbackend hc) rfl
    cases commit with
    | done => exact hbegun
    | lost => exact .unchanged _
    | ambiguous => exact hbegun

theorem effect_terminalizePtyInput {t : PtyTables} {injectionId : String}
    {status : PtyInputPublicStatus} {reason : Option PtyInputReasonCode} {now : Timestamp} :
    Effect t (.terminalizePtyInput injectionId status reason now)
      (t.terminalizePtyInput injectionId status reason now).1 := by
  unfold PtyTables.terminalizePtyInput
  dsimp only
  split
  · exact .unchanged _
  · rename_i t' ht
    cases status with
    | queued => cases ht
    | actuating => cases ht
    | injected => exact effect_terminalizeInTransaction (fun _ => rfl) ht
    | rejected => exact effect_terminalizeInTransaction (fun hne => absurd rfl hne) ht
    | indeterminate => exact effect_terminalizeInTransaction (fun _ => rfl) ht

theorem compacted_of_matches {t : PtyTables} {injectionId : String} {o : Operation}
    (hm : t.tombstoneMatches injectionId = true) (ho : t.operations.get injectionId = some o)
    (hs : o.row.status.isTerminal = true) (txn : Txn) :
    Effect t txn (t.deleteOperation injectionId) := by
  obtain ⟨o', s, ho', hget, heq⟩ := tombstoneMatches_iff.mp hm
  cases ho.symm.trans ho'
  obtain rfl := id_of_operation ho
  exact .compacted txn o s ho hs hget heq

theorem isTerminal_of_endedBefore {r : OperationRow} {cutoff : Timestamp}
    (h : r.endedBefore cutoff = true) : r.status.isTerminal = true := by
  simp only [OperationRow.endedBefore, Bool.and_eq_true] at h
  exact h.1

theorem effect_compactBefore {t t' : PtyTables} {injectionId : String} {cutoff : Timestamp}
    {deleted : Bool} (h : t.compactBefore injectionId cutoff = .ok (t', deleted)) (txn : Txn) :
    Effect t txn t' := by
  unfold PtyTables.compactBefore at h
  split_ifs at h with hended
  · simp only [bind_eq_ok, ensure_eq_ok] at h
    obtain ⟨_, hm, h⟩ := h
    cases h
    obtain ⟨o, ho, hend⟩ := (Option.any_eq_true _ _).mp hended
    exact compacted_of_matches hm ho (isTerminal_of_endedBefore hend) txn
  · cases h
    exact .unchanged _

theorem effect_compactMaintenance {t t' : PtyTables} {injectionId : String}
    {normalCutoff unclaimedCutoff : Timestamp} {deleted : Bool}
    (h : t.compactMaintenance injectionId normalCutoff unclaimedCutoff = .ok (t', deleted))
    (txn : Txn) : Effect t txn t' := by
  simp only [PtyTables.compactMaintenance, bind_eq_ok, ensure_eq_ok] at h
  obtain ⟨_, hm, _, hany, h⟩ := h
  cases h
  obtain ⟨o, ho, hcomp⟩ := (Option.any_eq_true _ _).mp hany
  have hterm : o.row.status.isTerminal = true := by
    unfold OperationRow.compactable at hcomp
    cases hp : o.row.sourcePlane <;> rw [hp] at hcomp <;> exact isTerminal_of_endedBefore hcomp
  exact compacted_of_matches hm ho hterm txn

theorem effect_markHostArtifact {t t' : PtyTables} {injectionId : String} {now : Timestamp}
    (h : t.markHostArtifact injectionId now = .ok t') :
    Effect t (.markHostArtifact injectionId now) t' := by
  unfold PtyTables.markHostArtifact at h
  cases ho : t.operations.get injectionId with
  | none =>
    simp only [ho] at h
    split_ifs at h
    cases h
    exact .unchanged _
  | some o =>
    simp only [ho] at h
    split_ifs at h with hterm hcompacted
    · obtain ⟨hc, rfl⟩ := writeOperation_eq_ok.mp h
      obtain rfl := id_of_operation ho
      exact .marked now o ⟨_, hc⟩ ho hterm.2 rfl
    · cases h
      exact .unchanged _

/-- A transaction refused leaves no trace; what a committed one did is its effect. -/
theorem effect_atomically {t : PtyTables} {ω : Type} {txn : Txn}
    {x : Except MessageStoreError (PtyTables × ω)} (hx : ∀ t' r, x = .ok (t', r) → Effect t txn t') :
    Effect t txn (atomically t x).1 :=
  fst_atomically_of_inv (P := Effect t txn) (.unchanged _) hx

theorem effect_reply {t : PtyTables} {α : Type} {tag : α → Reply} {txn : Txn}
    {x : Except MessageStoreError (PtyTables × α)} (hx : ∀ t' a, x = .ok (t', a) → Effect t txn t') :
    Effect t txn (t.reply tag x).1 := by
  refine effect_atomically fun t' r h => ?_
  cases x with
  | error e => cases h
  | ok p =>
    cases h
    exact hx p.1 p.2 rfl

theorem effect_commit {t : PtyTables} {txn : Txn} {x : Except MessageStoreError PtyTables}
    (hx : ∀ t', x = .ok t' → Effect t txn t') : Effect t txn (t.commit x).1 := by
  refine effect_atomically fun t' r h => ?_
  cases x with
  | error e => cases h
  | ok u =>
    cases h
    exact hx _ rfl

theorem effect_next (sha256Hex : ByteArray → String) (t : PtyTables) (txn : Txn) :
    Effect t txn ((transactions sha256Hex).next t txn) := by
  cases txn with
  | enqueuePtyInput req wallNow => exact effect_reply fun _ _ h => effect_admit h
  | recordHostPtyInputRejection req now unlocked =>
    exact effect_reply fun _ _ h => effect_recordHostPtyInputRejection h
  | claimPtyInput sourcePlane exactInjectionId leaseOwner now =>
    exact effect_reply fun _ _ h => effect_claimPtyInput h _
  | renewPtyInputLease injectionId leaseOwner now =>
    exact effect_reply fun _ _ h => effect_renewPtyInputLease h _
  | beginPtyActuating injectionId leaseOwner sessionId backend now commit =>
    exact effect_beginPtyActuating
  | retryPtyInput injectionId leaseOwner code now =>
    exact effect_commit fun _ h => effect_retryPtyInput h _
  | terminalizePtyInput injectionId status reason now => exact effect_terminalizePtyInput
  | retryStartupPreparation injectionId now =>
    exact effect_commit fun _ h => effect_retryStartupPreparation h _
  | retryRuntimePtyPreparation injectionId now =>
    exact effect_commit fun _ h => effect_retryRuntimePtyPreparation h _
  | compactBefore injectionId cutoff => exact effect_reply fun _ _ h => effect_compactBefore h _
  | compactMaintenance injectionId normalCutoff unclaimedCutoff =>
    exact effect_reply fun _ _ h => effect_compactMaintenance h _
  | markHostArtifact injectionId now => exact effect_commit fun _ h => effect_markHostArtifact h

end AgentsCommander.PtyInput
