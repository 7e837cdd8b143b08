import AgentsCommander.PtyInput.Actuation

/-! What the writes of the store leave in the tables, and the row updates that keep a row
readable. -/
namespace AgentsCommander.PtyInput
open Foundation
open MessageStore (Timestamp MessageStoreError)

theorem id_of_operation {t : PtyTables} {injectionId : String} {o : Operation}
    (h : t.operations.get injectionId = some o) : o.row.injectionId = injectionId :=
  (Table.get_eq_some.mp h).2

theorem id_of_tombstone {t : PtyTables} {injectionId : String} {s : Tombstone}
    (h : t.tombstones.get injectionId = some s) : s.record.injectionId = injectionId :=
  (Table.get_eq_some.mp h).2

theorem writeOperation_eq_ok {t t' : PtyTables} {r : OperationRow} :
    t.writeOperation r = .ok t' ↔ ∃ hc, t' = ⟨t.operations.set ⟨r, hc⟩, t.tombstones⟩ := by
  unfold PtyTables.writeOperation
  split_ifs with hc
  · constructor
    · intro h
      cases h
      exact ⟨hc, rfl⟩
    · intro h
      obtain ⟨-, rfl⟩ := h
      rfl
  · constructor
    · intro h
      cases h
    · intro h
      obtain ⟨hc', -⟩ := h
      exact absurd hc' hc

theorem insertOperation_ok {t t' : PtyTables} {r : OperationRow}
    (h : t.insertOperation r = .ok t') :
    ∃ hc hf, t' = ⟨t.operations.insert ⟨r, hc⟩ hf, t.tombstones⟩ := by
  unfold PtyTables.insertOperation at h
  split_ifs at h with hc hf hu
  cases h
  exact ⟨hc, hf, rfl⟩

theorem insertTombstone_ok {t t' : PtyTables} {r : PtyRecord}
    (h : t.insertTombstone r = .ok t') :
    ∃ hc hf, t' = ⟨t.operations, t.tombstones.insert ⟨r, hc⟩ hf⟩ := by
  unfold PtyTables.insertTombstone at h
  split_ifs at h with hc hf hu
  cases h
  exact ⟨hc, hf, rfl⟩

/-- After the insertion a tombstone stands under the id, old or new. -/
theorem insertPtyTombstone_ok {t t' : PtyTables} {r : PtyRecord}
    (h : t.insertPtyTombstone r = .ok t') :
    t'.operations = t.operations ∧ ∃ s, t'.tombstones.get r.injectionId = some s ∧
      ∀ x, x ∈ t'.tombstones.rows ↔ x ∈ t.tombstones.rows ∨ x = s := by
  unfold PtyTables.insertPtyTombstone at h
  split_ifs at h with hd
  · cases h
    obtain ⟨s, hs⟩ := Option.isSome_iff_exists.mp hd.2
    refine ⟨rfl, s, hs, fun x => ?_⟩
    constructor
    · exact Or.inl
    · intro hx
      rcases hx with hx | rfl
      · exact hx
      · exact Table.mem_of_get hs
  · obtain ⟨hc, hf, rfl⟩ := insertTombstone_ok h
    refine ⟨rfl, ⟨r, hc⟩, ?_, fun x => Table.mem_insert (h := hf)⟩
    rw [Table.get_insert, if_pos rfl]

theorem tombstoneMatches_iff {t : PtyTables} {injectionId : String} :
    t.tombstoneMatches injectionId = true ↔ ∃ o s, t.operations.get injectionId = some o ∧
      t.tombstones.get injectionId = some s ∧ s.record = o.row.toPtyRecord := by
  unfold PtyTables.tombstoneMatches
  cases t.operations.get injectionId <;> cases t.tombstones.get injectionId <;> simp

theorem loadExisting_ok {t : PtyTables} {injectionId : String} {x : PtyInputResult}
    (h : t.loadExisting injectionId = .ok x) :
    (∃ o, t.operations.get injectionId = some o ∧ resultFromRow o.row.toPtyRecord = .ok x) ∨
      t.operations.get injectionId = none ∧
        ∃ s, t.tombstones.get injectionId = some s ∧ resultFromRow s.record = .ok x := by
  have hmap : ∀ y : Except MessageStoreError PtyInputResult, y.map some = .ok (some x) → y = .ok x := by
    intro y hy
    cases y with
    | error e => cases hy
    | ok z => cases hy; rfl
  simp only [PtyTables.loadExisting, bind_eq_ok, require_eq_ok, PtyTables.loadPtyResult] at h
  obtain ⟨_, h, rfl⟩ := h
  cases ho : t.operations.get injectionId with
  | some o =>
    rw [ho] at h
    exact Or.inl ⟨o, rfl, hmap _ h⟩
  | none =>
    rw [ho] at h
    right
    cases hs : t.tombstones.get injectionId with
    | some s =>
      rw [hs] at h
      exact ⟨rfl, s, rfl, hmap _ h⟩
    | none =>
      rw [hs] at h
      cases h

theorem checks_iff {r : OperationRow} :
    r.checks = true ↔ r.identifierChecks = true ∧ r.valueChecks = true ∧ r.windowChecks = true ∧
      r.reasonCheck = true ∧ r.fieldChecks = true ∧ r.shapeCheck = true ∧ r.planeCheck = true ∧
      r.stageChecks = true := by
  simp only [OperationRow.checks, Bool.and_eq_true, and_assoc]

theorem windowChecks_iff {r : PtyRecord} :
    r.windowChecks = true ↔ r.issuedAt ≤ r.queuedAt ∧ r.queuedAt < r.expiresAt ∧
      (∀ at' ∈ r.actuatingAt, r.queuedAt ≤ at' ∧ at' < r.expiresAt) ∧
      ∀ end' ∈ r.terminalAt, r.queuedAt ≤ end' := by
  simp only [PtyRecord.windowChecks, Bool.and_eq_true, decide_eq_true_eq, Option.all_eq_true,
    Option.mem_def, and_assoc]

/-- What a waiting row does not have yet. -/
theorem shape_waiting {r : PtyRecord} (h : r.Coherent) (hw : r.status.isWaiting = true) :
    r.actuatingAt = none ∧ r.terminalAt = none ∧ r.selectedSessionId = none := by
  have hs := h.shape
  rw [toPublic_of_isWaiting hw] at hs
  simpa [PtyInputPublicStatus.shape, and_assoc] using hs

theorem shape_actuating {r : PtyRecord} (h : r.Coherent) (ha : r.status = .actuating) :
    r.actuatingAt.isSome = true ∧ r.terminalAt = none ∧ r.selectedSessionId.isSome = true := by
  have hs := h.shape
  rw [ha] at hs
  simpa [PtyInputPublicStatus.shape, PtyStatus.toPublic, and_assoc] using hs

theorem coherent_restatus {r : PtyRecord} (h : r.Coherent) (hw : r.status.isWaiting = true)
    {status : PtyStatus} (hs : status.isWaiting = true) :
    { r with status := status : PtyRecord }.Coherent := by
  have hpub : status.toPublic = r.status.toPublic := by
    rw [toPublic_of_isWaiting hs, toPublic_of_isWaiting hw]
  exact { h with
    allowed := by rw [hpub]; exact h.allowed
    shape := by rw [hpub]; exact h.shape }

/-- A row may go from one waiting status to another, with a reason that fits. -/
theorem coherent_waiting {r : PtyRecord} (h : r.Coherent) (hw : r.status.isWaiting = true)
    {status : PtyStatus} (hs : status.isWaiting = true) {reason : Option PtyInputReasonCode}
    (hr : reason.all (·.transient) = true) :
    { r with
      status := status
      reasonCode := reason
      reasonDetail := reason.map safeDetail : PtyRecord }.Coherent where
  __ := h
  detail := rfl
  allowed := by rw [toPublic_of_isWaiting hs]; exact hr
  shape := by
    have := h.shape
    rw [toPublic_of_isWaiting hw] at this
    rw [toPublic_of_isWaiting hs]
    exact this

theorem coherent_actuate {r : OperationRow} (h : r.toPtyRecord.Coherent)
    {sessionId backend : String} {now : Timestamp} (hw : r.status.isWaiting = true)
    (hsession : isCanonicalUuidV4 sessionId = true) (hbackend : isBackend backend = true)
    (hc : (r.actuate sessionId backend now).checks = true) :
    (r.actuate sessionId backend now).toPtyRecord.Coherent where
  __ := h
  paired := rfl
  session := by simpa [OperationRow.actuate] using hsession
  backend := by simpa [OperationRow.actuate] using hbackend
  detail := rfl
  actuating := (windowChecks_iff.mp (checks_iff.mp hc).2.2.1).2.2.1
  allowed := rfl
  shape := by
    have := (shape_waiting h hw).2.1
    simp [OperationRow.actuate, OperationRow.clear, PtyStatus.toPublic, PtyInputPublicStatus.shape, this]

theorem coherent_terminalize {r : OperationRow} (h : r.toPtyRecord.Coherent) {status : PtyStatus}
    {reason : Option PtyInputReasonCode} {now : Timestamp}
    (hs : r.status.mayEndAs status = true)
    (ht : status.isTerminal = true)
    (hr : ptyInputReasonAllowedForStatus status.toPublic reason = true) (hq : r.queuedAt ≤ now) :
    (r.terminalize status reason now).toPtyRecord.Coherent where
  __ := h
  detail := rfl
  settled := by
    intro end' he
    have : now = end' := by simpa [OperationRow.terminalize] using he
    exact this ▸ hq
  allowed := hr
  shape := by
    unfold PtyStatus.mayEndAs at hs
    split_ifs at hs with hrej
    · subst hrej
      obtain ⟨ha, -, hsel⟩ := shape_waiting h hs
      simp [OperationRow.terminalize, OperationRow.clear, PtyStatus.toPublic, PtyInputPublicStatus.shape, ha, hsel]
    · obtain ⟨ha, -, hsel⟩ := shape_actuating h (of_decide_eq_true hs)
      cases status <;> simp_all [OperationRow.terminalize, OperationRow.clear, PtyStatus.toPublic, PtyInputPublicStatus.shape, PtyStatus.isTerminal]

end AgentsCommander.PtyInput
