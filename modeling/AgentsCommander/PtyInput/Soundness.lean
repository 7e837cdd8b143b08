import AgentsCommander.PtyInput.Persistence

/-! The invariant of the two tables: coherent rows, identities bound once, and a tombstone under
exactly the terminal rows. Sound tables find a bound identity, show it with its instants in order,
and let an end that a row's status allows go through. -/
namespace AgentsCommander.PtyInput
open Foundation
open MessageStore (Timestamp MessageStoreError)

/-- Where a record of the tables comes from, seen from one transaction earlier. -/
inductive RecordOrigin (t : PtyTables) (txn : Txn) (r : PtyRecord) : Prop where
  | kept (mem : r ∈ t.records)
  | born (coherent : r.Coherent) (inOrder : r.InOrder)
  | rewritten (o : Operation) (mem : t.operations.get r.injectionId = some o)
      (coherent : o.row.toPtyRecord.Coherent → r.Coherent)
      (inOrder : r.Coherent → r.InOrder ∨
        o.row.status = .actuating ∧ r.queuedAt = o.row.queuedAt ∧
          r.actuatingAt = o.row.actuatingAt ∧ ∃ reason now,
          txn = .terminalizePtyInput r.injectionId r.status.toPublic reason now ∧
          ptyInputReasonAllowedForStatus r.status.toPublic reason = true ∧ r.terminalAt = some now)

theorem inOrder_of_not_isTerminal {r : PtyRecord} (h : r.Coherent)
    (hs : r.status.isTerminal = false) : r.InOrder := by
  have hnone : r.terminalAt = none := by
    have := isTerminal_of_shape h.shape
    rw [isTerminal_toPublic, hs] at this
    exact Option.not_isSome_iff_eq_none.mp (by rw [this]; decide)
  intro at' _ end' hend
  rw [hnone] at hend
  cases hend

theorem inOrder_of_rejected {r : PtyRecord} (h : r.Coherent) (hs : r.status = .rejected) :
    r.InOrder := by
  have hnone : r.actuatingAt = none := by
    have := h.shape
    rw [hs] at this
    simp only [PtyStatus.toPublic, PtyInputPublicStatus.shape, Bool.and_eq_true, Bool.not_eq_true',
      Option.isSome_eq_false_iff, Option.isNone_iff_eq_none] at this
    exact this.1.1
  intro at' hat
  rw [hnone] at hat
  cases hat

theorem recordOrigin_set {t : PtyTables} {txn : Txn} {o' : Operation}
    (h : RecordOrigin t txn o'.row.toPtyRecord) {p : Operation}
    (hp : p ∈ (t.operations.set o').rows) : RecordOrigin t txn p.row.toPtyRecord := by
  obtain ⟨q, hq, rfl⟩ := List.mem_map.mp hp
  split_ifs with hk
  · exact h
  · exact .kept (mem_records.mpr (Or.inl ⟨q, hq, rfl⟩))

theorem recordOrigin_of_effect {t t' : PtyTables} {txn : Txn} (h : Effect t txn t')
    {r : PtyRecord} (hr : r ∈ t'.records) : RecordOrigin t txn r := by
  have hops : ∀ o ∈ t.operations.rows, RecordOrigin t txn o.row.toPtyRecord :=
    fun o ho => .kept (mem_records.mpr (Or.inl ⟨o, ho, rfl⟩))
  have htombs : ∀ s ∈ t.tombstones.rows, RecordOrigin t txn s.record :=
    fun s hs => .kept (mem_records.mpr (Or.inr ⟨s, hs, rfl⟩))
  cases h with
  | unchanged => exact .kept hr
  | admitted req wallNow o free status fresh coherent =>
    rcases mem_records.mp hr with ⟨p, hp, rfl⟩ | ⟨s, hs, rfl⟩
    · rcases (Table.mem_insert (h := free)).mp hp with hp | rfl
      · exact hops p hp
      · exact .born coherent (inOrder_of_not_isTerminal coherent (by rw [status]; rfl))
    · exact htombs s hs
  | refused req now unlocked s free fresh coherent inOrder =>
    rcases mem_records.mp hr with ⟨p, hp, rfl⟩ | ⟨q, hq, rfl⟩
    · exact hops p hp
    · rcases (Table.mem_insert (h := free)).mp hq with hq | rfl
      · exact htombs q hq
      · exact .born coherent inOrder
  | waited _ o o' found before after identity coherent =>
    rcases mem_records.mp hr with ⟨p, hp, rfl⟩ | ⟨s, hs, rfl⟩
    · exact recordOrigin_set (.rewritten o found coherent fun hc =>
        Or.inl (inOrder_of_not_isTerminal hc (not_isTerminal_of_isWaiting after))) hp
    · exact htombs s hs
  | begun leaseOwner sessionId backend now commit o o' found before after identity coherent =>
    rcases mem_records.mp hr with ⟨p, hp, rfl⟩ | ⟨s, hs, rfl⟩
    · exact recordOrigin_set (.rewritten o found coherent fun hc =>
        Or.inl (inOrder_of_not_isTerminal hc (by rw [after]; rfl))) hp
    · exact htombs s hs
  | settled _ o o' s tombstones found before after buried record others identity coherent stamped =>
    have hnew : RecordOrigin t txn o'.row.toPtyRecord := by
      refine .rewritten o found coherent fun hc => ?_
      unfold PtyStatus.mayEndAs at before
      split_ifs at before with hrej
      · exact Or.inl (inOrder_of_rejected hc hrej)
      · have hact := of_decide_eq_true before
        exact Or.inr ⟨hact, stamped hact⟩
    rcases mem_records.mp hr with ⟨p, hp, rfl⟩ | ⟨q, hq, rfl⟩
    · exact recordOrigin_set hnew hp
    · rcases (others q).mp hq with hq | rfl
      · exact htombs q hq
      · rw [record]
        exact hnew
  | compacted _ o s found status buried record =>
    rcases mem_records.mp hr with ⟨p, hp, rfl⟩ | ⟨q, hq, rfl⟩
    · exact hops p (List.mem_filter.mp hp).1
    · exact htombs q hq
  | marked now o o' found status row =>
    rcases mem_records.mp hr with ⟨p, hp, rfl⟩ | ⟨q, hq, rfl⟩
    · refine recordOrigin_set ?_ hp
      have : o'.row.toPtyRecord = o.row.toPtyRecord := by rw [row]
      rw [this]
      exact .kept (mem_records_of_operation found)
    · exact htombs q hq

theorem coherent_of_effect {t t' : PtyTables} {txn : Txn} (h : Effect t txn t')
    (hc : ∀ r ∈ t.records, r.Coherent) : ∀ r ∈ t'.records, r.Coherent := by
  intro r hr
  cases recordOrigin_of_effect h hr with
  | kept mem => exact hc r mem
  | born coherent _ => exact coherent
  | rewritten o mem coherent _ => exact coherent (hc _ (mem_records_of_operation mem))

/-- Which rows have tombstones, seen from one row. -/
def Buried (t : PtyTables) (injectionId : String) : Prop :=
  ∀ o, t.operations.get injectionId = some o →
    if o.row.status.isTerminal then
      ∃ s, t.tombstones.get injectionId = some s ∧ s.record = o.row.toPtyRecord
    else t.tombstones.get injectionId = none

theorem buried_set {t : PtyTables} {o o' : Operation}
    {tombstones : Table fun s : Tombstone => s.record.injectionId}
    (hb : ∀ injectionId, Buried t injectionId)
    (found : t.operations.get o'.row.injectionId = some o)
    (hothers : ∀ injectionId, injectionId ≠ o'.row.injectionId →
      tombstones.get injectionId = t.tombstones.get injectionId)
    (hself : if o'.row.status.isTerminal then
        ∃ s, tombstones.get o'.row.injectionId = some s ∧ s.record = o'.row.toPtyRecord
      else tombstones.get o'.row.injectionId = none) :
    ∀ injectionId, Buried ⟨t.operations.set o', tombstones⟩ injectionId := by
  intro injectionId p hp
  by_cases hk : injectionId = o'.row.injectionId
  · subst hk
    cases (Table.get_set_self found).symm.trans hp
    exact hself
  · have hp' := (Table.get_set_ne t.operations (a := o') hk).symm.trans hp
    have := hb injectionId p hp'
    rw [hothers injectionId hk]
    exact this

/-- One more tombstone changes the lookup of its own id only. -/
theorem get_tombstones_ne {tombstones tombstones' : Table fun s : Tombstone => s.record.injectionId}
    {s : Tombstone} (others : ∀ x, x ∈ tombstones'.rows ↔ x ∈ tombstones.rows ∨ x = s)
    {injectionId : String} (h : injectionId ≠ s.record.injectionId) :
    tombstones'.get injectionId = tombstones.get injectionId := by
  cases hget : tombstones.get injectionId with
  | some x =>
    exact Table.get_eq_some.mpr ⟨(others x).mpr (Or.inl (Table.mem_of_get hget)),
      (Table.get_eq_some.mp hget).2⟩
  | none =>
    refine Table.get_eq_none.mpr fun x hx hk => ?_
    rcases (others x).mp hx with hx | rfl
    · exact Table.get_eq_none.mp hget x hx hk
    · exact h hk.symm

theorem buried_of_effect {t t' : PtyTables} {txn : Txn} (h : Effect t txn t')
    (hb : ∀ injectionId, Buried t injectionId) : ∀ injectionId, Buried t' injectionId := by
  have hlive : ∀ {o : Operation}, t.operations.get o.row.injectionId = some o →
      o.row.status.isTerminal = false → t.tombstones.get o.row.injectionId = none := by
    intro o ho hs
    simpa [hs] using hb o.row.injectionId o ho
  cases h with
  | unchanged => exact hb
  | admitted req wallNow o free status fresh coherent =>
    intro injectionId p hp
    rw [Table.get_insert] at hp
    split_ifs at hp with hk
    · cases hp
      subst hk
      rw [status, if_neg (by decide)]
      cases hget : t.tombstones.get o.row.injectionId with
      | none => rfl
      | some s =>
        exact absurd (Or.inl (id_of_tombstone hget))
          (fresh _ ⟨_, mem_records_of_tombstone hget, rfl⟩).2
    · exact hb injectionId p hp
  | refused req now unlocked s free fresh coherent inOrder =>
    intro injectionId p hp
    have hne : injectionId ≠ s.record.injectionId := by
      rintro rfl
      exact absurd (Or.inl (id_of_operation hp))
        (fresh _ ⟨_, mem_records_of_operation hp, rfl⟩).2
    rw [Table.get_insert, if_neg hne]
    exact hb injectionId p hp
  | waited _ o o' found before after identity coherent =>
    have hid := id_of_operation found
    refine buried_set hb found (fun _ _ => rfl) ?_
    rw [not_isTerminal_of_isWaiting after]
    exact hid ▸ hlive (hid ▸ found) (not_isTerminal_of_isWaiting before)
  | begun leaseOwner sessionId backend now commit o o' found before after identity coherent =>
    have hid := id_of_operation found
    refine buried_set hb found (fun _ _ => rfl) ?_
    rw [after]
    exact hid ▸ hlive (hid ▸ found) (by rw [before]; rfl)
  | settled _ o o' s tombstones found before after buried record others identity coherent stamped =>
    refine buried_set hb found (fun injectionId hne => ?_) ?_
    · exact get_tombstones_ne others (by rw [record]; exact hne)
    · rw [if_pos after]
      exact ⟨s, buried, record⟩
  | compacted _ o s found status buried record =>
    intro injectionId p hp
    rw [Table.get_delete] at hp
    split_ifs at hp
    exact hb injectionId p hp
  | marked now o o' found status row =>
    have hrec : o'.row.toPtyRecord = o.row.toPtyRecord := by rw [row]
    have hstatus : o'.row.status = o.row.status := congrArg PtyRecord.status hrec
    refine buried_set hb found (fun _ _ => rfl) ?_
    have hself := hb _ o found
    rw [if_pos status] at hself
    rw [hrec] at hself
    rw [hstatus, if_pos status, hrec]
    exact hself

/-- What holds of the tables whatever the clocks read. -/
structure Sound (t : PtyTables) : Prop where
  /-- Every row could be shown, were its last two instants in order. -/
  coherent : ∀ r ∈ t.records, r.Coherent
  /-- Each injection id, operation and nonce is bound once over both tables. -/
  apart : Registry.Apart Identity.clash t.identities
  /-- The terminal rows, and no others, have a tombstone equal in every column. -/
  buried : ∀ injectionId, Buried t injectionId

theorem sound_empty : Sound .empty where
  coherent _ h := nomatch h
  apart _ h := nomatch h.choose_spec.1
  buried _ _ h := nomatch h

theorem sound_of_effect {t t' : PtyTables} {txn : Txn} (h : Effect t txn t') (hs : Sound t) :
    Sound t' where
  coherent := coherent_of_effect h hs.coherent
  apart := hs.apart.grows (identities_grow h)
  buried := buried_of_effect h hs.buried

theorem identity_mem {t : PtyTables} {r : PtyRecord} (h : r ∈ t.records) :
    r.identity ∈ t.identities := ⟨r, h, rfl⟩

/-- The lookup by sender and operation finds the one identity bound to them. -/
theorem lookup_of_identity {t : PtyTables} (hs : Sound t) {i : Identity} (hi : i ∈ t.identities) :
    t.lookupIdempotencyRow i.senderFqn i.opId =
      some ⟨i.injectionId, i.requestFingerprint, i.senderIncarnationFingerprint⟩ := by
  obtain ⟨r, hr, rfl⟩ := hi
  unfold PtyTables.lookupIdempotencyRow
  cases hf : t.records.find? fun q =>
      q.senderFqn = r.identity.senderFqn ∧ q.opId = r.identity.opId with
  | none =>
    have := List.find?_eq_none.mp hf r hr
    exact absurd this (by simp [PtyRecord.identity])
  | some q =>
    have hq := List.mem_of_find?_eq_some hf
    have hkeys : q.senderFqn = r.identity.senderFqn ∧ q.opId = r.identity.opId := by
      simpa using List.find?_some hf
    have heq : q.identity = r.identity := hs.apart _ (identity_mem hq) _ (identity_mem hr)
      (Or.inr ⟨hkeys.1, Or.inl hkeys.2⟩)
    rw [← heq]
    rfl

theorem loadExisting_of_operation {t : PtyTables} {injectionId : String} {o : Operation}
    (h : t.operations.get injectionId = some o) (hc : o.row.toPtyRecord.Coherent)
    (ho : o.row.toPtyRecord.InOrder) : t.loadExisting injectionId = .ok o.row.toResult := by
  simp [PtyTables.loadExisting, PtyTables.loadPtyResult, h, resultFromRow_of_coherent hc ho,
    Except.map]

/-- What is bound and in order can be shown. -/
theorem loadExisting_of_identity {t : PtyTables} (hs : Sound t)
    (ho : ∀ r ∈ t.records, r.InOrder) {i : Identity} (hi : i ∈ t.identities) :
    ∃ result, t.loadExisting i.injectionId = .ok result ∧ result.injectionId = i.injectionId := by
  cases hop : t.operations.get i.injectionId with
  | some o =>
    have hmem := mem_records_of_operation hop
    exact ⟨o.row.toResult, loadExisting_of_operation hop (hs.coherent _ hmem) (ho _ hmem),
      id_of_operation hop⟩
  | none =>
    cases htomb : t.tombstones.get i.injectionId with
    | some s =>
      have hmem := mem_records_of_tombstone htomb
      have hshow := resultFromRow_of_coherent (hs.coherent _ hmem) (ho _ hmem)
      refine ⟨s.record.toResult, ?_, id_of_tombstone htomb⟩
      simp [PtyTables.loadExisting, PtyTables.loadPtyResult, hop, htomb, hshow, Except.map]
    | none =>
      exfalso
      obtain ⟨r, hr, rfl⟩ := hi
      rcases mem_records.mp hr with ⟨o, hmem, rfl⟩ | ⟨s, hmem, rfl⟩
      · exact Table.get_eq_none.mp hop o hmem rfl
      · exact Table.get_eq_none.mp htomb s hmem rfl

theorem admit_duplicate (sha256Hex : ByteArray → String) (wallNow : Timestamp) {t : PtyTables}
    (hs : Sound t) (ho : ∀ r ∈ t.records, r.InOrder) {req : PtyInputEnqueueRequest}
    (hv : (validatePtyEnqueueRequest req).isOk = true) {i : Identity} (hi : i ∈ t.identities)
    (hsender : i.senderFqn = req.senderFqn) (hop : i.opId = req.opId)
    (hfp : i.requestFingerprint = req.requestFingerprint)
    (hinc : i.senderIncarnationFingerprint = req.senderIncarnationFingerprint) :
    ∃ result, t.admit sha256Hex req wallNow = .ok (t, ⟨result, true⟩) ∧
      result.injectionId = i.injectionId := by
  obtain ⟨result, hload, hid⟩ := loadExisting_of_identity hs ho hi
  have hl := lookup_of_identity hs hi
  rw [hsender, hop] at hl
  cases hval : validatePtyEnqueueRequest req with
  | error e =>
    rw [hval] at hv
    cases hv
  | ok instants =>
    refine ⟨result, ?_, hid⟩
    simp only [ PtyTables.admit, hval, ok_bind, PtyTables.enqueuePtyInput, hl, hfp, hinc,
      decide_true, Bool.and_self, ensure_true, hload]

theorem admit_conflict (sha256Hex : ByteArray → String) (wallNow : Timestamp) {t : PtyTables}
    (hs : Sound t) {req : PtyInputEnqueueRequest}
    (hv : (validatePtyEnqueueRequest req).isOk = true) {i : Identity} (hi : i ∈ t.identities)
    (hsender : i.senderFqn = req.senderFqn) (hop : i.opId = req.opId)
    (hfp : i.requestFingerprint ≠ req.requestFingerprint) :
    t.admit sha256Hex req wallNow = .error .idempotencyConflict := by
  have hl := lookup_of_identity hs hi
  rw [hsender, hop] at hl
  cases hval : validatePtyEnqueueRequest req with
  | error e =>
    rw [hval] at hv
    cases hv
  | ok instants =>
    simp only [ PtyTables.admit, hval, ok_bind, PtyTables.enqueuePtyInput, hl, hfp, decide_false,
      Bool.false_and, ensure_false, error_bind]

theorem reasonCheck_of_allowed {r : PtyRecord}
    (h : ptyInputReasonAllowedForStatus r.status.toPublic r.reasonCode = true) :
    r.reasonCheck = true := by
  unfold PtyRecord.reasonCheck
  cases hs : r.status <;> rw [hs] at h
  case indeterminate =>
    cases hr : r.reasonCode with
    | none => rfl
    | some code => rw [hr] at h; exact h
  all_goals exact h

/-- Ending a row as its status allows, no earlier than it was queued, breaks no constraint. -/
theorem checks_terminalize {o : Operation} (hc : o.row.toPtyRecord.Coherent) {status : PtyStatus}
    {reason : Option PtyInputReasonCode} {now : Timestamp}
    (hfrom : o.row.status.mayEndAs status = true) (hterm : status.isTerminal = true)
    (hr : ptyInputReasonAllowedForStatus status.toPublic reason = true)
    (hq : o.row.queuedAt ≤ now) : (o.row.terminalize status reason now).checks = true := by
  have hnew := coherent_terminalize hc hfrom hterm hr hq
  obtain ⟨hid, hval, hwin, -, hfield, hshape, hplane, hstage⟩ := checks_iff.mp o.checked
  have hterm' : (o.row.terminalize status reason now).status = status := rfl
  have hact := hnew.shape
  have hpair := hnew.paired
  rw [checks_iff]
  refine ⟨hid, ?_, ?_, reasonCheck_of_allowed hr, ?_, ?_, ?_, ?_⟩
  · simp only [PtyRecord.valueChecks, Bool.and_eq_true] at hval ⊢
    exact ⟨hval.1, by cases reason <;> rfl⟩
  · exact windowChecks_iff.mpr ⟨hnew.queued.1, hnew.queued.2, hnew.actuating, hnew.settled⟩
  · simp only [OperationRow.fieldChecks, Bool.and_eq_true] at hfield ⊢
    exact ⟨⟨⟨⟨⟨hfield.1.1.1.1.1, rfl⟩, rfl⟩, rfl⟩, rfl⟩, rfl⟩
  · rw [hterm'] at hact
    unfold OperationRow.shapeCheck
    rw [hterm']
    cases status <;> simp_all [PtyStatus.toPublic, PtyInputPublicStatus.shape,
      PtyStatus.isTerminal, OperationRow.terminalize, OperationRow.clear]
  · unfold OperationRow.planeCheck at hplane ⊢
    cases hp : o.row.sourcePlane with
    | hostCli =>
      simp only [hp, Bool.and_eq_true] at hplane
      simp [OperationRow.terminalize, OperationRow.clear, hp, hplane.1.1.1,
        of_decide_eq_true hplane.2]
    | containerApi =>
      simp only [hp, Bool.and_eq_true] at hplane
      simp [OperationRow.terminalize, OperationRow.clear, hp, hplane.1,
        not_isWaiting_of_isTerminal hterm]
  · have hne : status ≠ .preparing := by
      rintro rfl
      cases hterm
    simp [OperationRow.stageChecks, OperationRow.terminalize, OperationRow.clear, hterm, hne]

/-- A terminal row may be copied to its tombstone. -/
theorem tombstoneChecks_of_checks {r : OperationRow} (h : r.checks = true)
    (hc : r.toPtyRecord.Coherent) (hterm : r.status.isTerminal = true) :
    r.tombstoneChecks = true := by
  obtain ⟨hid, hval, hwin, hreason, -, -, hplane, hstage⟩ := checks_iff.mp h
  have hend : r.terminalAt.isSome = true := by
    rw [isTerminal_of_shape hc.shape, isTerminal_toPublic, hterm]
  have hshape := hc.shape
  simp only [PtyRecord.tombstoneChecks, hid, hval, hwin, hreason, hterm, hend, Bool.and_self,
    Bool.true_and, Bool.and_eq_true]
  constructor
  · unfold OperationRow.planeCheck at hplane
    cases hp : r.sourcePlane with
    | hostCli =>
      simp only [hp, Bool.and_eq_true] at hplane ⊢
      exact ⟨hplane.1.1.1, hplane.2⟩
    | containerApi =>
      simp only [hp, Bool.and_eq_true] at hplane ⊢
      exact hplane.1
  · cases hs : r.status <;> simp_all [PtyStatus.isTerminal, PtyStatus.toPublic,
      PtyInputPublicStatus.shape]

/-- The tombstone of a live row meets no other one. -/
theorem insertPtyTombstone_of_live {t : PtyTables} (hs : Sound t) {o : Operation}
    (ho : t.operations.get o.row.injectionId = some o) (hlive : o.row.status.isTerminal = false)
    (operations : Table fun o : Operation => o.row.injectionId) {r : PtyRecord}
    (hr : r.tombstoneChecks = true) (hid : r.identity = o.row.toPtyRecord.identity) :
    ∃ hf, PtyTables.insertPtyTombstone ⟨operations, t.tombstones⟩ r =
      .ok ⟨operations, t.tombstones.insert ⟨r, hr⟩ hf⟩ := by
  have hkey : r.injectionId = o.row.injectionId := congrArg Identity.injectionId hid
  have hnone : t.tombstones.get r.injectionId = none := by
    have := hs.buried o.row.injectionId o ho
    rw [hlive] at this
    rw [hkey]
    exact this
  have hunique : (t.tombstones.rows.any fun s => s.record.senderFqn = r.senderFqn &&
      (s.record.opId = r.opId || s.record.nonceSha256 = r.nonceSha256)) = false := by
    rw [List.any_eq_false]
    intro s hmem hclash
    have hclash' : Identity.clash s.record.identity r.identity := by
      simp only [Bool.and_eq_true, Bool.or_eq_true, decide_eq_true_eq] at hclash
      exact Or.inr hclash
    have heq := hs.apart _ (identity_mem (mem_records.mpr (Or.inr ⟨s, hmem, rfl⟩))) _
      (identity_mem (mem_records_of_operation ho)) (hid ▸ hclash')
    exact Table.get_eq_none.mp hnone s hmem
      ((congrArg Identity.injectionId heq).trans hkey.symm)
  refine ⟨hnone, ?_⟩
  unfold PtyTables.insertPtyTombstone
  rw [if_neg (by rw [hnone]; simp)]
  unfold PtyTables.insertTombstone
  rw [dif_pos hr, dif_pos hnone, if_neg (by rw [hunique]; simp)]

theorem not_isTerminal_of_mayEndAs {current status : PtyStatus}
    (h : current.mayEndAs status = true) : current.isTerminal = false := by
  unfold PtyStatus.mayEndAs at h
  split_ifs at h
  · exact not_isTerminal_of_isWaiting h
  · rw [of_decide_eq_true h]
    rfl

/-- In sound tables an end the status allows always goes through. -/
theorem terminalizeInTransaction_of_live {t : PtyTables} (hs : Sound t) {o : Operation}
    (ho : t.operations.get o.row.injectionId = some o) {status : PtyStatus}
    {reason : Option PtyInputReasonCode} {now : Timestamp}
    (hfrom : o.row.status.mayEndAs status = true) (hterm : status.isTerminal = true)
    (hr : ptyInputReasonAllowedForStatus status.toPublic reason = true)
    (hq : o.row.queuedAt ≤ now) :
    ∃ hc tombstones, t.terminalizeInTransaction o.row.injectionId status reason now =
      .ok ⟨t.operations.set ⟨o.row.terminalize status reason now, hc⟩, tombstones⟩ := by
  have hlive := not_isTerminal_of_mayEndAs hfrom
  have hcoh := hs.coherent _ (mem_records_of_operation ho)
  have hc := checks_terminalize hcoh hfrom hterm hr hq
  have hburial := tombstoneChecks_of_checks hc (coherent_terminalize hcoh hfrom hterm hr hq) hterm
  obtain ⟨hfree, hinsert⟩ := insertPtyTombstone_of_live hs ho hlive
    (t.operations.set ⟨_, hc⟩) hburial rfl
  have hwrite : t.writeOperation (o.row.terminalize status reason now) =
      .ok ⟨t.operations.set ⟨_, hc⟩, t.tombstones⟩ := writeOperation_eq_ok.mpr ⟨hc, rfl⟩
  have hmatch : PtyTables.tombstoneMatches
      ⟨t.operations.set ⟨_, hc⟩, t.tombstones.insert ⟨_, hburial⟩ hfree⟩
      o.row.injectionId = true := by
    refine tombstoneMatches_iff.mpr ⟨⟨_, hc⟩, ⟨_, hburial⟩, Table.get_set_self ho, ?_, rfl⟩
    exact Table.get_insert_self t.tombstones ⟨_, hburial⟩ hfree
  refine ⟨hc, t.tombstones.insert ⟨_, hburial⟩ hfree, ?_⟩
  simp only [PtyTables.terminalizeInTransaction, ho, require_some, ok_bind, hterm, ensure_true, hr,
    hlive, Bool.false_eq_true, if_false, hfrom, hwrite, hinsert, hmatch]

end AgentsCommander.PtyInput
