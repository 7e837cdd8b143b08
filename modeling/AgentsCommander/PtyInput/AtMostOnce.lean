import AgentsCommander.PtyInput.Persistence
import AgentsCommander.PtyInput.Runs

/-! PTY input is actuated at most once, over any interleaving of the store's transactions. -/
namespace AgentsCommander.PtyInput
open Foundation
open MessageStore (Timestamp MessageStoreError)

/-- How many payloads of this operation a reply hands out. -/
def Reply.payloadsOf (injectionId : String) : Reply → ℕ
  | .payload injectionId' _ => if injectionId' = injectionId then 1 else 0
  | _ => 0

def StoreReply.payloadsOf (injectionId : String) : StoreReply → ℕ
  | .transaction reply => reply.payloadsOf injectionId
  | .count _ | .recovered => 0

def answeredPayloads {ω : Type} (payloads : ω → ℕ) : Except MessageStoreError ω → ℕ
  | .ok reply => payloads reply
  | .error _ => 0

/-- The operation is past its waiting statuses, or only its tombstone is left. -/
structure Spent (injectionId : String) (t : PtyTables) : Prop where
  known : ∃ i ∈ t.identities, i.injectionId = injectionId
  past : ∀ o, t.operations.get injectionId = some o → o.row.status.isWaiting = false

section
variable {sha256Hex : ByteArray → String}

theorem known_of_effect {t t' : PtyTables} {txn : Txn} (h : Effect t txn t') {injectionId : String}
    (hk : ∃ i ∈ t.identities, i.injectionId = injectionId) :
    ∃ i ∈ t'.identities, i.injectionId = injectionId := by
  obtain ⟨i, hi, he⟩ := hk
  exact ⟨i, (identities_grow h).subset hi, he⟩

theorem spent_of_effect {t t' : PtyTables} {txn : Txn} (h : Effect t txn t') {injectionId : String}
    (hs : Spent injectionId t) : Spent injectionId t' := by
  refine ⟨known_of_effect h hs.known, fun o' ho' => ?_⟩
  cases ho : t.operations.get injectionId with
  | none => cases (get_none_of_effect h ho (Or.inr hs.known)).symm.trans ho'
  | some o =>
    have hpast := hs.past o ho
    have hmove := rowMove_of_effect h ho
    rw [ho'] at hmove
    cases hmove with
    | kept => exact hpast
    | fromWaiting _ before => exact absurd before (by rw [hpast]; decide)
    | ended _ before after =>
      cases hstatus : o'.row.status <;> rw [hstatus] at after <;> first | rfl | cases after
    | marked _ now before mark row => rw [row]; exact hpast

theorem payloads_reply {t : PtyTables} {injectionId : String} {α : Type} {tag : α → Reply}
    (htag : ∀ a, (tag a).payloadsOf injectionId = 0)
    (x : Except MessageStoreError (PtyTables × α)) :
    answeredPayloads (Reply.payloadsOf injectionId) (t.reply tag x).2 = 0 := by
  cases x with
  | error e => rfl
  | ok p => exact htag p.2

theorem payloads_commit {t : PtyTables} {injectionId : String}
    (x : Except MessageStoreError PtyTables) :
    answeredPayloads (Reply.payloadsOf injectionId) (t.commit x).2 = 0 := by
  cases x <;> rfl

/-- A payload is handed out by the transaction that takes its row past the boundary. -/
theorem row_of_payload {t : PtyTables} {txn : Txn} {injectionId : String}
    (h : 0 < answeredPayloads (Reply.payloadsOf injectionId)
      ((transactions sha256Hex).answer t txn)) :
    (∃ o, t.operations.get injectionId = some o ∧ o.row.status = .preparing) ∧
      ∃ o, ((transactions sha256Hex).next t txn).operations.get injectionId = some o ∧
        o.row.status = .actuating := by
  cases txn with
  | beginPtyActuating id leaseOwner sessionId backend now commit =>
    simp only [Machine.answer, Machine.next, transactions, PtyTables.step,
      PtyTables.beginPtyActuating] at h ⊢
    cases hw : t.writeActuating sha256Hex id leaseOwner sessionId backend now with
    | error e =>
      rw [hw] at h
      cases h
    | ok p =>
      obtain ⟨o, hc, ho, rfl, hprep, -, -, htables⟩ := writeActuating_ok hw
      rw [hw] at h
      cases commit with
      | lost => cases h
      | ambiguous => cases h
      | done =>
        have hid : o.row.injectionId = injectionId := by
          by_contra hne
          simp [answeredPayloads, Except.map, Reply.payloadsOf, hne] at h
        subst hid
        refine ⟨⟨o, ho, hprep⟩, ⟨_, hc⟩, ?_, rfl⟩
        rw [htables]
        exact Table.get_set_self ho
  | enqueuePtyInput => exact absurd (payloads_reply (fun _ => rfl) _) h.ne'
  | recordHostPtyInputRejection => exact absurd (payloads_reply (fun _ => rfl) _) h.ne'
  | claimPtyInput => exact absurd (payloads_reply (fun _ => rfl) _) h.ne'
  | renewPtyInputLease => exact absurd (payloads_reply (fun _ => rfl) _) h.ne'
  | compactBefore => exact absurd (payloads_reply (fun _ => rfl) _) h.ne'
  | compactMaintenance => exact absurd (payloads_reply (fun _ => rfl) _) h.ne'
  | terminalizePtyInput id status reason now =>
    simp only [Machine.answer, transactions, PtyTables.step] at h
    cases hr : (t.terminalizePtyInput id status reason now).2 <;> rw [hr] at h <;> cases h
  | retryPtyInput => exact absurd (payloads_commit _) h.ne'
  | retryStartupPreparation => exact absurd (payloads_commit _) h.ne'
  | retryRuntimePtyPreparation => exact absurd (payloads_commit _) h.ne'
  | markHostArtifact => exact absurd (payloads_commit _) h.ne'

theorem spent_of_payload {t : PtyTables} {txn : Txn} {injectionId : String}
    (h : 0 < answeredPayloads (Reply.payloadsOf injectionId)
      ((transactions sha256Hex).answer t txn)) :
    Spent injectionId ((transactions sha256Hex).next t txn) := by
  obtain ⟨-, o, ho, hact⟩ := row_of_payload h
  constructor
  · exact ⟨_, ⟨_, mem_records_of_operation ho, rfl⟩, id_of_operation ho⟩
  · intro o' ho'
    cases ho.symm.trans ho'
    rw [hact]
    rfl

theorem no_payload_of_spent {t : PtyTables} {txn : Txn} {injectionId : String}
    (hs : Spent injectionId t) :
    answeredPayloads (Reply.payloadsOf injectionId) ((transactions sha256Hex).answer t txn) = 0 := by
  by_contra hne
  obtain ⟨⟨o, ho, hprep⟩, -⟩ := row_of_payload (Nat.pos_of_ne_zero hne)
  have hpast := hs.past o ho
  rw [hprep] at hpast
  cases hpast

theorem payloads_le_one (injectionId : String) (x : Except MessageStoreError StoreReply) :
    answeredPayloads (StoreReply.payloadsOf injectionId) x ≤ 1 := by
  have hle : ∀ reply : Reply, reply.payloadsOf injectionId ≤ 1 := by
    intro reply
    cases reply <;> simp only [Reply.payloadsOf] <;> first | omega | (split_ifs <;> omega)
  cases x with
  | error e => exact Nat.zero_le 1
  | ok reply =>
    cases reply with
    | transaction reply => exact hle reply
    | count n => exact Nat.zero_le 1
    | recovered => exact Nat.zero_le 1

theorem payloads_map_transaction (injectionId : String) (x : Except MessageStoreError Reply) :
    answeredPayloads (StoreReply.payloadsOf injectionId) (x.map .transaction) =
      answeredPayloads (Reply.payloadsOf injectionId) x := by
  cases x <;> rfl

/-- Of the operations only `begin_pty_actuating` itself hands out a payload. -/
theorem transaction_of_payload {s : PtyStore} {e : PtyEvent} {injectionId : String}
    (h : 0 < answeredPayloads (StoreReply.payloadsOf injectionId)
      ((ptyStore sha256Hex).answer s e)) :
    ∃ txn, e = .transaction txn ∧ 0 < answeredPayloads (Reply.payloadsOf injectionId)
      ((transactions sha256Hex).answer s.tables txn) := by
  have hnone : ∀ {α : Type} (x : Except MessageStoreError α) (tag : α → StoreReply),
      (∀ a, (tag a).payloadsOf injectionId = 0) →
      ¬ 0 < answeredPayloads (StoreReply.payloadsOf injectionId) (x.map tag) := by
    intro α x tag htag
    cases x with
    | error e => exact lt_irrefl 0
    | ok a => exact fun hpos => (htag a ▸ hpos : (0 : ℕ) < 0).false
  cases e with
  | transaction txn =>
    refine ⟨txn, rfl, ?_⟩
    rw [← payloads_map_transaction]
    exact h
  | enqueuePtyInput req wallNow unlocked =>
    exfalso
    simp only [Machine.answer, ptyStore, PtyStore.step, PtyStore.enqueuePtyInput,
      payloads_map_transaction] at h
    split at h
    · cases h
    · split at h
      · cases h
      · exact absurd (payloads_reply (fun _ => rfl) _) h.ne'
  | recoverPtyInputStartup now unlocked => exact absurd h (hnone _ _ fun _ => rfl)
  | recoverPtyInputRuntime active now unlocked => exact absurd h (hnone _ _ fun _ => rfl)
  | expirePtyInputForAdmissionPage now unlocked => exact absurd h (hnone _ _ fun _ => rfl)
  | compactPtyTerminalBefore cutoff limit unlocked => exact absurd h (hnone _ _ fun _ => rfl)
  | compactPtyTerminalMaintenance now limit unlocked => exact absurd h (hnone _ _ fun _ => rfl)

theorem spent_of_run {t : PtyTables} {injectionId : String} (hs : Spent injectionId t)
    (ts : List Txn) : Spent injectionId ((transactions sha256Hex).run t ts) :=
  Machine.run_inv_free (fun u txn h => spent_of_effect (effect_next sha256Hex u txn) h) hs ts

theorem spent_of_next {s : PtyStore} {injectionId : String} (hs : Spent injectionId s.tables)
    (e : PtyEvent) : Spent injectionId ((ptyStore sha256Hex).next s e).tables := by
  obtain ⟨ts, hrun, -⟩ := next_run sha256Hex s e
  rw [hrun]
  exact spent_of_run hs ts

/-- Whatever is left of the row satisfies the predicate. -/
structure Remains (injectionId : String) (P : OperationRow → Prop) (t : PtyTables) : Prop where
  known : ∃ i ∈ t.identities, i.injectionId = injectionId
  row : ∀ o, t.operations.get injectionId = some o → P o.row

/-- A predicate of terminal rows lasts, unless the mark of the artifact may break it. -/
theorem remains_of_effect {t t' : PtyTables} {txn : Txn} {injectionId : String}
    {P : OperationRow → Prop} (hterm : ∀ r, P r → r.status.isTerminal = true)
    (hmark : (∀ now, txn ≠ .markHostArtifact injectionId now) ∨
      ∀ r now, P r → P { r with hostArtifactAt := some now })
    (h : Effect t txn t') (hr : Remains injectionId P t) : Remains injectionId P t' := by
  refine ⟨known_of_effect h hr.known, fun o' ho' => ?_⟩
  cases ho : t.operations.get injectionId with
  | none => cases (get_none_of_effect h ho (Or.inr hr.known)).symm.trans ho'
  | some o =>
    have hrow := hr.row o ho
    have hend := hterm o.row hrow
    have hmove := rowMove_of_effect h ho
    rw [ho'] at hmove
    cases hmove with
    | kept => exact hrow
    | fromWaiting _ before => cases (not_isTerminal_of_isWaiting before).symm.trans hend
    | ended _ before after =>
      rw [before] at hend
      cases hend
    | marked _ now before mark row =>
      rw [row]
      rcases hmark with hmark | hmark
      · exact absurd mark (id_of_operation ho ▸ hmark now)
      · exact hmark o.row now hrow

theorem remains_of_next {s : PtyStore} {e : PtyEvent} {injectionId : String}
    {P : OperationRow → Prop} (hterm : ∀ r, P r → r.status.isTerminal = true)
    (hmark : (∀ now, e ≠ .transaction (.markHostArtifact injectionId now)) ∨
      ∀ r now, P r → P { r with hostArtifactAt := some now })
    (hr : Remains injectionId P s.tables) :
    Remains injectionId P ((ptyStore sha256Hex).next s e).tables := by
  obtain ⟨ts, hrun, hts⟩ := next_run sha256Hex s e
  rw [hrun]
  refine Machine.run_inv (fun t txn h hok => remains_of_effect hterm hok
    (effect_next sha256Hex t txn) h) hr (Machine.along_of_forall (fun txn htxn _ => ?_) _)
  rcases hmark with hmark | hmark
  · left
    intro now he
    subst he
    rcases maintains_of_runs (hts _ htxn) with he | ⟨req, wallNow, he⟩ | he
    · exact hmark now he
    · cases he
    · cases he
  · exact Or.inr hmark

end

/-- The row without the mark of its artifact. -/
def OperationRow.unmarked (r : OperationRow) : OperationRow := { r with hostArtifactAt := none }

/-- What the store promises of a run from the empty tables. -/
structure ActuationLaw (sha256Hex : ByteArray → String) (es : List PtyEvent) : Prop where
  /-- The payload of an operation is handed out at most once. -/
  once : ∀ injectionId, (((ptyStore sha256Hex).answers .empty es).map
    (answeredPayloads (StoreReply.payloadsOf injectionId))).sum ≤ 1
  /-- A row once actuating is never queued, preparing or in retry again. -/
  noReturn : ∀ pre post, es = pre ++ post → ∀ injectionId o,
    ((ptyStore sha256Hex).run .empty pre).tables.operations.get injectionId = some o →
    o.row.status = .actuating → ∀ o',
    ((ptyStore sha256Hex).run .empty es).tables.operations.get injectionId = some o' →
    o'.row.status.isWaiting = false
  /-- A terminal row does not change while it lasts, the mark of its artifact aside. -/
  frozen : ∀ pre post, es = pre ++ post → ∀ injectionId o,
    ((ptyStore sha256Hex).run .empty pre).tables.operations.get injectionId = some o →
    o.row.status.isTerminal = true → ∀ o',
    ((ptyStore sha256Hex).run .empty es).tables.operations.get injectionId = some o' →
    o'.row.unmarked = o.row.unmarked ∧
      ((∀ now, .transaction (.markHostArtifact injectionId now) ∉ post) → o'.row = o.row)

theorem known_of_operation {t : PtyTables} {injectionId : String} {o : Operation}
    (ho : t.operations.get injectionId = some o) :
    ∃ i ∈ t.identities, i.injectionId = injectionId :=
  ⟨_, ⟨_, mem_records_of_operation ho, rfl⟩, id_of_operation ho⟩

theorem actuationLaw (sha256Hex : ByteArray → String) (es : List PtyEvent) :
    ActuationLaw sha256Hex es where
  once injectionId := by
    refine Machine.total_le_one (fun s : PtyStore => Spent injectionId s.tables)
      (answeredPayloads (StoreReply.payloadsOf injectionId)) ?_ ?_ (Machine.along_true PtyStore.empty es)
    · intro s e _
      refine ⟨payloads_le_one injectionId _, fun hpos => ?_⟩
      obtain ⟨txn, rfl, htxn⟩ := transaction_of_payload hpos
      exact spent_of_payload htxn
    · intro s e _ hs
      refine ⟨?_, spent_of_next hs e⟩
      by_contra hne
      obtain ⟨txn, rfl, htxn⟩ := transaction_of_payload (Nat.pos_of_ne_zero hne)
      exact htxn.ne' (no_payload_of_spent hs)
  noReturn pre post hes injectionId o ho hact o' ho' := by
    subst hes
    have hs : Spent injectionId ((ptyStore sha256Hex).run .empty pre).tables := by
      refine ⟨known_of_operation ho, fun p hp => ?_⟩
      cases ho.symm.trans hp
      rw [hact]
      rfl
    rw [Machine.run_append] at ho'
    exact (Machine.run_inv_free (P := fun s : PtyStore => Spent injectionId s.tables)
      (fun s e h => spent_of_next h e) hs post).past o' ho'
  frozen pre post hes injectionId o ho hterm o' ho' := by
    subst hes
    rw [Machine.run_append] at ho'
    have hstart : ∀ P : OperationRow → Prop, P o.row →
        Remains injectionId P ((ptyStore sha256Hex).run .empty pre).tables := by
      intro P hP
      refine ⟨known_of_operation ho, fun p hp => ?_⟩
      cases ho.symm.trans hp
      exact hP
    constructor
    · have hkeep := Machine.run_inv_free (M := ptyStore sha256Hex)
        (P := fun s => Remains injectionId (·.unmarked = o.row.unmarked) s.tables)
        (fun s e h => remains_of_next
          (fun r hr => (congrArg (·.status) hr : r.status = o.row.status) ▸ hterm)
          (Or.inr fun r now hr => hr) h)
        (hstart (·.unmarked = o.row.unmarked) rfl) post
      exact hkeep.row o' ho'
    · intro hmark
      have hunmarked : (ptyStore sha256Hex).Along
          (fun _ e => ∀ now, e ≠ .transaction (.markHostArtifact injectionId now))
          ((ptyStore sha256Hex).run .empty pre) post := by
        refine Machine.along_of_forall (fun e he s now heq => ?_) _
        subst heq
        exact hmark now he
      have hkeep := Machine.run_inv (P := fun s => Remains injectionId (· = o.row) s.tables)
        (fun s e h hok => remains_of_next (P := (· = o.row)) (fun r hr => hr ▸ hterm) (Or.inl hok) h)
        (hstart (· = o.row) rfl) hunmarked
      exact hkeep.row o' ho'

end AgentsCommander.PtyInput
