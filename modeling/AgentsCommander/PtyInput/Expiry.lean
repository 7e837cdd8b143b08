import AgentsCommander.PtyInput.Soundness
import AgentsCommander.PtyInput.Runs

/-! The expiry pages in front of an enqueue. In sound tables none of them fails. -/
namespace AgentsCommander.PtyInput
open Foundation
open MessageStore (Timestamp MessageStoreError)

/-- In sound tables expiry of a row past its time goes through and touches no other row. -/
theorem expire_of_expired (sha256Hex : ByteArray → String) {t : PtyTables} (hs : Sound t)
    {o : Operation} (ho : t.operations.get o.row.injectionId = some o) {now : Timestamp}
    (he : o.row.expired now = true) :
    (∃ result, (transactions sha256Hex).answer t
      (.terminalizePtyInput o.row.injectionId .rejected (some .expired) now) = .ok (.result result)) ∧
    ∀ injectionId, injectionId ≠ o.row.injectionId →
      ((transactions sha256Hex).next t
        (.terminalizePtyInput o.row.injectionId .rejected (some .expired) now)).operations.get
        injectionId = t.operations.get injectionId := by
  simp only [OperationRow.expired, Bool.and_eq_true, decide_eq_true_eq] at he
  have hcoh := hs.coherent _ (mem_records_of_operation ho)
  have hq : o.row.queuedAt ≤ now := le_trans hcoh.queued.2.le he.2
  have hallowed : ptyInputReasonAllowedForStatus PtyStatus.rejected.toPublic (some .expired) = true :=
    rfl
  have hfrom : o.row.status.mayEndAs .rejected = true := he.1
  obtain ⟨hc, tombstones, hok⟩ := terminalizeInTransaction_of_live hs ho hfrom rfl hallowed hq
  have hnew := coherent_terminalize hcoh hfrom rfl hallowed hq
  have hload : PtyTables.loadExisting ⟨t.operations.set ⟨_, hc⟩, tombstones⟩ o.row.injectionId =
      .ok (o.row.terminalize .rejected (some .expired) now).toResult := by
    have hget : (t.operations.set ⟨_, hc⟩).get o.row.injectionId = some ⟨_, hc⟩ :=
      Table.get_set_self ho
    have hord := inOrder_of_rejected (r := (o.row.terminalize .rejected (some .expired) now).toPtyRecord)
      hnew rfl
    exact loadExisting_of_operation (o := ⟨_, hc⟩) hget hnew hord
  have hstep : t.terminalizePtyInput o.row.injectionId .rejected (some .expired) now =
      (⟨t.operations.set ⟨_, hc⟩, tombstones⟩,
        .ok (o.row.terminalize .rejected (some .expired) now).toResult) := by
    simp only [PtyTables.terminalizePtyInput, Except.bind, hok, hload]
  constructor
  · refine ⟨(o.row.terminalize .rejected (some .expired) now).toResult, ?_⟩
    simp only [Machine.answer, transactions, PtyTables.step, hstep]
    rfl
  · intro injectionId hne
    simp only [Machine.next, transactions, PtyTables.step, hstep]
    exact Table.get_set_ne t.operations (a := ⟨_, hc⟩) hne

/-- The rows still to expire stand in the table as they were read. -/
structure Expirable (now : Timestamp) (t : PtyTables) (l : List OperationRow) : Prop where
  sound : Sound t
  present : ∀ r ∈ l, r.expired now = true ∧
    ∃ o, t.operations.get r.injectionId = some o ∧ o.row = r
  distinct : (l.map (·.injectionId)).Nodup

theorem Expirable.tail {now : Timestamp} {t : PtyTables} {r : OperationRow} {l : List OperationRow}
    (h : Expirable now t (r :: l)) : Expirable now t l where
  sound := h.sound
  present q hq := h.present q (List.mem_cons_of_mem r hq)
  distinct := (List.nodup_cons.mp h.distinct).2

theorem expirable_of_mem {t : PtyTables} (hs : Sound t) {now : Timestamp} {l : List OperationRow}
    (hl : l.Nodup) (hmem : ∀ r ∈ l, r ∈ t.select (·.expired now)) : Expirable now t l := by
  have hrow : ∀ r ∈ l, ∃ o ∈ t.operations.rows, o.row = r ∧ r.expired now = true := by
    intro r hr
    have := hmem r hr
    simp only [PtyTables.select, List.mem_filter, List.mem_map] at this
    obtain ⟨⟨o, ho, rfl⟩, he⟩ := this
    exact ⟨o, ho, rfl, he⟩
  refine ⟨hs, ?_, ?_⟩
  · intro r hr
    obtain ⟨o, ho, rfl, he⟩ := hrow r hr
    exact ⟨he, o, Table.get_key ho, rfl⟩
  · apply List.Nodup.map_on _ hl
    intro r hr q hq hid
    obtain ⟨o, ho, rfl, -⟩ := hrow r hr
    obtain ⟨p, hp, rfl, -⟩ := hrow q hq
    rw [t.operations.eq_of_key_eq ho hp hid]

theorem select_nodup (t : PtyTables) (p : OperationRow → Bool) : (t.select p).Nodup := by
  have hids : ((t.operations.rows.map (·.row)).map (·.injectionId)).Nodup := by
    rw [List.map_map]
    exact t.operations.nodup
  exact (List.Nodup.of_map _ hids).filter _

section
variable {sha256Hex : ByteArray → String}

theorem sound_run {t : PtyTables} (hs : Sound t) (ts : List Txn) :
    Sound ((transactions sha256Hex).run t ts) :=
  Machine.run_inv_free (fun t txn h => sound_of_effect (effect_next sha256Hex t txn) h) hs ts

/-- One turn of an expiry page. -/
theorem expirable_turn {now : Timestamp} {unlocked : String → Bool} {t : PtyTables}
    {r : OperationRow} {l : List OperationRow} (h : Expirable now t (r :: l)) :
    (r.expiryTurn now unlocked = none ∧ Expirable now t l) ∨
      ∃ txn reply, r.expiryTurn now unlocked = some txn ∧
        (transactions sha256Hex).answer t txn = .ok reply ∧
        Expirable now ((transactions sha256Hex).next t txn) l := by
  unfold OperationRow.expiryTurn
  cases hlock : unlocked r.injectionId with
  | false => exact Or.inl ⟨rfl, h.tail⟩
  | true =>
    right
    obtain ⟨he, o, ho, rfl⟩ := h.present _ List.mem_cons_self
    obtain ⟨⟨result, hok⟩, hothers⟩ := expire_of_expired sha256Hex h.sound ho he
    refine ⟨_, _, rfl, hok, ?_⟩
    constructor
    · exact sound_of_effect (effect_next sha256Hex t _) h.sound
    · intro q hq
      have hne : q.injectionId ≠ o.row.injectionId := by
        intro heq
        exact (List.nodup_cons.mp h.distinct).1 (List.mem_map.mpr ⟨q, hq, heq⟩)
      rw [hothers _ hne]
      exact h.tail.present q hq
    · exact h.tail.distinct

variable (sha256Hex) in
theorem expirePage_ok {s : PtyStore} (hs : Sound s.tables) (now : Timestamp)
    (unlocked : String → Bool) :
    ∃ n, (s.expirePtyInputForAdmissionPage sha256Hex now unlocked).2 = .ok n := by
  have hpage : Expirable now s.tables (Keyset.wrappedPage OperationRow.expiresKey
      (s.tables.select (·.expired now)) s.cursors.admissionExpiry 64) :=
    expirable_of_mem hs (Keyset.wrappedPage_nodup (select_nodup _ _) _ _)
      fun r hr => Keyset.mem_of_mem_wrappedPage hr
  obtain ⟨n, hn, -⟩ := sweep_ok (M := transactions sha256Hex)
    (OperationRow.expiryTurn now unlocked) (fun _ => 1) (P := Expirable now)
    (fun _ _ _ h => expirable_turn h) hpage
  unfold PtyStore.expirePtyInputForAdmissionPage
  simp only [hn]
  exact ⟨_, rfl⟩

theorem expirePages_ok (now : Timestamp) (unlocked : ℕ → String → Bool) (pages : ℕ) {s : PtyStore}
    (hs : Sound s.tables) : (s.expirePages sha256Hex now unlocked pages).2 = .ok () := by
  induction pages generalizing s with
  | zero => rfl
  | succ pages ih =>
    obtain ⟨n, hn⟩ := expirePage_ok sha256Hex hs now (unlocked pages)
    obtain ⟨ts, hrun, -⟩ := expirePage_run sha256Hex s now (unlocked pages)
    have hnext : Sound (s.expirePtyInputForAdmissionPage sha256Hex now (unlocked pages)).1.tables := by
      rw [hrun]
      exact sound_run hs ts
    unfold PtyStore.expirePages
    dsimp only
    rw [hn]
    dsimp only
    split_ifs
    · rfl
    · exact ih hnext

end
end AgentsCommander.PtyInput
