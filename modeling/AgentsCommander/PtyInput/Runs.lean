import AgentsCommander.PtyInput.Effects
import AgentsCommander.PtyInput.Store

/-! Every operation of the store is a run of transactions, and what all transactions keep. -/
namespace AgentsCommander.PtyInput
open Foundation
open MessageStore (Timestamp MessageStoreError)

/-- The transactions an event may consist of, by the tables it finds. -/
def PtyEvent.Runs (t : PtyTables) (txn : Txn) : PtyEvent → Prop
  | .transaction txn' => txn = txn'
  | .enqueuePtyInput req wallNow _ => txn = .enqueuePtyInput req wallNow ∨
      ∃ (now : Timestamp) (unlocked : String → Bool) (r : OperationRow),
        r.expiryTurn now unlocked = some txn
  | .recoverPtyInputStartup now unlocked => ∃ r, OperationRow.startupTurn now unlocked r = some txn
  | .recoverPtyInputRuntime active now unlocked =>
    ∃ r ∈ t.select (·.runtimeCandidate now), r.runtimeTurn active now unlocked = some txn
  | .expirePtyInputForAdmissionPage now unlocked =>
    ∃ r, OperationRow.expiryTurn now unlocked r = some txn
  | .compactPtyTerminalBefore cutoff _ _ => ∃ injectionId, txn = .compactBefore injectionId cutoff
  | .compactPtyTerminalMaintenance .. => ∃ injectionId normalCutoff unclaimedCutoff,
      txn = .compactMaintenance injectionId normalCutoff unclaimedCutoff

theorem maintains_of_startupTurn {now : Timestamp} {unlocked : String → Bool} {r : OperationRow}
    {txn : Txn} (h : r.startupTurn now unlocked = some txn) : txn.maintains = true := by
  unfold OperationRow.startupTurn at h
  split_ifs at h <;> cases h <;> rfl

theorem maintains_of_runtimeTurn {active : String → Bool} {now : Timestamp}
    {unlocked : String → Bool} {r : OperationRow} {txn : Txn}
    (h : r.runtimeTurn active now unlocked = some txn) : txn.maintains = true := by
  unfold OperationRow.runtimeTurn at h
  split_ifs at h <;> cases h <;> rfl

theorem maintains_of_expiryTurn {now : Timestamp} {unlocked : String → Bool} {r : OperationRow}
    {txn : Txn} (h : r.expiryTurn now unlocked = some txn) : txn.maintains = true := by
  unfold OperationRow.expiryTurn at h
  split_ifs at h
  cases h
  rfl

theorem maintains_of_runs {t : PtyTables} {txn : Txn} {e : PtyEvent} (h : e.Runs t txn) :
    e = .transaction txn ∨ (∃ req wallNow, txn = .enqueuePtyInput req wallNow) ∨
      txn.maintains = true := by
  cases e with
  | transaction txn' => exact Or.inl (congrArg PtyEvent.transaction h.symm)
  | enqueuePtyInput req wallNow unlocked =>
    rcases h with h | ⟨now, unlocked, r, h⟩
    · exact Or.inr (Or.inl ⟨req, wallNow, h⟩)
    · exact Or.inr (Or.inr (maintains_of_expiryTurn h))
  | recoverPtyInputStartup now unlocked =>
    obtain ⟨r, h⟩ := h
    exact Or.inr (Or.inr (maintains_of_startupTurn h))
  | recoverPtyInputRuntime active now unlocked =>
    obtain ⟨r, -, h⟩ := h
    exact Or.inr (Or.inr (maintains_of_runtimeTurn h))
  | expirePtyInputForAdmissionPage now unlocked =>
    obtain ⟨r, h⟩ := h
    exact Or.inr (Or.inr (maintains_of_expiryTurn h))
  | compactPtyTerminalBefore cutoff limit unlocked =>
    obtain ⟨injectionId, rfl⟩ := h
    exact Or.inr (Or.inr rfl)
  | compactPtyTerminalMaintenance now limit unlocked =>
    obtain ⟨injectionId, normalCutoff, unclaimedCutoff, rfl⟩ := h
    exact Or.inr (Or.inr rfl)

section
variable {sha256Hex : ByteArray → String}

theorem startupPages_run (now : Timestamp) (unlocked : String → Bool) (pages : ℕ) (t : PtyTables)
    (cursor : Option ScanKey) :
    ∃ ts, (t.startupPages sha256Hex now unlocked pages cursor).1 = (transactions sha256Hex).run t ts ∧
      ∀ txn ∈ ts, ∃ r, OperationRow.startupTurn now unlocked r = some txn := by
  induction pages generalizing t cursor with
  | zero => exact ⟨[], rfl, fun _ h => nomatch h⟩
  | succ pages ih =>
    obtain ⟨ts, hrun, hts⟩ := sweep_run (M := transactions sha256Hex)
      (OperationRow.startupTurn now unlocked) (fun _ => 1) t
      (t.startupPage now cursor)
    have hturns : ∀ txn ∈ ts, ∃ r, OperationRow.startupTurn now unlocked r = some txn := by
      intro txn htxn
      obtain ⟨r, -, hr⟩ := hts txn htxn
      exact ⟨r, hr⟩
    unfold PtyTables.startupPages
    dsimp only
    split
    · exact ⟨ts, hrun, hturns⟩
    · split_ifs
      · exact ⟨ts, hrun, hturns⟩
      · obtain ⟨us, hrun', hus⟩ := ih _ _
        refine ⟨ts ++ us, ?_, ?_⟩
        · rw [hrun', Machine.run_append, hrun]
        · intro txn htxn
          rcases List.mem_append.mp htxn with h | h
          · exact hturns txn h
          · exact hus txn h

variable (sha256Hex) in
theorem expirePage_run (s : PtyStore) (now : Timestamp) (unlocked : String → Bool) :
    ∃ ts, (s.expirePtyInputForAdmissionPage sha256Hex now unlocked).1.tables =
        (transactions sha256Hex).run s.tables ts ∧
      ∀ txn ∈ ts, ∃ r, OperationRow.expiryTurn now unlocked r = some txn := by
  obtain ⟨ts, hrun, hts⟩ := sweep_run (M := transactions sha256Hex)
    (OperationRow.expiryTurn now unlocked) (fun _ => 1) s.tables
    (Keyset.wrappedPage OperationRow.expiresKey (s.tables.select (·.expired now))
      s.cursors.admissionExpiry 64)
  refine ⟨ts, hrun, fun txn htxn => ?_⟩
  obtain ⟨r, -, hr⟩ := hts txn htxn
  exact ⟨r, hr⟩

variable (sha256Hex) in
theorem expirePages_run (now : Timestamp) (unlocked : ℕ → String → Bool) (pages : ℕ)
    (s : PtyStore) :
    ∃ ts, (s.expirePages sha256Hex now unlocked pages).1.tables =
        (transactions sha256Hex).run s.tables ts ∧
      ∀ txn ∈ ts, ∃ unlocked r, OperationRow.expiryTurn now unlocked r = some txn := by
  induction pages generalizing s with
  | zero => exact ⟨[], rfl, fun _ h => nomatch h⟩
  | succ pages ih =>
    obtain ⟨ts, hrun, hts⟩ := expirePage_run sha256Hex s now (unlocked pages)
    have hturns : ∀ txn ∈ ts, ∃ unlocked r, OperationRow.expiryTurn now unlocked r = some txn :=
      fun txn htxn => ⟨unlocked pages, hts txn htxn⟩
    unfold PtyStore.expirePages
    dsimp only
    split
    · exact ⟨ts, hrun, hturns⟩
    · split_ifs
      · exact ⟨ts, hrun, hturns⟩
      · obtain ⟨us, hrun', hus⟩ := ih _
        refine ⟨ts ++ us, ?_, ?_⟩
        · rw [hrun', Machine.run_append, hrun]
        · intro txn htxn
          rcases List.mem_append.mp htxn with h | h
          · exact hturns txn h
          · exact hus txn h

variable (sha256Hex) in
/-- An event does to the tables what some run of its transactions does. -/
theorem next_run (s : PtyStore) (e : PtyEvent) :
    ∃ ts, ((ptyStore sha256Hex).next s e).tables = (transactions sha256Hex).run s.tables ts ∧
      ∀ txn ∈ ts, e.Runs s.tables txn := by
  cases e with
  | transaction txn =>
    refine ⟨[txn], rfl, fun txn' h => ?_⟩
    exact List.mem_singleton.mp h
  | enqueuePtyInput req wallNow unlocked =>
    simp only [Machine.next, ptyStore, PtyStore.step, PtyStore.enqueuePtyInput]
    split
    · exact ⟨[], rfl, fun _ h => nomatch h⟩
    · obtain ⟨ts, hrun, hts⟩ := expirePages_run sha256Hex wallNow unlocked 8 s
      have hturns : ∀ txn ∈ ts, PtyEvent.Runs s.tables txn (.enqueuePtyInput req wallNow unlocked) :=
        fun txn htxn => Or.inr ⟨wallNow, hts txn htxn⟩
      split
      · exact ⟨ts, hrun, hturns⟩
      · refine ⟨ts ++ [.enqueuePtyInput req wallNow], ?_, ?_⟩
        · rw [Machine.run_append, ← hrun]
          rfl
        · intro txn htxn
          rcases List.mem_append.mp htxn with h | h
          · exact hturns txn h
          · exact Or.inl (List.mem_singleton.mp h)
  | recoverPtyInputStartup now unlocked => exact startupPages_run now unlocked _ s.tables none
  | recoverPtyInputRuntime active now unlocked =>
    obtain ⟨ts, hrun, hts⟩ := sweep_run (M := transactions sha256Hex)
      (OperationRow.runtimeTurn active now unlocked) (fun _ => 1) s.tables
      (Keyset.wrappedPage OperationRow.updatedKey (s.tables.select (·.runtimeCandidate now))
        s.cursors.runtimeRecovery 64)
    refine ⟨ts, hrun, fun txn htxn => ?_⟩
    obtain ⟨r, hmem, hr⟩ := hts txn htxn
    exact ⟨r, Keyset.mem_of_mem_wrappedPage hmem, hr⟩
  | expirePtyInputForAdmissionPage now unlocked => exact expirePage_run sha256Hex s now unlocked
  | compactPtyTerminalBefore cutoff limit unlocked =>
    obtain ⟨ts, hrun, hts⟩ := sweep_run (M := transactions sha256Hex)
      (fun r : OperationRow =>
        if unlocked r.injectionId then some (Txn.compactBefore r.injectionId cutoff) else none)
      Reply.compactedCount s.tables
      (Keyset.wrappedPage OperationRow.terminalKey (s.tables.select (·.endedBefore cutoff))
        s.cursors.compactBefore (min limit 64))
    refine ⟨ts, hrun, fun txn htxn => ?_⟩
    obtain ⟨r, -, hr⟩ := hts txn htxn
    split_ifs at hr
    exact ⟨r.injectionId, (Option.some.inj hr).symm⟩
  | compactPtyTerminalMaintenance now limit unlocked =>
    obtain ⟨ts, hrun, hts⟩ := sweep_run (M := transactions sha256Hex)
      (fun r : OperationRow => if unlocked r.injectionId then
        some (Txn.compactMaintenance r.injectionId (now - 7 * 24 * 60 * 60 * 1000)
          (now - 30 * 24 * 60 * 60 * 1000)) else none)
      Reply.compactedCount s.tables
      (Keyset.wrappedPage OperationRow.terminalKey
        (s.tables.select (·.compactable (now - 7 * 24 * 60 * 60 * 1000)
          (now - 30 * 24 * 60 * 60 * 1000))) s.cursors.compactMaintenance (min limit 64))
    refine ⟨ts, hrun, fun txn htxn => ?_⟩
    obtain ⟨r, -, hr⟩ := hts txn htxn
    split_ifs at hr
    exact ⟨r.injectionId, _, _, (Option.some.inj hr).symm⟩

end
end AgentsCommander.PtyInput
