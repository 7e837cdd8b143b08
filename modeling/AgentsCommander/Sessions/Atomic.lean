import Mathlib.Data.Finset.Lattice.Lemmas
import AgentsCommander.Sessions.PromptDomains

/-! A commit is all or nothing: a refused one leaves every reachable state as it was, and what
a commit takes for granted once it has begun to write is so. -/
namespace AgentsCommander.Sessions
open Foundation
namespace SessionManagerState
variable {s t : SessionManagerState}

/-! The guard of a mutation that changes nothing. -/

/-- Every prompt key matches its row. -/
def Matched (s : SessionManagerState) : Prop :=
  ∀ id key, s.promptKeys.lookup id = some key → (s.sessions.lookup id).any key.matches = true

theorem matched_drop (before t : SessionManagerState) : (drop before t).Matched := by
  intro id key h
  obtain ⟨row, hrow, hkey⟩ := Option.any_eq_true .. |>.mp (of_lookup_promptKeys_drop h).2
  obtain ⟨prompt, hdrop⟩ := lookup_drop before hrow
  rw [hdrop]
  exact hkey

theorem Effect.matched {op : ManagerOp} (h : s.Effect op t) (hs : s.Matched) : t.Matched := by
  cases h with
  | kept => exact hs
  | aside hop retained writable reusable => exact hs
  | edited t h => exact matched_drop s t
  | claimed hop t h => exact matched_drop s t
  | raised t h id nonce hid => exact matched_drop s t

theorem matched_run (epoch : Uuid) (ops : List ManagerOp) :
    (sessionManager.run (new epoch) ops).Matched := by
  refine (Machine.run_inv_free (M := sessionManager) (P := fun s => s.Carried ∧ s.Matched)
    (fun s op h => ⟨h.1.step op, ?_⟩) ⟨carried_new epoch, fun id key h => by cases h⟩ ops).2
  exact (effect_step h.1.keyed h.1.tidy op).matched h.2

theorem lookup_of_mem_rows (hk : s.Keyed) {row : Session} (h : row ∈ s.rows) :
    s.sessions.lookup row.id = some row := by
  obtain ⟨id, hid⟩ := Assoc.mem_values.mp h
  rw [hk id row hid]
  exact hid

theorem turnedFresh_self (hk : s.Keyed) : turnedFresh s s = [] := by
  refine List.filter_eq_nil_iff.mpr fun row hrow h => ?_
  rw [lookup_of_mem_rows hk hrow, Option.any_some, Bool.and_not_self] at h
  cases h

theorem keep_promptKeys (hm : s.Matched) :
    Assoc.keep s.promptKeys (fun id key => (s.sessions.lookup id).any key.matches) =
      s.promptKeys := by
  refine AList.ext (List.filter_eq_self.mpr fun e he => ?_)
  exact hm e.1 e.2 (AList.mem_lookup_iff.mpr he)

theorem invalidatePromptDomains_self (hk : s.Keyed) (hm : s.Matched) :
    invalidatePromptDomains s s = s := by
  unfold invalidatePromptDomains
  simp only [turnedFresh_self hk, keep_promptKeys hm, List.filterMap_nil, List.foldl_nil,
    List.map_nil, List.toFinset_nil, Finset.union_empty]

theorem carrierChanged_self (hk : s.Keyed) {row : Session} (h : row ∈ s.rows) :
    carrierChanged s s row = false := by
  unfold carrierChanged
  rw [lookup_of_mem_rows hk h]
  simp [stableCarrierEqual_self]

/-- Dropping the guard of a mutation that came to nothing. -/
theorem touch_eq (hk : s.Keyed) (hm : s.Matched) : s.touch = s := by
  have hremoved : removedIds s s = [] := by
    refine List.filter_eq_nil_iff.mpr fun id hid h => ?_
    rw [Option.isNone_iff_eq_none, AList.lookup_eq_none] at h
    exact h (AList.mem_keys.mpr hid)
  have hretired : retired s s = s := by
    unfold retired
    dsimp only
    rw [invalidatePromptDomains_self hk hm, hremoved]
    rfl
  have hpublish : ∀ l : List Session, (∀ row ∈ l, row ∈ s.rows) →
      l.foldl (publishRow s) s = s := by
    intro l
    induction l with
    | nil => exact fun _ => rfl
    | cons row l ih =>
      intro hl
      have hrow : publishRow s s row = s := by
        unfold publishRow
        rw [carrierChanged_self hk (hl row List.mem_cons_self)]
        exact if_neg Bool.false_ne_true
      rw [List.foldl_cons, hrow]
      exact ih fun r hr => hl r (List.mem_cons_of_mem row hr)
  unfold touch
  rw [drop_eq, hretired]
  exact hpublish s.rows fun _ h => h

/-! What a commit takes for granted. Where the program would panic, there is no state. -/

/-- A transfer of a prompt; the row of its target is expected to be there. -/
def tryTransfer (s : SessionManagerState) (transfer : Uuid × PendingCreateBinding) :
    Option SessionManagerState :=
  let latest := (s.sessions.lookup transfer.1).bind (·.lastPrompt)
  (s.sessions.lookup transfer.2.sessionId).map fun _ =>
    s.editRow transfer.2.sessionId fun row => { row with lastPrompt := latest }

/-- `finalize_prompt_domain`; the row that was looked up is expected once more. -/
def tryFinalizePromptDomain (s : SessionManagerState) (id : Uuid) (predecessor : Option Uuid)
    (allowFreshReopen : Bool) : Option SessionManagerState :=
  match s.pendingPrompts.lookup id with
  | none => some s
  | some prepared =>
    let s' := { s with pendingPrompts := s.pendingPrompts.erase id }
    match s'.sessions.lookup id with
    | none => some s'
    | some row =>
      if !prepared.key.matches row then some s'
      else (s'.sessions.lookup id).map fun _ =>
        s.finalizePromptDomain id predecessor allowFreshReopen

def tryApplyCommitPromptDomains (s : SessionManagerState) (m : LifecycleMutations)
    (cause : SelectionCause) : Option SessionManagerState := do
  let predecessor := s.predecessorOf m cause
  let transferred ← m.promptTransfers.foldlM tryTransfer s
  m.finalized.foldlM (fun t id => t.tryFinalizePromptDomain id (predecessor id) (cause ≠ .restore))
    transferred

/-- The new selection; its row is expected, and no other target to be left. -/
def trySelect (a : Applied) (t : SelectionTarget) (revision : ℕ) (cause : SelectionCause)
    (decision : CommitDecision) : Option Applied :=
  match t.mode, t.id, t.status with
  | .none, none, _ => some (select a t revision cause decision)
  | .live, some id, _ =>
    ((a.state.steppedBack t).sessions.lookup id).map fun _ => select a t revision cause decision
  | .dormant, some _, some (.exited _) => some (select a t revision cause decision)
  | _, _, _ => none

/-- Everything a commit checks before it writes, and what it is to select. -/
def checkCommit (s : SessionManagerState) (decision : CommitDecision) (m : LifecycleMutations) :
    Except CommitError (SelectionTarget × ℕ) := do
  s.validateLifecycleMutations m
  let target ← s.resolveSelectionCommitTarget decision m
  let next ← if s.selectionChanged target then
    require (checkedAdd u64Max s.revision) .revisionOverflow else .ok s.revision
  ensure target.canonical .invalidCanonicalTarget
  .ok (target, next)

/-- The whole commit; none where it would panic. -/
def tryCommitSelectionTransition (s : SessionManagerState) (decision : CommitDecision)
    (cause : SelectionCause) (m : LifecycleMutations) :
    Option (SessionManagerState × Except CommitError CommitResult) :=
  match s.checkCommit decision m with
  | .error e => some (s.touch, .error e)
  | .ok (target, next) => do
    let prompted ← s.tryApplyCommitPromptDomains m cause
    let applied := applyLifecycleMutations prompted m
    let selected ← if s.selectionChanged target then trySelect applied target next cause decision
      else some applied
    some (drop s selected.finish.1, .ok selected.finish.2)

theorem commitSelectionTransition_eq (s : SessionManagerState) (decision : CommitDecision)
    (cause : SelectionCause) (m : LifecycleMutations) :
    s.commitSelectionTransition decision cause m =
      match s.checkCommit decision m with
      | .error e => (s.touch, .error e)
      | .ok (target, next) =>
        let applied := applyLifecycleMutations (s.applyCommitPromptDomains m cause) m
        let selected := if s.selectionChanged target then select applied target next cause decision
          else applied
        (drop s selected.finish.1, .ok selected.finish.2) := rfl

theorem isSome_lookup_editRow (s : SessionManagerState) (id j : Uuid) (f : Session → Session) :
    ((s.editRow id f).sessions.lookup j).isSome = (s.sessions.lookup j).isSome := by
  unfold editRow
  rw [Assoc.lookup_adjust]
  split_ifs
  · exact Option.isSome_map
  · rfl

theorem tryTransfer_eq {transfer : Uuid × PendingCreateBinding}
    (h : (s.sessions.lookup transfer.2.sessionId).isSome = true) :
    s.tryTransfer transfer = some (s.editRow transfer.2.sessionId fun row =>
      { row with lastPrompt := (s.sessions.lookup transfer.1).bind (·.lastPrompt) }) := by
  obtain ⟨row, hrow⟩ := Option.isSome_iff_exists.mp h
  unfold tryTransfer
  rw [hrow]
  rfl

theorem foldlM_tryTransfer {l : List (Uuid × PendingCreateBinding)}
    (h : ∀ transfer ∈ l, (s.sessions.lookup transfer.2.sessionId).isSome = true) :
    l.foldlM tryTransfer s = some (l.foldl (fun t transfer =>
      t.editRow transfer.2.sessionId fun row =>
        { row with lastPrompt := (t.sessions.lookup transfer.1).bind (·.lastPrompt) }) s) := by
  induction l generalizing s with
  | nil => rfl
  | cons transfer l ih =>
    rw [List.foldlM_cons, tryTransfer_eq (h transfer List.mem_cons_self)]
    refine ih fun other hother => ?_
    rw [isSome_lookup_editRow]
    exact h other (List.mem_cons_of_mem transfer hother)

theorem tryFinalizePromptDomain_eq (s : SessionManagerState) (id : Uuid)
    (predecessor : Option Uuid) (allow : Bool) :
    s.tryFinalizePromptDomain id predecessor allow =
      some (s.finalizePromptDomain id predecessor allow) := by
  unfold tryFinalizePromptDomain finalizePromptDomain
  cases s.pendingPrompts.lookup id with
  | none => rfl
  | some prepared =>
    dsimp only
    cases s.sessions.lookup id with
    | none => rfl
    | some row =>
      dsimp only
      split_ifs <;> rfl

theorem foldlM_tryFinalizePromptDomain (predecessor : Uuid → Option Uuid) (allow : Bool)
    (ids : List Uuid) (s : SessionManagerState) :
    ids.foldlM (fun t id => t.tryFinalizePromptDomain id (predecessor id) allow) s =
      some (ids.foldl (fun t id => t.finalizePromptDomain id (predecessor id) allow) s) := by
  induction ids generalizing s with
  | nil => rfl
  | cons id ids ih =>
    rw [List.foldlM_cons, tryFinalizePromptDomain_eq]
    exact ih _

/-- A transfer that passed its check has a row to go to. -/
theorem isSome_of_validate {m : LifecycleMutations} (h : s.validateLifecycleMutations m = .ok ()) :
    ∀ transfer ∈ m.promptTransfers, (s.sessions.lookup transfer.2.sessionId).isSome = true := by
  unfold validateLifecycleMutations at h
  simp only [bind_eq_ok, ensure_eq_ok, exists_and_left, exists_const] at h
  obtain ⟨-, -, -, -, -, -, -, -, _, -, -, -, htransfers⟩ := h
  intro transfer hmem
  have hone := forEach_eq_ok htransfers transfer hmem
  unfold validatePromptTransfer at hone
  obtain ⟨_, -, hone⟩ := bind_eq_ok.mp hone
  obtain ⟨target, htarget, -⟩ := bind_eq_ok.mp hone
  rw [require_eq_ok.mp htarget]
  rfl

theorem tryApplyCommitPromptDomains_eq {m : LifecycleMutations}
    (h : s.validateLifecycleMutations m = .ok ()) (cause : SelectionCause) :
    s.tryApplyCommitPromptDomains m cause = some (s.applyCommitPromptDomains m cause) := by
  unfold tryApplyCommitPromptDomains
  rw [foldlM_tryTransfer (isSome_of_validate h)]
  exact foldlM_tryFinalizePromptDomain _ _ _ _

theorem isSome_lookup_steppedBack (s : SessionManagerState) (t : SelectionTarget) (j : Uuid) :
    ((s.steppedBack t).sessions.lookup j).isSome = (s.sessions.lookup j).isSome := by
  unfold steppedBack
  cases s.selection.id with
  | none => rfl
  | some p =>
    rw [Option.elim_some]
    split_ifs
    · rfl
    · exact isSome_lookup_editRow s p j _
    · rfl

/-- A target that passed its checks, when it changes the selection. -/
theorem trySelect_eq {m : LifecycleMutations} {t : SelectionTarget} (ht : Resolved s m t)
    (hchanged : s.selectionChanged t = true) {a : Applied}
    (ha : a.state.roster = s.roster.mutate m) (revision : ℕ) (cause : SelectionCause)
    (decision : CommitDecision) :
    trySelect a t revision cause decision = some (select a t revision cause decision) := by
  cases ht with
  | kept hkeep => simp [selectionChanged] at hchanged
  | cleared => rfl
  | dormant id code hst => rfl
  | live id st hp hst hlive =>
    have hstatus : a.state.roster.status id = some st := by
      rw [ha]
      exact hst
    have hsome : (a.state.sessions.lookup id).isSome = true := by
      rw [← Option.isSome_map (f := Session.status)]
      exact Option.isSome_of_eq_some hstatus
    rw [← isSome_lookup_steppedBack a.state ⟨.live, some id, some .active⟩] at hsome
    obtain ⟨row, hrow⟩ := Option.isSome_iff_exists.mp hsome
    unfold trySelect
    dsimp only
    rw [hrow]
    rfl

/-- No commit panics. -/
theorem tryCommitSelectionTransition_eq (h : s.roster.Valid) (decision : CommitDecision)
    (cause : SelectionCause) (m : LifecycleMutations) :
    s.tryCommitSelectionTransition decision cause m =
      some (s.commitSelectionTransition decision cause m) := by
  rw [commitSelectionTransition_eq]
  unfold tryCommitSelectionTransition
  cases hchecked : s.checkCommit decision m with
  | error e => rfl
  | ok checked =>
    obtain ⟨_, hvalid, hchecked⟩ := bind_eq_ok.mp hchecked
    obtain ⟨target, hresolve, hchecked⟩ := bind_eq_ok.mp hchecked
    have hm := admits_of_validate hvalid
    have hprompts := s.roster_applyCommitPromptDomains m cause
    have happlied : (applyLifecycleMutations (s.applyCommitPromptDomains m cause) m).state.roster =
        s.roster.mutate m := by
      rw [roster_applyLifecycleMutations (hprompts ▸ h.toPlaced) (hprompts ▸ hm), hprompts]
    have hsame : checked.1 = target := by
      split_ifs at hchecked
      all_goals
        obtain ⟨rev, -, hchecked⟩ := bind_eq_ok.mp hchecked
        obtain ⟨_, -, hchecked⟩ := bind_eq_ok.mp hchecked
        cases hchecked
        rfl
    dsimp only
    rw [tryApplyCommitPromptDomains_eq hvalid cause, hsame]
    by_cases hchanged : s.selectionChanged target = true
    · have hselect := trySelect_eq (resolved_of_ok hresolve) hchanged happlied checked.2 cause
        decision
      simp only [hchanged, if_true, Option.bind_eq_bind, Option.bind_some, hselect]
    · simp only [hchanged, Option.bind_eq_bind, Option.bind_some]
      rfl

/-- In every reachable state no commit panics, and a refused one leaves the state as it was. -/
theorem commit_atomic (epoch : Uuid) (ops : List ManagerOp) (decision : CommitDecision)
    (cause : SelectionCause) (m : LifecycleMutations) :
    let s := sessionManager.run (new epoch) ops
    s.tryCommitSelectionTransition decision cause m =
        some (s.commitSelectionTransition decision cause m) ∧
      ∀ e, (s.commitSelectionTransition decision cause m).2 = .error e →
        (s.commitSelectionTransition decision cause m).1 = s := by
  have hs := carried_run epoch ops
  refine ⟨tryCommitSelectionTransition_eq hs.valid decision cause m, fun e he => ?_⟩
  rw [commit_error_eq he]
  exact touch_eq hs.keyed (matched_run epoch ops)

/-- A commit that removes one id twice. -/
theorem commit_atomic_duplicate :
    ((new 0).commitSelectionTransition .clear .restore ⟨[1, 1], [], [], [], []⟩).1 = new 0 :=
  (commit_atomic 0 [] .clear .restore ⟨[1, 1], [], [], [], []⟩).2 (.duplicate .removal) rfl

end SessionManagerState
end AgentsCommander.Sessions
