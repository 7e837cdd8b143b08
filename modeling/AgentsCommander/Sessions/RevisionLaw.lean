import AgentsCommander.Sessions.SelectionLaw

/-! The revision counts the selections: it names the payload that is shown. -/
namespace AgentsCommander.Sessions
open Foundation
namespace SessionManagerState
variable {s : SessionManagerState}

theorem stamped_new (epoch : Uuid) : (new epoch).roster.Stamped := ⟨rfl, rfl⟩

theorem stamped_step (h : s.roster.Valid) (hs : s.roster.Stamped) (op : ManagerOp) :
    (s.step op).1.roster.Stamped := hs.advances (advances_step h op)

theorem stamped_run (epoch : Uuid) (ops : List ManagerOp) :
    (sessionManager.run (new epoch) ops).roster.Stamped := by
  have hboth := Machine.run_inv_free (M := sessionManager)
    (P := fun s => s.roster.Valid ∧ s.roster.Stamped)
    (fun s op h => ⟨valid_step h.1 op, stamped_step h.1 h.2 op⟩)
    ⟨valid_new epoch, stamped_new epoch⟩ ops
  exact hboth.2

theorem epoch_step (h : s.roster.Valid) (op : ManagerOp) : (s.step op).1.epoch = s.epoch := by
  cases advances_step h op with
  | kept he hr hs => exact he
  | selected he hr hs => exact he

/-- Along a run the revision grows, and where it stands still so does the selection. -/
theorem selection_of_revision (h : s.roster.Valid) (ops : List ManagerOp) :
    s.revision ≤ (sessionManager.run s ops).revision ∧
      ((sessionManager.run s ops).revision = s.revision →
        (sessionManager.run s ops).selection = s.selection) := by
  induction ops generalizing s with
  | nil => exact ⟨le_rfl, fun _ => rfl⟩
  | cons op ops ih =>
    have hadv := advances_step h op
    have hle : s.revision ≤ (s.step op).1.revision := hadv.revision_le
    obtain ⟨hrest, hsame⟩ := ih (valid_step h op)
    refine ⟨hle.trans hrest, ?_⟩
    intro heq
    have hstep : (s.step op).1.revision = s.revision := le_antisymm (heq ▸ hrest) hle
    rcases hadv.revision_iff with ⟨hnext, -⟩ | ⟨-, hkept⟩
    · have hcontra : s.revision = s.revision + 1 := hstep.symm.trans hnext
      exact absurd hcontra (Nat.succ_ne_self _).symm
    · exact (hsame (heq.trans hstep.symm)).trans hkept

/-- The mutations answer no selection. -/
theorem selection_applyLifecycleMutations (s : SessionManagerState) (m : LifecycleMutations) :
    (applyLifecycleMutations s m).result.selection = none := by
  unfold applyLifecycleMutations
  dsimp only
  rw [Assoc.foldl_frame (fun a : Applied => a.result.selection) applyRemoval,
    Assoc.foldl_frame (fun a : Applied => a.result.selection) applyDetachedIntent,
    Assoc.foldl_frame (fun a : Applied => a.result.selection) applyExit,
    Assoc.foldl_frame (fun a : Applied => a.result.selection) applyFinalization]
  · intro a f
    unfold applyFinalization
    dsimp only
    split <;> rfl
  · intro a e
    unfold applyExit
    split
    · rfl
    · split
      · rfl
      · dsimp only
        split <;> rfl
  · intro a d
    unfold applyDetachedIntent
    split
    · rfl
    · split <;> rfl
  · intro a id
    unfold applyRemoval
    split <;> rfl

/-- A commit answers with the selection it has put in place. -/
theorem selection_of_committed {decision : CommitDecision} {cause : SelectionCause}
    {m : LifecycleMutations} {result : CommitResult} {p : SessionSelection}
    (h : (s.commitSelectionTransition decision cause m).2 = .ok result)
    (hp : result.selection = some p) :
    (s.commitSelectionTransition decision cause m).1.selection = p := by
  unfold commitSelectionTransition at h ⊢
  dsimp only at h ⊢
  split at h
  · cases h
  · have hdrop : ∀ t, (drop s t).selection = t.selection :=
      fun t => congrArg Roster.selection (roster_drop s t)
    dsimp only
    rw [hdrop]
    cases h
    split_ifs at hp ⊢ with hchanged
    · exact Option.some.inj hp
    · have hnone := selection_applyLifecycleMutations (s.applyCommitPromptDomains m cause) m
      cases hnone.symm.trans hp

end SessionManagerState

/-- A payload that was shown on the way of a run: the committed selection as it was read, or the
one a commit answered with. -/
inductive Published (epoch : Uuid) (ops : List ManagerOp) : SessionSelection → Prop
  | read (before : List ManagerOp) (h : before <+: ops) :
      Published epoch ops (sessionManager.run (.new epoch) before).selection
  | answered (before : List ManagerOp) (op : ManagerOp) (h : before ++ [op] <+: ops)
      (result : CommitResult) (p : SessionSelection)
      (hresult : sessionManager.answer (sessionManager.run (.new epoch) before) op =
        .committed (.ok result))
      (hp : result.selection = some p) : Published epoch ops p

/-- The revision counts the changes of mode, session and dormant exit. -/
structure RevisionStep (s s' : SessionManagerState) : Prop where
  revision_le : s.revision ≤ s'.revision
  succ_iff : s'.revision = s.revision + 1 ↔ s'.selection.key ≠ s.selection.key
  eq_iff : s'.revision = s.revision ↔ s'.selection.key = s.selection.key

/-- Each operation counts, and what was shown under one revision is one payload. -/
structure RevisionLaw (epoch : Uuid) (ops : List ManagerOp) : Prop where
  step : ∀ op, RevisionStep (sessionManager.run (.new epoch) ops)
    (sessionManager.next (sessionManager.run (.new epoch) ops) op)
  published : ∀ p q, Published epoch ops p → Published epoch ops q →
    p.epoch = q.epoch → p.revision = q.revision → p = q

theorem revisionStep_step {s : SessionManagerState} (h : s.roster.Valid) (op : ManagerOp) :
    RevisionStep s (s.step op).1 := by
  have hadv := SessionManagerState.advances_step h op
  rcases hadv.revision_iff with ⟨hnext, hkey⟩ | ⟨hrev, hsel⟩
  · have hnext : (s.step op).1.revision = s.revision + 1 := hnext
    have hkey : (s.step op).1.selection.key ≠ s.selection.key := hkey
    exact ⟨by omega, ⟨fun _ => hkey, fun _ => hnext⟩,
      ⟨fun hc => absurd (hnext.symm.trans hc) (Nat.succ_ne_self _), fun hc => absurd hc hkey⟩⟩
  · have hrev : (s.step op).1.revision = s.revision := hrev
    have hsel : (s.step op).1.selection = s.selection := hsel
    have hkey : (s.step op).1.selection.key = s.selection.key := by rw [hsel]
    exact ⟨hrev.ge, ⟨fun hc => by omega, fun hc => absurd hkey hc⟩,
      ⟨fun _ => hkey, fun _ => hrev⟩⟩

/-- Whatever was shown was the committed selection at some point. -/
theorem Published.committed {epoch : Uuid} {ops : List ManagerOp} {p : SessionSelection}
    (h : Published epoch ops p) :
    ∃ before, before <+: ops ∧ (sessionManager.run (.new epoch) before).selection = p := by
  cases h with
  | read before h => exact ⟨before, h, rfl⟩
  | answered before op h result p hresult hp =>
    refine ⟨before ++ [op], h, ?_⟩
    rw [Machine.run_append]
    cases op with
    | commitSelectionTransition decision cause mutations =>
      exact SessionManagerState.selection_of_committed (ManagerReply.committed.inj hresult) hp
    | _ => cases hresult

theorem revisionLaw_run (epoch : Uuid) (ops : List ManagerOp) : RevisionLaw epoch ops where
  step := revisionStep_step (SessionManagerState.valid_run epoch ops)
  published p q hp hq _ hrev := by
    have hsame : ∀ before after : List ManagerOp, before <+: after →
        (sessionManager.run (.new epoch) before).selection.revision =
          (sessionManager.run (.new epoch) after).selection.revision →
        (sessionManager.run (.new epoch) before).selection =
          (sessionManager.run (.new epoch) after).selection := by
      intro before after hpre hrev
      obtain ⟨rest, rfl⟩ := hpre
      have hb := (SessionManagerState.stamped_run epoch before).revision
      have ha := (SessionManagerState.stamped_run epoch (before ++ rest)).revision
      rw [Machine.run_append] at hrev ha ⊢
      have hrest := SessionManagerState.selection_of_revision
        (SessionManagerState.valid_run epoch before) rest
      exact (hrest.2 (ha.symm.trans (hrev.symm.trans hb))).symm
    obtain ⟨before, hbefore, rfl⟩ := hp.committed
    obtain ⟨after, hafter, rfl⟩ := hq.committed
    rcases List.prefix_or_prefix_of_prefix hbefore hafter with hpre | hpre
    · exact hsame before after hpre hrev
    · exact (hsame after before hpre hrev.symm).symm

end AgentsCommander.Sessions
