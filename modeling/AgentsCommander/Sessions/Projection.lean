import AgentsCommander.Sessions.Manager
import AgentsCommander.Sessions.Moves

/-! The state of the session manager read as a roster: each operation is one of its moves. -/
namespace AgentsCommander.Sessions
open Foundation
namespace SessionManagerState

def roster (s : SessionManagerState) : Roster where
  status id := (s.sessions.lookup id).map (·.status)
  pending := s.isPending
  order := s.order
  epoch := s.epoch
  revision := s.revision
  selection := s.selection

variable {s : SessionManagerState}

theorem status_roster {id : Uuid} {row : Session} (h : s.sessions.lookup id = some row) :
    s.roster.status id = some row.status := by
  rw [roster]
  dsimp only
  rw [h]
  rfl

theorem status_roster_eq_none {id : Uuid} :
    s.roster.status id = none ↔ s.sessions.lookup id = none := by
  rw [roster]
  dsimp only
  rw [Option.map_eq_none_iff]

theorem roster_editRow (s : SessionManagerState) (id : Uuid) {f : Session → Session}
    {g : SessionStatus → SessionStatus} (h : ∀ row, (f row).status = g row.status) :
    (s.editRow id f).roster = s.roster.adjust id g := by
  have hstatus : ∀ j, ((s.editRow id f).sessions.lookup j).map (·.status) =
      if j = id then ((s.sessions.lookup j).map (·.status)).map g
      else (s.sessions.lookup j).map (·.status) := by
    intro j
    rw [editRow]
    dsimp only
    rw [Assoc.lookup_adjust]
    split_ifs
    · rw [Option.map_map, Option.map_map]
      congr 1
      funext row
      exact h row
    · rfl
  unfold roster Roster.adjust
  simp only [hstatus]
  rfl

theorem adjust_id (r : Roster) (id : Uuid) : r.adjust id (fun st => st) = r := by
  unfold Roster.adjust
  simp only [Option.map_id', ite_self]

theorem roster_editRow_same (s : SessionManagerState) (id : Uuid) {f : Session → Session}
    (h : ∀ row, (f row).status = row.status) : (s.editRow id f).roster = s.roster := by
  rw [roster_editRow (g := fun st => st) s id h, adjust_id]

/-! The write guard leaves the roster alone. -/

theorem roster_invalidatePromptDomains (before s : SessionManagerState) :
    (invalidatePromptDomains before s).roster = s.roster := by
  have hrows := Assoc.foldl_frame (fun m : AList fun _ : Uuid => Session =>
      fun id => (m.lookup id).map (·.status))
    (fun m row => Assoc.adjust m row.id fun r => { r with lastPrompt := none })
    (fun m row => by
      funext id
      rw [Assoc.lookup_adjust]
      split_ifs
      · rw [Option.map_map]
        rfl
      · rfl) (turnedFresh before s) s.sessions
  unfold roster invalidatePromptDomains
  simp only
  exact congrArg (fun st => Roster.mk st _ _ _ _ _) hrows

theorem roster_bumpVersion (s : SessionManagerState) (id : Uuid) :
    (s.bumpVersion id).roster = s.roster := by
  unfold bumpVersion
  split <;> rfl

theorem roster_retireRow (s : SessionManagerState) (id : Uuid) :
    (s.retireRow id).roster = s.roster := roster_bumpVersion s id

theorem roster_publishRow (before s : SessionManagerState) (row : Session) :
    (publishRow before s row).roster = s.roster := by
  unfold publishRow
  split
  · split <;> rfl
  · rfl

theorem roster_drop (before s : SessionManagerState) : (drop before s).roster = s.roster := by
  unfold drop
  dsimp only
  rw [Assoc.foldl_frame roster _ (roster_publishRow before),
    Assoc.foldl_frame roster _ roster_retireRow, roster_invalidatePromptDomains]

theorem roster_write (s : SessionManagerState) (f : SessionManagerState → SessionManagerState) :
    (s.write f).roster = (f s).roster := roster_drop s (f s)

theorem roster_touch (s : SessionManagerState) : s.touch.roster = s.roster := roster_drop s s

theorem roster_editPublic_same (s : SessionManagerState) (id : Uuid) {f : Session → Session}
    (h : ∀ row, (f row).status = row.status) : (s.editPublic id f).roster = s.roster := by
  rw [editPublic, roster_write]
  split
  · rfl
  · exact roster_editRow_same s id h

theorem roster_updatePending_same (s : SessionManagerState) (binding : PendingCreateBinding)
    {f : Session → Session} (h : ∀ row, (f row).status = row.status) :
    (s.updatePending binding f).roster = s.roster := by
  rw [updatePending, roster_write]
  split
  · exact roster_editRow_same s _ h
  · rfl

/-! Creation, rollback and the turn. -/

theorem roster_insertPending (s : SessionManagerState) {row : Session} (nonce : Uuid)
    (h : row.status = .running) : (s.insertPending row nonce).roster = s.roster.enter row.id := by
  have hstatus : ∀ j, ((s.insertPending row nonce).sessions.lookup j).map (·.status) =
      if j = row.id then some .running else (s.sessions.lookup j).map (·.status) := by
    intro j
    rw [insertPending]
    dsimp only
    rw [Assoc.lookup_insert_eq]
    split_ifs
    · rw [Option.map_some, h]
    · rfl
  have hpending : ∀ j, (s.insertPending row nonce).isPending j = (j = row.id || s.isPending j) := by
    intro j
    rw [isPending, insertPending]
    dsimp only
    rw [Assoc.lookup_insert_eq]
    split_ifs with hj
    · simp [hj]
    · simp [hj, isPending]
  unfold roster Roster.enter
  simp only [hstatus]
  rw [show (s.insertPending row nonce).isPending = fun j => decide (j = row.id) || s.isPending j from
    funext hpending]
  rfl

theorem retireCodingAgentBinding_eq (s : SessionManagerState) (id : Uuid) :
    ∃ bindings seeds origins, s.retireCodingAgentBinding id = { s with
      codingAgentBindings := bindings, bindingSeeds := seeds, bindingOrigins := origins } := by
  unfold retireCodingAgentBinding
  split
  · exact ⟨s.codingAgentBindings, s.bindingSeeds, s.bindingOrigins, rfl⟩
  · dsimp only
    split
    · exact ⟨_, _, _, rfl⟩
    · exact ⟨_, s.bindingSeeds, s.bindingOrigins, rfl⟩

theorem roster_retireCodingAgentBinding (s : SessionManagerState) (id : Uuid) :
    (s.retireCodingAgentBinding id).roster = s.roster := by
  obtain ⟨bindings, seeds, origins, h⟩ := s.retireCodingAgentBinding_eq id
  rw [h]
  rfl

/-- A row and its claim go. -/
theorem roster_eq_leave (s : SessionManagerState) (id : Uuid) {t : SessionManagerState}
    (hs : t.sessions = s.sessions.erase id) (hp : t.pendingCreate = s.pendingCreate.erase id)
    (ho : t.order = s.order.filter (· ≠ id)) (he : t.epoch = s.epoch)
    (hr : t.revision = s.revision) (hsel : t.selection = s.selection) :
    t.roster = s.roster.leave [id] := by
  have hstatus : ∀ j, (t.sessions.lookup j).map (·.status) =
      if j ∈ [id] then none else (s.sessions.lookup j).map (·.status) := by
    intro j
    rw [hs, Assoc.lookup_erase_eq]
    simp only [List.mem_singleton]
    split_ifs <;> rfl
  have hpending : t.isPending = fun j => s.isPending j && decide (j ∉ [id]) := by
    funext j
    rw [isPending, hp, Assoc.lookup_erase_eq]
    split_ifs with hj
    · simp [hj]
    · simp [hj, isPending]
  unfold roster Roster.leave
  simp only [hstatus, hpending, ho, he, hr, hsel, List.mem_singleton]

theorem moved_createPendingSession (binding : PendingCreateBinding) (r : NewSession)
    (token : Uuid) (createdAt : ℤ) :
    s.roster.Moved (s.createPendingSession binding r token createdAt).1.roster := by
  unfold createPendingSession
  split_ifs with hused
  · rw [roster_touch]
    exact .kept
  · split
    · rw [roster_touch]
      exact .kept
    · rw [roster_write, roster_insertPending _ _ rfl]
      apply Roster.Moved.entered
      rw [Option.not_isSome_iff_eq_none] at hused
      exact status_roster_eq_none.mpr hused

theorem moved_restorePendingRecord (persisted : Session) (binding : PendingCreateBinding)
    (token : Uuid) (createdAt : ℤ) :
    s.roster.Moved (s.restorePendingRecord persisted binding token createdAt).1.roster := by
  unfold restorePendingRecord
  split_ifs with hused
  · rw [roster_touch]
    exact .kept
  · split
    · rw [roster_touch]
      exact .kept
    · rw [roster_write, roster_insertPending _ _ rfl]
      apply Roster.Moved.entered
      rw [Option.not_isSome_iff_eq_none] at hused
      exact status_roster_eq_none.mpr hused

theorem isPending_of_bindingMatches {binding : PendingCreateBinding}
    (h : s.bindingMatches binding = true) : s.isPending binding.sessionId = true := by
  rw [bindingMatches, decide_eq_true_eq] at h
  rw [isPending, h]
  rfl

theorem moved_of_erased {t : SessionManagerState} {id : Uuid} (hid : s.isPending id = true)
    (hs : t.sessions = s.sessions.erase id) (hp : t.pendingCreate = s.pendingCreate.erase id)
    (ho : t.order = s.order.filter (· ≠ id)) (he : t.epoch = s.epoch)
    (hr : t.revision = s.revision) (hsel : t.selection = s.selection) :
    s.roster.Moved t.roster := by
  rw [roster_eq_leave s id hs hp ho he hr hsel]
  exact .rolledBack id hid

theorem moved_rollbackPendingCreate (binding : PendingCreateBinding) :
    s.roster.Moved (s.rollbackPendingCreate binding).1.roster := by
  unfold rollbackPendingCreate
  split_ifs with hmatch hgone
  · rw [roster_touch]
    exact .kept
  · rw [roster_touch]
    exact .kept
  · rw [Bool.not_eq_true, Bool.not_eq_false'] at hmatch
    rw [roster_write]
    obtain ⟨bindings, seeds, origins, h⟩ := retireCodingAgentBinding_eq { s with
      pendingCreate := s.pendingCreate.erase binding.sessionId
      pendingPrompts := s.pendingPrompts.erase binding.sessionId
      sessions := s.sessions.erase binding.sessionId } binding.sessionId
    dsimp only
    rw [h]
    exact moved_of_erased (isPending_of_bindingMatches hmatch) rfl rfl rfl rfl rfl rfl

/-- A turn moves only a public row, and only between running and idle. -/
theorem moved_editPublic (id : Uuid) {f : Session → Session} {g : SessionStatus → SessionStatus}
    (h : ∀ row, (f row).status = g row.status)
    (hg : ∀ st, g st = st ∨ (st.turning ∧ (g st).turning)) :
    s.roster.Moved (s.editPublic id f).roster := by
  rw [editPublic, roster_write]
  split_ifs with hp
  · exact .kept
  · rw [roster_editRow s id h]
    exact .turned id g hg (Bool.not_eq_true _ ▸ hp)

theorem turn_idle (st : SessionStatus) :
    (if st = .running then .idle else st) = st ∨
      (st.turning ∧ (if st = .running then SessionStatus.idle else st).turning) := by
  by_cases h : st = .running
  · rw [if_pos h]
    exact .inr ⟨.inl h, .inr rfl⟩
  · exact .inl (if_neg h)

theorem turn_busy (st : SessionStatus) :
    (if st = .idle then .running else st) = st ∨
      (st.turning ∧ (if st = .idle then SessionStatus.running else st).turning) := by
  by_cases h : st = .idle
  · rw [if_pos h]
    exact .inr ⟨.inr h, .inl rfl⟩
  · exact .inl (if_neg h)

theorem moved_preparePtyInputBoundary (id : Uuid) (expectedBackend : SessionBackendKind)
    (authorityId : Uuid) (authorityBackend : SessionBackendKind)
    (verified : Session → Session → Bool) :
    s.roster.Moved (s.preparePtyInputBoundary id expectedBackend authorityId authorityBackend
      verified).1.roster := by
  have hrefused : s.roster.Moved s.touch.roster := by
    rw [roster_touch]
    exact .kept
  unfold preparePtyInputBoundary
  dsimp only
  split_ifs with hp
  · exact hrefused
  · rw [Bool.or_eq_true, not_or, Bool.not_eq_true] at hp
    split
    · split_ifs
      · exact hrefused
      · rw [roster_write, roster_editRow (g := fun st => if st = .idle then .running else st) s id
          fun row => rfl]
        exact .turned id _ turn_busy hp.1
    · exact hrefused

/-! Operations on what the roster does not show. -/

theorem roster_editAllPublic_same (s : SessionManagerState) {f : Session → Session}
    (h : ∀ row, (f row).status = row.status) : (s.editAllPublic f).roster = s.roster := by
  rw [editAllPublic, roster_write]
  exact Assoc.foldl_frame roster _ (fun t id => roster_editRow_same t id h) _ s

theorem roster_refreshGitReposForSessions (s : SessionManagerState)
    (updates : List (String × List SessionRepo)) :
    (s.refreshGitReposForSessions updates).roster = s.roster := by
  rw [refreshGitReposForSessions, roster_write]
  apply Assoc.foldl_frame roster
  intro t update
  split
  · apply roster_editRow_same
    intro row
    split_ifs <;> rfl
  · rfl

theorem roster_applyFinalizedOwnedReplacementCarry (s : SessionManagerState)
    (c : FinalizedOwnedCarry) :
    (s.applyFinalizedOwnedReplacementCarry c).1.roster = s.roster := by
  unfold applyFinalizedOwnedReplacementCarry
  split_ifs
  · rfl
  · exact roster_touch s
  · rw [roster_write]
    exact roster_editRow_same s _ fun row => rfl

theorem roster_raiseHand (s : SessionManagerState) (id : Uuid) (updatedAt : String)
    (nonce : Uuid) : (s.raiseHand id updatedAt nonce).1.roster = s.roster := by
  unfold raiseHand
  split_ifs
  · exact roster_touch s
  · split
    · exact roster_touch s
    · split_ifs
      · exact roster_touch s
      · have h : (s.write fun s => s.editRow id fun row =>
            { row with communication := some ⟨.raiseHand, true, updatedAt, none⟩ }).roster =
            s.roster := by
          rw [roster_write]
          exact roster_editRow_same s id fun row => rfl
        exact h

theorem roster_rollbackRaise (s : SessionManagerState) (receipt : RaiseMutationReceipt) :
    (s.rollbackRaise receipt).1.roster = s.roster := by
  unfold rollbackRaise
  split_ifs
  · rw [roster_write]
    exact roster_editRow_same s _ fun row => rfl
  · exact roster_touch s

theorem roster_setMessage (s : SessionManagerState) (kind : SessionCommunicationKind) (id : Uuid)
    (message updatedAt : String) : (s.setMessage kind id message updatedAt).roster = s.roster := by
  apply roster_editPublic_same
  intro row
  split_ifs <;> rfl

theorem roster_restoreCommunication (s : SessionManagerState) (id : Uuid)
    (communication : SessionCommunication) :
    (s.restoreCommunication id communication).roster = s.roster := by
  unfold restoreCommunication
  split_ifs
  · rfl
  · apply roster_editPublic_same
    intro row
    split_ifs <;> rfl

theorem roster_setLastPrompt (s : SessionManagerState) (id : Uuid) (prompt : String) :
    (s.setLastPrompt id prompt).roster = s.roster := by
  rw [setLastPrompt, roster_write]
  have hrow := roster_editRow_same s id (f := fun row => { row with lastPrompt := some prompt })
    fun row => rfl
  split_ifs
  · rfl
  · dsimp only
    split
    · exact hrow
    · exact hrow

theorem roster_initializePendingPrompt (s : SessionManagerState) (binding : PendingCreateBinding)
    (key : Option PromptKey) (initial : Option String)
    (continuation fresh allowRetainedLookup : Bool) :
    (s.initializePendingPrompt binding key initial continuation fresh allowRetainedLookup).1.roster =
      s.roster := by
  unfold initializePendingPrompt
  split
  · exact roster_touch s
  · cases s.sessions.lookup binding.sessionId with
    | none => exact roster_touch s
    | some row =>
      rw [roster_write]
      dsimp only
      cases key.filter (·.matches row) with
      | none => exact roster_editRow_same s binding.sessionId fun row => rfl
      | some key => exact roster_editRow_same s binding.sessionId fun row => rfl

theorem roster_seedIfAbsent (s : SessionManagerState) (id : Uuid) (key : PromptKey)
    (prompt : String) : (s.seedIfAbsent id key prompt).1.roster = s.roster := by
  unfold seedIfAbsent
  split_ifs
  · exact roster_touch s
  · rw [roster_write]
    exact roster_editRow_same s id (f := fun row => { row with lastPrompt := some prompt })
      fun row => rfl

theorem roster_installPendingCodingAgentBinding (s : SessionManagerState)
    (pending : PendingCreateBinding) (binding : Option CodingAgentBinding)
    (validId validSeed : String → Bool) :
    (s.installPendingCodingAgentBinding pending binding validId validSeed).1.roster = s.roster := by
  unfold installPendingCodingAgentBinding
  split_ifs
  · exact roster_touch s
  · split
    · exact roster_touch s
    · split_ifs
      · exact roster_touch s
      · exact roster_touch s
      · exact roster_touch s
      · rw [roster_write]
        rfl

theorem roster_refreshFailedBindingRecipes (s : SessionManagerState)
    (recipes : List (CodingAgentBinding × String)) :
    (s.refreshFailedBindingRecipes recipes).roster = s.roster := by
  rw [refreshFailedBindingRecipes, roster_write]
  apply Assoc.foldl_frame roster
  intro t r
  rfl

end SessionManagerState
end AgentsCommander.Sessions
