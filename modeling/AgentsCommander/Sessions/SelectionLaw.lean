import AgentsCommander.Sessions.Sweep

/-! Who is selected, over every run of the session manager. -/
namespace AgentsCommander.Sessions
open Foundation

/-- The sweep of exited rows. -/
def ManagerOp.sweeps : ManagerOp → Bool
  | .removeExitedSessions _ _ => true
  | _ => false

namespace SessionManagerState
variable {s : SessionManagerState}

theorem moved_of_eq {t : SessionManagerState} (h : t.roster = s.roster) :
    s.roster.Moved t.roster := by
  rw [h]
  exact .kept

/-- Every operation but the sweep makes one move of the roster. -/
theorem moved_step (h : s.roster.Valid) {op : ManagerOp} (hop : op.sweeps = false) :
    s.roster.Moved (s.step op).1.roster := by
  cases op with
  | createPendingSession binding request token createdAt =>
    exact moved_createPendingSession binding request token createdAt
  | restorePendingRecord persisted binding token createdAt =>
    exact moved_restorePendingRecord persisted binding token createdAt
  | rollbackPendingCreate binding => exact moved_rollbackPendingCreate binding
  | markIdle id => exact moved_editPublic id (fun _ => rfl) turn_idle
  | markBusy id => exact moved_editPublic id (fun _ => rfl) turn_busy
  | preparePtyInputBoundary id expectedBackend authorityId authorityBackend verified =>
    exact moved_preparePtyInputBoundary id expectedBackend authorityId authorityBackend verified
  | commitSelectionTransition decision cause mutations =>
    exact moved_commitSelectionTransition h decision cause mutations
  | removeExitedSessions ids classify => cases hop
  | refreshCoordinatorFlags coordinator =>
    exact moved_of_eq (roster_editAllPublic_same s fun _ => rfl)
  | refreshGitReposForSessions updates =>
    exact moved_of_eq (roster_refreshGitReposForSessions s updates)
  | setGitReposIfGen id repos expectedGen =>
    apply moved_of_eq
    apply roster_editPublic_same
    intro row
    split_ifs <;> rfl
  | applyFinalizedOwnedReplacementCarry carry =>
    exact moved_of_eq (roster_applyFinalizedOwnedReplacementCarry s carry)
  | raiseHand id updatedAt nonce => exact moved_of_eq (roster_raiseHand s id updatedAt nonce)
  | rollbackRaise receipt => exact moved_of_eq (roster_rollbackRaise s receipt)
  | clearCommunicationIfKind id kind =>
    apply moved_of_eq
    apply roster_editPublic_same
    intro row
    split_ifs <;> rfl
  | setBlockedMenu id message updatedAt =>
    exact moved_of_eq (roster_setMessage s .blockedMenu id message updatedAt)
  | setCoManaged id message updatedAt =>
    exact moved_of_eq (roster_setMessage s .coManaged id message updatedAt)
  | restoreCommunication id communication =>
    exact moved_of_eq (roster_restoreCommunication s id communication)
  | setLastPrompt id prompt => exact moved_of_eq (roster_setLastPrompt s id prompt)
  | installRetainedPrompts entries => exact .kept
  | disablePromptReuse => exact .kept
  | forgetRetainedPrompt key => exact .kept
  | blockRetainedPromptDomains keys => exact .kept
  | initializePendingPrompt binding key initial continuation fresh allowRetainedLookup =>
    exact moved_of_eq (roster_initializePendingPrompt s binding key initial continuation fresh
      allowRetainedLookup)
  | seedIfAbsent id key prompt => exact moved_of_eq (roster_seedIfAbsent s id key prompt)
  | installPendingCodingAgentBinding pending binding validId validSeed =>
    exact moved_of_eq (roster_installPendingCodingAgentBinding s pending binding validId validSeed)
  | refreshFailedBindingRecipes recipes =>
    exact moved_of_eq (roster_refreshFailedBindingRecipes s recipes)
  | setPendingAgentKind | setPendingTrustedConfiguredSpawn | setPendingProfileMetadata
  | setPendingResolvedClaudeProjectsDir | setPendingEffectiveShellArgs | renamePendingSession
  | setPendingIsRootAgent | setPendingStartFreshOnRestore | setPendingCommunication =>
    exact moved_of_eq (roster_updatePending_same s _ fun _ => rfl)
  | _ => exact moved_of_eq (roster_editPublic_same s _ fun _ => rfl)

theorem advances_step (h : s.roster.Valid) (op : ManagerOp) :
    s.roster.Advances (s.step op).1.roster := by
  cases hop : op.sweeps with
  | false => exact (moved_step h hop).advances
  | true =>
    cases op with
    | removeExitedSessions ids classify =>
      exact (swept_removeExitedSessions h ids classify).advances
    | _ => cases hop

theorem valid_step (h : s.roster.Valid) (op : ManagerOp) : (s.step op).1.roster.Valid := by
  cases hop : op.sweeps with
  | false => exact h.moved (moved_step h hop)
  | true =>
    cases op with
    | removeExitedSessions ids classify =>
      exact h.swept (swept_removeExitedSessions h ids classify)
    | _ => cases hop

theorem valid_new (epoch : Uuid) : (new epoch).roster.Valid where
  nodup := List.nodup_nil
  mem_order id := by
    constructor
    · intro h
      cases h
    · intro h
      cases h
  pending id h := by cases h
  represented := by
    apply Roster.Represented.none rfl rfl
    intro j h
    cases h

theorem valid_run (epoch : Uuid) (ops : List ManagerOp) :
    (sessionManager.run (new epoch) ops).roster.Valid :=
  Machine.run_inv_free (M := sessionManager) (P := fun s => s.roster.Valid)
    (fun _ op h => valid_step h op) (valid_new epoch) ops

/-- What the committed selection says of the rows, and the order of the rows. -/
structure SelectionInvariant (s : SessionManagerState) : Prop where
  none : s.selection.mode = .none →
    ∀ id row, s.sessions.lookup id = some row → row.status ≠ .active
  live : s.selection.mode = .live → ∃ id row, s.selection.id = some id ∧
    s.sessions.lookup id = some row ∧ s.isPending id = false ∧ row.status = .active ∧
      ∀ id' row', s.sessions.lookup id' = some row' → row'.status = .active → id' = id
  dormant : s.selection.mode = .dormant → ∃ id row code, s.selection.id = some id ∧
    s.selection.status = some (.exited code) ∧ s.sessions.lookup id = some row ∧
      row.status = .exited code ∧
        ∀ id' row', s.sessions.lookup id' = some row' → row'.status ≠ .active
  nodup : s.order.Nodup
  mem_order : ∀ id, id ∈ s.order ↔ (s.sessions.lookup id).isSome

theorem exists_row {id : Uuid} {st : SessionStatus} (h : s.roster.status id = some st) :
    ∃ row, s.sessions.lookup id = some row ∧ row.status = st :=
  Option.map_eq_some_iff.mp h

theorem selectionInvariant_of_valid (h : s.roster.Valid) : s.SelectionInvariant := by
  have hno : (∀ j, s.roster.status j ≠ some .active) →
      ∀ id row, s.sessions.lookup id = some row → row.status ≠ .active := by
    intro hno id row hrow hactive
    exact hno id (hactive ▸ status_roster hrow)
  have horder : ∀ id, id ∈ s.order ↔ (s.sessions.lookup id).isSome := by
    intro id
    rw [show id ∈ s.order ↔ (s.roster.status id).isSome from h.mem_order id]
    exact iff_of_eq (congrArg (· = true) Option.isSome_map)
  cases h.represented with
  | none hm hi hactive =>
    have hm : s.selection.mode = .none := hm
    constructor
    · exact fun _ => hno hactive
    · exact fun hl => nomatch hm.symm.trans hl
    · exact fun hd => nomatch hm.symm.trans hd
    · exact h.nodup
    · exact horder
  | live id hm hi hrow honly =>
    have hm : s.selection.mode = .live := hm
    obtain ⟨row, hlookup, hstatus⟩ := exists_row hrow
    have hpublic : s.isPending id = false := by
      apply h.toPlaced.not_pending
      rw [hrow]
      exact fun hc => nomatch hc
    constructor
    · exact fun hn => nomatch hm.symm.trans hn
    · refine fun _ => ⟨id, row, hi, hlookup, hpublic, hstatus, ?_⟩
      intro id' row' hrow' hactive
      exact honly id' (hactive ▸ status_roster hrow')
    · exact fun hd => nomatch hm.symm.trans hd
    · exact h.nodup
    · exact horder
  | dormant id code hm hi hs hrow hactive =>
    have hm : s.selection.mode = .dormant := hm
    obtain ⟨row, hlookup, hstatus⟩ := exists_row hrow
    constructor
    · exact fun hn => nomatch hm.symm.trans hn
    · exact fun hl => nomatch hm.symm.trans hl
    · exact fun _ => ⟨id, row, code, hi, hs, hlookup, hstatus, hno hactive⟩
    · exact h.nodup
    · exact horder

/-! Exit is permanent. -/

/-- A sweep asked to remove the session selected so far selects another one in its place. -/
def Reselects (s s' : SessionManagerState) (op : ManagerOp) (id : Uuid) : Prop :=
  ∃ ids classify, op = .removeExitedSessions ids classify ∧ (∃ p ∈ ids, s.selection.id = some p) ∧
    s'.selection.shows id ∧ s'.revision = s.revision + 1

/-- What an operation leaves of the exits, and of the sessions it may show. -/
structure ExitLaw (s s' : SessionManagerState) (op : ManagerOp) : Prop where
  kept : ∀ id row row' code, s.sessions.lookup id = some row → row.status = .exited code →
    s'.sessions.lookup id = some row' → row'.status = .exited code ∨ s.Reselects s' op id
  live : ∀ id row, s'.selection.shows id → s.sessions.lookup id = some row →
    row.status.isExited = false ∨ s.Reselects s' op id

theorem exitLaw_step (h : s.roster.Valid) (op : ManagerOp) : ExitLaw s (s.step op).1 op := by
  have hexit : ∀ id code, s.roster.status id = some (.exited code) →
      (s.step op).1.roster.status id = none ∨
        (s.step op).1.roster.status id = some (.exited code) ∨
          s.Reselects (s.step op).1 op id := by
    intro id code hbefore
    cases hop : op.sweeps with
    | false => exact (h.exited_of_moved (moved_step h hop) hbefore).imp_right .inl
    | true =>
      cases op with
      | removeExitedSessions ids classify =>
        have hswept := swept_removeExitedSessions h ids classify
        rcases Roster.exited_of_swept hswept hbefore with hnone | hkept | ⟨hshow, hnext, hasked⟩
        · exact .inl hnone
        · exact .inr (.inl hkept)
        · exact .inr (.inr ⟨ids, classify, rfl, hasked, hshow, hnext⟩)
      | _ => cases hop
  constructor
  · intro id row row' code hrow hcode hrow'
    have hafter := status_roster hrow'
    rcases hexit id code (hcode ▸ status_roster hrow) with hnone | hkept | hreselects
    · cases hnone.symm.trans hafter
    · exact .inl (Option.some.inj (hafter.symm.trans hkept))
    · exact .inr hreselects
  · intro id row hshow hrow
    cases hs : row.status with
    | exited code =>
      have hactive := (valid_step h op).represented.active_of_shows hshow
      rcases hexit id code (hs ▸ status_roster hrow) with hnone | hkept | hreselects
      · cases hnone.symm.trans hactive
      · cases hkept.symm.trans hactive
      · exact .inr hreselects
    | _ => exact .inl rfl

end SessionManagerState

/-- The selection represents the rows, after any operations. -/
theorem selectionInvariant_run (epoch : Uuid) (ops : List ManagerOp) :
    (sessionManager.run (.new epoch) ops).SelectionInvariant :=
  SessionManagerState.selectionInvariant_of_valid (SessionManagerState.valid_run epoch ops)

theorem exitLaw_run (epoch : Uuid) (ops : List ManagerOp) (op : ManagerOp) :
    (sessionManager.run (.new epoch) ops).ExitLaw
      (sessionManager.next (sessionManager.run (.new epoch) ops) op) op :=
  SessionManagerState.exitLaw_step (SessionManagerState.valid_run epoch ops) op

/-- Exit is permanent whatever the operation. -/
def ExitIsPermanent : Prop :=
  ∀ (epoch : Uuid) (ops : List ManagerOp) (op : ManagerOp) (s s' : SessionManagerState),
    s = sessionManager.run (.new epoch) ops → s' = sessionManager.next s op →
    (∀ id row row' code, s.sessions.lookup id = some row → row.status = .exited code →
      s'.sessions.lookup id = some row' → row'.status = .exited code) ∧
    ∀ id row, s'.selection.shows id → s.sessions.lookup id = some row →
      row.status.isExited = false

/-- Two sessions come back dormant, and the first is selected. -/
def dormantPair : List ManagerOp :=
  let request : NewSession := ⟨"sh", [], "/", none, none, [], false, .localProcess⟩
  [.createPendingSession ⟨1, 1⟩ request 1 0, .createPendingSession ⟨2, 2⟩ request 2 0,
    .commitSelectionTransition (.dormant ⟨1, false, false⟩) .restore
      ⟨[], [], [], [.dormant ⟨1, 1⟩ ⟨1, false, false⟩ 0, .dormant ⟨2, 2⟩ ⟨2, false, false⟩ 0], []⟩]

/-- The sweep takes the first, and shows the second as live. -/
theorem not_exitIsPermanent : ¬ ExitIsPermanent := by
  intro h
  have hlive := (h 0 dormantPair (.removeExitedSessions [1] fun _ _ => .foreign) _ _ rfl rfl).2 2
  have hrow : ((sessionManager.run (.new 0) dormantPair).sessions.lookup 2).map
      (·.status.isExited) = some true := by
    decide +kernel
  obtain ⟨row, hlookup, hexited⟩ := Option.map_eq_some_iff.mp hrow
  have hfalse := hlive row (by decide +kernel) hlookup
  rw [hexited] at hfalse
  cases hfalse

end AgentsCommander.Sessions
