import AgentsCommander.Sessions.Carrier

/-! What each operation writes under the guard. -/
namespace AgentsCommander.Sessions
open Foundation

/-- The operations that change who owns a prompt domain, or what is retained in one. -/
def ManagerOp.claims : ManagerOp → Bool
  | .commitSelectionTransition .. | .setLastPrompt .. | .seedIfAbsent .. => true
  | _ => false

/-- The operations on the retained prompts alone, which take no guard. -/
def ManagerOp.aside : ManagerOp → Bool
  | .installRetainedPrompts _ | .disablePromptReuse | .forgetRetainedPrompt _
  | .blockRetainedPromptDomains _ => true
  | _ => false

namespace SessionManagerState
variable {s t u : SessionManagerState}

/-- The part of the state the guard looks after, with the retained prompts. -/
def carrierFrame (s : SessionManagerState) :=
  (s.sessions, s.promptKeys, s.retainedPrompts, s.pendingPrompts, s.promptSeedBlocked,
    s.carrierVersions, s.raiseNonces)

/-- A mutation that leaves the prompt domains alone. -/
structure Edited (s t : SessionManagerState) : Prop extends s.Written t where
  promptKeys : t.promptKeys = s.promptKeys
  retainedPrompts : t.retainedPrompts = s.retainedPrompts

/-- What an operation does to the state. -/
inductive Effect (s : SessionManagerState) (op : ManagerOp) : SessionManagerState → Prop
  | kept : Effect s op s
  | aside (hop : op.aside = true) (retained : AList fun _ : PromptKey => RetainedPrompt)
      (writable reusable : Bool) : Effect s op { s with
        retainedPrompts := retained
        promptsWritable := writable
        promptsReusable := reusable }
  | edited (t : SessionManagerState) (h : s.Edited t) : Effect s op (drop s t)
  | claimed (hop : op.claims = true) (t : SessionManagerState) (h : s.Written t) :
      Effect s op (drop s t)
  | raised (t : SessionManagerState) (h : s.Edited t) (id nonce : Uuid) (hid : id ∈ t.sessions) :
      Effect s op { drop s t with raiseNonces := (drop s t).raiseNonces.insert id nonce }

theorem Written.editRow (h : s.Written t) (id : Uuid) {f : Session → Session}
    (hf : ∀ row, (f row).id = row.id) : s.Written (t.editRow id f) where
  versions := h.versions
  keyed := h.keyed.adjust rfl id hf
  beside := ⟨h.beside.pendingPrompts, h.beside.promptSeedBlocked, h.beside.raiseNonces⟩

theorem Written.congr (h : s.Written t) (hs : u.sessions = t.sessions)
    (hp : u.pendingPrompts = t.pendingPrompts) (hb : u.promptSeedBlocked = t.promptSeedBlocked)
    (hv : u.carrierVersions = t.carrierVersions) (hr : u.raiseNonces = t.raiseNonces) :
    s.Written u where
  versions := hv.trans h.versions
  keyed := by
    unfold Keyed
    rw [hs]
    exact h.keyed
  beside := by
    constructor
    · rw [hp]
      exact h.beside.pendingPrompts
    · rw [hb]
      exact h.beside.promptSeedBlocked
    · rw [hr]
      exact h.beside.raiseNonces

theorem Edited.editRow (h : s.Edited t) (id : Uuid) {f : Session → Session}
    (hf : ∀ row, (f row).id = row.id) : s.Edited (t.editRow id f) :=
  ⟨h.toWritten.editRow id hf, h.promptKeys, h.retainedPrompts⟩

theorem Edited.congr (h : s.Edited t) (hf : u.carrierFrame = t.carrierFrame) : s.Edited u := by
  simp only [carrierFrame, Prod.mk.injEq] at hf
  obtain ⟨hs, hk, hr, hp, hb, hv, hn⟩ := hf
  exact ⟨h.toWritten.congr hs hp hb hv hn, hk.trans h.promptKeys, hr.trans h.retainedPrompts⟩

theorem Edited.refl (hk : s.Keyed) (hb : s.Tidy) : s.Edited s where
  versions := rfl
  keyed := hk
  beside := hb.toBeside
  promptKeys := rfl
  retainedPrompts := rfl

theorem Written.insertPending (h : s.Written t) (row : Session) (nonce : Uuid) :
    s.Written (t.insertPending row nonce) where
  versions := h.versions
  keyed := by
    intro id r hr
    rw [SessionManagerState.insertPending] at hr
    dsimp only at hr
    rw [Assoc.lookup_insert_eq] at hr
    split_ifs at hr with hid
    · cases hr
      exact hid.symm
    · exact h.keyed id r hr
  beside := ⟨h.beside.pendingPrompts, h.beside.promptSeedBlocked, h.beside.raiseNonces⟩

theorem keyed_erase {id : Uuid} (h : t.Keyed) (hs : u.sessions = t.sessions.erase id) : u.Keyed := by
  intro j row hrow
  rw [hs, Assoc.lookup_erase_eq] at hrow
  split_ifs at hrow
  exact h j row hrow

/-- A row goes, and with it some of what is kept beside it. -/
theorem Written.eraseRow (h : s.Written t) {id : Uuid} (hs : u.sessions = t.sessions.erase id)
    (hp : ∀ j ∈ u.pendingPrompts, j ∈ t.pendingPrompts)
    (hb : ∀ j ∈ u.promptSeedBlocked, j ∈ t.promptSeedBlocked)
    (hr : ∀ j ∈ u.raiseNonces, j ∈ t.raiseNonces) (hv : u.carrierVersions = t.carrierVersions) :
    s.Written u where
  versions := hv.trans h.versions
  keyed := keyed_erase h.keyed hs
  beside := by
    constructor
    · exact fun j hj => h.beside.pendingPrompts j (hp j hj)
    · exact fun j hj => h.beside.promptSeedBlocked j (hb j hj)
    · exact fun j hj => h.beside.raiseNonces j (hr j hj)

theorem Edited.retireCodingAgentBinding (h : s.Edited t) (id : Uuid) :
    s.Edited (t.retireCodingAgentBinding id) := by
  obtain ⟨bindings, seeds, origins, heq⟩ := t.retireCodingAgentBinding_eq id
  rw [heq]
  exact h.congr rfl

theorem Written.retireCodingAgentBinding (h : s.Written t) (id : Uuid) :
    s.Written (t.retireCodingAgentBinding id) := by
  obtain ⟨bindings, seeds, origins, heq⟩ := t.retireCodingAgentBinding_eq id
  rw [heq]
  exact h.congr rfl rfl rfl rfl rfl

section
variable (hk : s.Keyed) (hb : s.Tidy) {op : ManagerOp}
include hk hb

theorem effect_touch : s.Effect op s.touch := .edited s (.refl hk hb)

theorem effect_editPublic (id : Uuid) {f : Session → Session} (hf : ∀ row, (f row).id = row.id) :
    s.Effect op (s.editPublic id f) := by
  apply Effect.edited
  dsimp only
  split_ifs
  · exact .refl hk hb
  · exact (Edited.refl hk hb).editRow id hf

theorem effect_updatePending (binding : PendingCreateBinding) {f : Session → Session}
    (hf : ∀ row, (f row).id = row.id) : s.Effect op (s.updatePending binding f) := by
  apply Effect.edited
  dsimp only
  split_ifs
  · exact (Edited.refl hk hb).editRow _ hf
  · exact .refl hk hb

theorem effect_createPendingSession (binding : PendingCreateBinding) (r : NewSession)
    (token : Uuid) (createdAt : ℤ) :
    s.Effect op (s.createPendingSession binding r token createdAt).1 := by
  unfold createPendingSession
  split_ifs
  · exact effect_touch hk hb
  · split
    · exact effect_touch hk hb
    · next next hnext =>
      have hnum : s.Edited { s with nextNumber := next } := (Edited.refl hk hb).congr rfl
      exact .edited _ ⟨hnum.toWritten.insertPending _ _, rfl, rfl⟩

theorem effect_restorePendingRecord (persisted : Session) (binding : PendingCreateBinding)
    (token : Uuid) (createdAt : ℤ) :
    s.Effect op (s.restorePendingRecord persisted binding token createdAt).1 := by
  unfold restorePendingRecord
  split_ifs
  · exact effect_touch hk hb
  · split
    · exact effect_touch hk hb
    · next next hnext =>
      have hnum : s.Edited { s with nextNumber := next } := (Edited.refl hk hb).congr rfl
      exact .edited _ ⟨hnum.toWritten.insertPending _ _, rfl, rfl⟩

theorem effect_rollbackPendingCreate (binding : PendingCreateBinding) :
    s.Effect op (s.rollbackPendingCreate binding).1 := by
  unfold rollbackPendingCreate
  split_ifs
  · exact effect_touch hk hb
  · exact effect_touch hk hb
  · have herased : s.Edited { s with
        pendingCreate := s.pendingCreate.erase binding.sessionId
        pendingPrompts := s.pendingPrompts.erase binding.sessionId
        sessions := s.sessions.erase binding.sessionId } := by
      refine ⟨(Edited.refl hk hb).toWritten.eraseRow rfl ?_ ?_ ?_ rfl, rfl, rfl⟩
      · exact fun j hj => (mem_of_mem_erase hj).1
      · exact fun j hj => hj
      · exact fun j hj => hj
    exact .edited _ ((herased.retireCodingAgentBinding _).congr rfl)

theorem effect_preparePtyInputBoundary (id : Uuid) (expectedBackend : SessionBackendKind)
    (authorityId : Uuid) (authorityBackend : SessionBackendKind)
    (verified : Session → Session → Bool) :
    s.Effect op (s.preparePtyInputBoundary id expectedBackend authorityId authorityBackend
      verified).1 := by
  unfold preparePtyInputBoundary
  dsimp only
  split_ifs
  · exact effect_touch hk hb
  · split
    · split_ifs
      · exact effect_touch hk hb
      · exact .edited _ ((Edited.refl hk hb).editRow id fun _ => rfl)
    · exact effect_touch hk hb

theorem effect_editAllPublic {f : Session → Session} (hf : ∀ row, (f row).id = row.id) :
    s.Effect op (s.editAllPublic f) := by
  apply Effect.edited
  apply List.foldlRecOn (motive := fun u => s.Edited u)
  · exact .refl hk hb
  · intro u hu id _
    exact hu.editRow id hf

theorem effect_refreshGitReposForSessions (updates : List (String × List SessionRepo)) :
    s.Effect op (s.refreshGitReposForSessions updates) := by
  apply Effect.edited
  apply List.foldlRecOn (motive := fun u => s.Edited u)
  · exact .refl hk hb
  · intro u hu update _
    split
    · apply hu.editRow
      intro row
      split_ifs <;> rfl
    · exact hu

theorem effect_applyFinalizedOwnedReplacementCarry (c : FinalizedOwnedCarry) :
    s.Effect op (s.applyFinalizedOwnedReplacementCarry c).1 := by
  unfold applyFinalizedOwnedReplacementCarry
  split_ifs
  · exact .kept
  · exact effect_touch hk hb
  · exact .edited _ ((Edited.refl hk hb).editRow _ fun _ => rfl)

theorem effect_raiseHand (id : Uuid) (updatedAt : String) (nonce : Uuid) :
    s.Effect op (s.raiseHand id updatedAt nonce).1 := by
  unfold raiseHand
  split_ifs
  · exact effect_touch hk hb
  · split
    · exact effect_touch hk hb
    · next row hrow =>
      split_ifs
      · exact effect_touch hk hb
      · have hedit : s.Edited (s.editRow id fun row =>
            { row with communication := some ⟨.raiseHand, true, updatedAt, none⟩ }) :=
          (Edited.refl hk hb).editRow id fun _ => rfl
        exact .raised _ hedit id nonce (mem_adjust.mpr (mem_sessions hrow))

theorem effect_rollbackRaise (receipt : RaiseMutationReceipt) :
    s.Effect op (s.rollbackRaise receipt).1 := by
  unfold rollbackRaise
  split_ifs
  · have hrow : s.Edited (s.editRow receipt.uuid fun row => { row with communication := none }) :=
      (Edited.refl hk hb).editRow _ fun _ => rfl
    refine .edited _ ⟨⟨rfl, hrow.keyed, ?_⟩, rfl, rfl⟩
    exact ⟨hb.pendingPrompts, hb.promptSeedBlocked,
      fun j hj => hb.raiseNonces j (mem_of_mem_erase hj).1⟩
  · exact effect_touch hk hb

theorem effect_setMessage (kind : SessionCommunicationKind) (id : Uuid)
    (message updatedAt : String) : s.Effect op (s.setMessage kind id message updatedAt) := by
  apply effect_editPublic hk hb
  intro row
  split_ifs <;> rfl

theorem effect_restoreCommunication (id : Uuid) (communication : SessionCommunication) :
    s.Effect op (s.restoreCommunication id communication) := by
  unfold restoreCommunication
  split_ifs
  · exact .kept
  · apply effect_editPublic hk hb
    intro row
    split_ifs <;> rfl

theorem effect_initializePendingPrompt (binding : PendingCreateBinding) (key : Option PromptKey)
    (initial : Option String) (continuation fresh allowRetainedLookup : Bool) :
    s.Effect op (s.initializePendingPrompt binding key initial continuation fresh
      allowRetainedLookup).1 := by
  unfold initializePendingPrompt
  split
  · exact effect_touch hk hb
  · split
    · exact effect_touch hk hb
    · next row hrow =>
      have hedit : s.Edited (s.editRow binding.sessionId fun row =>
          { row with lastPrompt := if continuation && !fresh then initial else none }) :=
        (Edited.refl hk hb).editRow _ fun _ => rfl
      apply Effect.edited
      dsimp only
      split
      · exact hedit
      · refine ⟨⟨rfl, hedit.keyed, ?_, hb.promptSeedBlocked, hb.raiseNonces⟩, rfl, rfl⟩
        intro j hj
        rcases AList.mem_insert _ |>.mp hj with rfl | hj
        · exact mem_sessions hrow
        · exact hb.pendingPrompts j hj

theorem effect_installPendingCodingAgentBinding (pending : PendingCreateBinding)
    (binding : Option CodingAgentBinding) (validId validSeed : String → Bool) :
    s.Effect op (s.installPendingCodingAgentBinding pending binding validId validSeed).1 := by
  unfold installPendingCodingAgentBinding
  split_ifs
  · exact effect_touch hk hb
  · split
    · exact effect_touch hk hb
    · split_ifs
      · exact effect_touch hk hb
      · exact effect_touch hk hb
      · exact effect_touch hk hb
      · exact .edited _ ((Edited.refl hk hb).congr rfl)

theorem effect_refreshFailedBindingRecipes (recipes : List (CodingAgentBinding × String)) :
    s.Effect op (s.refreshFailedBindingRecipes recipes) := by
  apply Effect.edited
  apply List.foldlRecOn (motive := fun u => s.Edited u)
  · exact .refl hk hb
  · intro u hu r _
    exact hu.congr rfl

theorem effect_setLastPrompt (id : Uuid) (prompt : String) :
    s.Effect (.setLastPrompt id prompt) (s.setLastPrompt id prompt) := by
  apply Effect.claimed rfl
  have hrefl := Edited.refl hk hb
  dsimp only
  split_ifs
  · exact hrefl.toWritten
  · have hedit := hrefl.toWritten.editRow id (f := fun row => { row with lastPrompt := some prompt })
      fun _ => rfl
    have hseed : s.Written { s.editRow id fun row => { row with lastPrompt := some prompt } with
        promptSeedBlocked := s.promptSeedBlocked.erase id } :=
      ⟨rfl, hedit.keyed, hb.pendingPrompts,
        fun j hj => hb.promptSeedBlocked j (Finset.mem_of_mem_erase hj), hb.raiseNonces⟩
    split
    · exact hseed
    · exact hseed.congr rfl rfl rfl rfl rfl

theorem effect_seedIfAbsent (id : Uuid) (key : PromptKey) (prompt : String) :
    s.Effect (.seedIfAbsent id key prompt) (s.seedIfAbsent id key prompt).1 := by
  unfold seedIfAbsent
  split
  · exact effect_touch hk hb
  · apply Effect.claimed rfl
    have hedit := (Edited.refl hk hb).toWritten.editRow id
      (f := fun row => { row with lastPrompt := some prompt }) fun _ => rfl
    exact hedit.congr rfl rfl rfl rfl rfl

end

/-! The sweep. -/

theorem Edited.sweepRow {disposition : Uuid → Option CarrierDisposition}
    {acc : SessionManagerState × List Uuid} (h : s.Edited acc.1) (id : Uuid) :
    s.Edited (sweepRow disposition acc id).1 := by
  unfold SessionManagerState.sweepRow
  split_ifs
  · apply Edited.retireCodingAgentBinding
    refine ⟨h.toWritten.eraseRow rfl ?_ ?_ ?_ rfl, h.promptKeys, h.retainedPrompts⟩
    · exact fun j hj => hj
    · exact fun j hj => hj
    · exact fun j hj => hj
  · exact h

theorem Edited.deactivate (h : s.Edited t) (id : Uuid) : s.Edited (t.deactivate id) :=
  h.editRow id fun _ => rfl

theorem Edited.activate (h : s.Edited t) (id : Uuid) : s.Edited (t.activate id) :=
  h.editRow id fun _ => rfl

theorem Edited.reselect {disposition : Uuid → Option CarrierDisposition} (h : s.Edited t)
    (clear : Bool) (revision : ℕ) : s.Edited (t.reselect disposition clear revision) := by
  have hcleared : s.Edited (if clear then t.selection.id.elim t t.deactivate else t) := by
    split_ifs
    · cases t.selection.id with
      | none => exact h
      | some id => exact h.deactivate id
    · exact h
  unfold SessionManagerState.reselect
  dsimp only
  split
  · next id hid => exact (hcleared.activate id).congr rfl
  · exact hcleared.congr rfl

theorem effect_removeExitedSessions (hk : s.Keyed) (hb : s.Tidy) {op : ManagerOp} (ids : List Uuid)
    (classify : Session → ℕ → CarrierDisposition) :
    s.Effect op (s.removeExitedSessions ids classify).1 := by
  unfold removeExitedSessions
  dsimp only
  split
  · exact effect_touch hk hb
  · apply Effect.edited
    have hswept : s.Edited (ids.foldl (sweepRow (s.dispositions classify)) (s, [])).1 := by
      apply List.foldlRecOn (motive := fun acc : SessionManagerState × List Uuid => s.Edited acc.1)
      · exact .refl hk hb
      · intro acc hacc id _
        exact hacc.sweepRow id
    split_ifs
    · apply Edited.reselect
      exact hswept.congr rfl
    · exact hswept.congr rfl

/-! The commit. -/

/-- A mutation that enters no row. -/
structure Settled (s t : SessionManagerState) : Prop extends s.Written t where
  rows : ∀ id ∈ t.sessions, id ∈ s.sessions

theorem Settled.editRow (h : s.Settled t) (id : Uuid) {f : Session → Session}
    (hf : ∀ row, (f row).id = row.id) : s.Settled (t.editRow id f) :=
  ⟨h.toWritten.editRow id hf, fun j hj => h.rows j (mem_adjust.mp hj)⟩

theorem Settled.congr (h : s.Settled t) (hs : u.sessions = t.sessions)
    (hp : u.pendingPrompts = t.pendingPrompts) (hb : u.promptSeedBlocked = t.promptSeedBlocked)
    (hv : u.carrierVersions = t.carrierVersions) (hr : u.raiseNonces = t.raiseNonces) :
    s.Settled u := by
  refine ⟨h.toWritten.congr hs hp hb hv hr, ?_⟩
  rw [hs]
  exact h.rows

/-- What a domain retains so far. -/
def retained (s : SessionManagerState) (key : PromptKey) : RetainedPrompt :=
  (s.retainedPrompts.lookup key).getD .default

/-- What finalizing a prompt domain leaves in it, and gives to the row. -/
structure Finalized (s : SessionManagerState) (id : Uuid) (predecessor : Option Uuid)
    (key : PromptKey) (row : Session) (entry : RetainedPrompt) (prompt : Option String)
    (seeds : Finset Uuid) : Prop where
  seeds : seeds = s.promptSeedBlocked ∨ seeds = insert id s.promptSeedBlocked
  shared : s.promptDomainExclusive key predecessor = false → entry = ⟨none, true⟩
  blocked : ((s.retained key).blocked = true → (s.retained key).lastPrompt = none) →
    entry.blocked = true → entry.lastPrompt = none
  given : prompt = none ∨ prompt = row.lastPrompt ∨
    (s.promptDomainExclusive key predecessor = true ∧ prompt = (s.retained key).lastPrompt)

inductive Finalization (s : SessionManagerState) (id : Uuid) (predecessor : Option Uuid) :
    SessionManagerState → Prop
  | unprepared (h : s.pendingPrompts.lookup id = none) : Finalization s id predecessor s
  | foreign : Finalization s id predecessor
      { s with pendingPrompts := s.pendingPrompts.erase id }
  | claimed (prepared : PendingPrompt) (row : Session) (entry : RetainedPrompt)
      (prompt : Option String) (seeds : Finset Uuid)
      (hp : s.pendingPrompts.lookup id = some prepared) (hrow : s.sessions.lookup id = some row)
      (h : s.Finalized id predecessor prepared.key row entry prompt seeds) :
      Finalization s id predecessor
        { s.editRow id fun row => { row with lastPrompt := prompt } with
          pendingPrompts := s.pendingPrompts.erase id
          promptSeedBlocked := seeds
          retainedPrompts := s.retainedPrompts.insert prepared.key entry
          promptKeys := predecessor.elim (s.promptKeys.insert id prepared.key) fun source =>
            (s.promptKeys.insert id prepared.key).erase source }

theorem finalization_finalizePromptDomain (s : SessionManagerState) (id : Uuid)
    (predecessor : Option Uuid) (allowFreshReopen : Bool) :
    s.Finalization id predecessor (s.finalizePromptDomain id predecessor allowFreshReopen) := by
  unfold finalizePromptDomain
  split
  · next hnone => exact .unprepared hnone
  · next prepared hp =>
    dsimp only
    split
    · exact .foreign
    · next row hrow =>
      have hold : (s.retainedPrompts.lookup prepared.key).getD .default =
        s.retained prepared.key := rfl
      have hexcl : promptDomainExclusive { s with pendingPrompts := s.pendingPrompts.erase id }
        prepared.key predecessor = s.promptDomainExclusive prepared.key predecessor := rfl
      rw [hexcl, hold]
      split
      · exact .foreign
      · split
        · apply Finalization.claimed prepared row ⟨none, true⟩ row.lastPrompt _ hp hrow
          exact ⟨.inl rfl, fun _ => rfl, fun _ _ => rfl, .inr (.inl rfl)⟩
        · next hshared =>
          have hdomain : s.promptDomainExclusive prepared.key predecessor = true := by
            simpa using hshared
          split
          · apply Finalization.claimed prepared row ⟨none, true⟩ none _ hp hrow
            exact ⟨.inl rfl, fun _ => rfl, fun _ _ => rfl, .inl rfl⟩
          · split
            · apply Finalization.claimed prepared row _ none _ hp hrow
              refine ⟨.inr rfl, ?_, fun _ _ => rfl, .inl rfl⟩
              intro hc
              rw [hdomain] at hc
              cases hc
            · apply Finalization.claimed prepared row _ _ _ hp hrow
              refine ⟨.inl rfl, ?_, ?_, ?_⟩
              · intro hc
                rw [hdomain] at hc
                cases hc
              · intro hclean hblocked
                have hblocked : (s.retained prepared.key).blocked = true := hblocked
                simp only [hblocked, Bool.not_true, Bool.false_and, Bool.false_eq_true, if_false]
                exact hclean hblocked
              · split_ifs
                · exact .inr (.inr ⟨hdomain, rfl⟩)
                · exact .inr (.inl rfl)

theorem Settled.finalizePromptDomain (h : s.Settled t) (id : Uuid) (predecessor : Option Uuid)
    (allowFreshReopen : Bool) :
    s.Settled (t.finalizePromptDomain id predecessor allowFreshReopen) := by
  have hfin := finalization_finalizePromptDomain t id predecessor allowFreshReopen
  generalize t.finalizePromptDomain id predecessor allowFreshReopen = u at hfin ⊢
  cases hfin with
  | unprepared hnone => exact h
  | foreign =>
    exact ⟨⟨h.versions, h.keyed, fun j hj => h.beside.pendingPrompts j (mem_of_mem_erase hj).1,
      h.beside.promptSeedBlocked, h.beside.raiseNonces⟩, h.rows⟩
  | claimed prepared row entry prompt seeds hp hrow hfin =>
    have hedit := h.editRow id (f := fun row => { row with lastPrompt := prompt }) fun _ => rfl
    refine ⟨⟨h.versions, hedit.keyed, ?_, ?_, h.beside.raiseNonces⟩, hedit.rows⟩
    · exact fun j hj => h.beside.pendingPrompts j (mem_of_mem_erase hj).1
    · intro j hj
      have hj : j ∈ seeds := hj
      rcases hfin.seeds with rfl | rfl
      · exact h.beside.promptSeedBlocked j hj
      · rcases Finset.mem_insert.mp hj with rfl | hj
        · exact h.rows j (mem_sessions hrow)
        · exact h.beside.promptSeedBlocked j hj

theorem Settled.applyCommitPromptDomains (h : s.Settled s) (m : LifecycleMutations)
    (cause : SelectionCause) : s.Settled (s.applyCommitPromptDomains m cause) := by
  unfold SessionManagerState.applyCommitPromptDomains
  dsimp only
  apply List.foldlRecOn (motive := fun u => s.Settled u)
  · apply List.foldlRecOn (motive := fun u => s.Settled u)
    · exact h
    · intro u hu transfer _
      exact hu.editRow _ fun _ => rfl
  · intro u hu id _
    exact hu.finalizePromptDomain id _ _

theorem Written.applyFinalization {a : Applied} (h : s.Written a.state) (f : FinalizeMutation) :
    s.Written (applyFinalization a f).state := by
  have hrecipe : s.Written (clearFailedRecipeForRuntimeBinding
      { a.state with pendingCreate := a.state.pendingCreate.erase f.sessionId } f.sessionId) := by
    unfold clearFailedRecipeForRuntimeBinding
    split
    · exact h.congr rfl rfl rfl rfl rfl
    · exact h.congr rfl rfl rfl rfl rfl
  have hrow := hrecipe.editRow f.sessionId (f := fun row => { row with status := f.status })
    fun _ => rfl
  unfold SessionManagerState.applyFinalization
  dsimp only
  split
  · exact hrow
  · exact hrow

theorem Written.applyExit {a : Applied} (h : s.Written a.state) (e : Uuid × ℤ) :
    s.Written (applyExit a e).state := by
  unfold SessionManagerState.applyExit
  split
  · exact h
  · split_ifs
    · exact h
    · apply h.editRow
      intro row
      unfold exitRow
      split_ifs <;> rfl
    · apply h.editRow
      intro row
      unfold exitRow
      split_ifs <;> rfl

theorem Written.applyDetachedIntent {a : Applied} (h : s.Written a.state) (d : Uuid × Bool) :
    s.Written (applyDetachedIntent a d).state := by
  unfold SessionManagerState.applyDetachedIntent
  split
  · exact h
  · split_ifs
    · exact h
    · exact h.editRow _ fun _ => rfl

theorem Written.applyRemoval {a : Applied} (h : s.Written a.state) (id : Uuid) :
    s.Written (applyRemoval a id).state := by
  unfold SessionManagerState.applyRemoval
  split
  · exact h
  · apply Written.retireCodingAgentBinding
    refine h.eraseRow rfl ?_ ?_ ?_ rfl
    · exact fun j hj => (mem_of_mem_erase hj).1
    · exact fun j hj => Finset.mem_of_mem_erase hj
    · exact fun j hj => hj

theorem Written.applyLifecycleMutations (h : s.Written t) (m : LifecycleMutations) :
    s.Written (applyLifecycleMutations t m).state := by
  unfold SessionManagerState.applyLifecycleMutations
  dsimp only
  apply List.foldlRecOn (motive := fun a : Applied => s.Written a.state)
  · apply List.foldlRecOn (motive := fun a : Applied => s.Written a.state)
    · apply List.foldlRecOn (motive := fun a : Applied => s.Written a.state)
      · apply List.foldlRecOn (motive := fun a : Applied => s.Written a.state)
        · exact h
        · exact fun a ha f _ => ha.applyFinalization f
      · exact fun a ha e _ => ha.applyExit e
    · exact fun a ha d _ => ha.applyDetachedIntent d
  · exact fun a ha id _ => ha.applyRemoval id

/-- Selecting writes the statuses of rows, the revision and the selection. -/
theorem exists_select (a : Applied) (t : SelectionTarget) (revision : ℕ)
    (cause : SelectionCause) (decision : CommitDecision) :
    ∃ u selection, (u = a.state.steppedBack t ∨ ∃ id, u = (a.state.steppedBack t).activate id) ∧
      (select a t revision cause decision).state =
        { u with revision := revision, selection := selection } := by
  by_cases ht : t.mode = .live
  · obtain ⟨mode, id, status⟩ := t
    obtain rfl : mode = .live := ht
    cases id with
    | none =>
      refine ⟨_, .none a.state.epoch revision cause, .inl rfl, ?_⟩
      unfold select steppedBack
      dsimp only
      cases a.state.selection.id with
      | none => rfl
      | some p =>
        simp only [Option.elim_some, reduceCtorEq, decide_false, Bool.and_false, and_false,
          Bool.false_eq_true, if_false]
        split <;> rfl
    | some id => exact ⟨_, _, .inr ⟨id, rfl⟩, state_select_live a id status revision cause decision⟩
  · exact ⟨_, _, .inl rfl, state_select_of_ne_live a ht revision cause decision⟩

/-- Stepping back rewrites a row, if anything. -/
theorem steppedBack_eq (s : SessionManagerState) (t : SelectionTarget) :
    s.steppedBack t = s ∨ ∃ p, s.steppedBack t = s.deactivate p := by
  unfold steppedBack
  cases s.selection.id with
  | none => exact .inl rfl
  | some p =>
    rw [Option.elim_some]
    split_ifs
    · exact .inl rfl
    · exact .inr ⟨p, rfl⟩
    · exact .inl rfl

theorem Written.select {a : Applied} (h : s.Written a.state) (t : SelectionTarget) (revision : ℕ)
    (cause : SelectionCause) (decision : CommitDecision) :
    s.Written (select a t revision cause decision).state := by
  obtain ⟨u, selection, hu, heq⟩ := exists_select a t revision cause decision
  have hback : s.Written (a.state.steppedBack t) := by
    rcases steppedBack_eq a.state t with hsame | ⟨p, hdown⟩
    · rw [hsame]
      exact h
    · rw [hdown]
      exact h.editRow p fun _ => rfl
  have hwritten : s.Written u := by
    rcases hu with rfl | ⟨id, rfl⟩
    · exact hback
    · exact hback.editRow id fun _ => rfl
  rw [heq]
  exact hwritten.congr rfl rfl rfl rfl rfl

theorem effect_commitSelectionTransition (hk : s.Keyed) (hb : s.Tidy) (decision : CommitDecision)
    (cause : SelectionCause) (m : LifecycleMutations) :
    s.Effect (.commitSelectionTransition decision cause m)
      (s.commitSelectionTransition decision cause m).1 := by
  unfold commitSelectionTransition
  dsimp only
  split
  · exact effect_touch hk hb
  · apply Effect.claimed rfl
    have hsettled : s.Settled s := ⟨(Edited.refl hk hb).toWritten, fun _ hid => hid⟩
    have happlied := (hsettled.applyCommitPromptDomains m cause).toWritten.applyLifecycleMutations m
    unfold Applied.finish
    dsimp only
    split_ifs
    · exact happlied.select _ _ _ _
    · exact happlied

theorem effect_step (hk : s.Keyed) (hb : s.Tidy) (op : ManagerOp) :
    s.Effect op (s.step op).1 := by
  cases op with
  | createPendingSession binding request token createdAt =>
    exact effect_createPendingSession hk hb binding request token createdAt
  | restorePendingRecord persisted binding token createdAt =>
    exact effect_restorePendingRecord hk hb persisted binding token createdAt
  | rollbackPendingCreate binding => exact effect_rollbackPendingCreate hk hb binding
  | preparePtyInputBoundary id expectedBackend authorityId authorityBackend verified =>
    exact effect_preparePtyInputBoundary hk hb id expectedBackend authorityId authorityBackend
      verified
  | commitSelectionTransition decision cause mutations =>
    exact effect_commitSelectionTransition hk hb decision cause mutations
  | removeExitedSessions ids classify => exact effect_removeExitedSessions hk hb ids classify
  | refreshCoordinatorFlags coordinator => exact effect_editAllPublic hk hb fun _ => rfl
  | refreshGitReposForSessions updates => exact effect_refreshGitReposForSessions hk hb updates
  | setGitReposIfGen id repos expectedGen =>
    apply effect_editPublic hk hb
    intro row
    split_ifs <;> rfl
  | applyFinalizedOwnedReplacementCarry carry =>
    exact effect_applyFinalizedOwnedReplacementCarry hk hb carry
  | raiseHand id updatedAt nonce => exact effect_raiseHand hk hb id updatedAt nonce
  | rollbackRaise receipt => exact effect_rollbackRaise hk hb receipt
  | clearCommunicationIfKind id kind =>
    apply effect_editPublic hk hb
    intro row
    split_ifs <;> rfl
  | setBlockedMenu id message updatedAt => exact effect_setMessage hk hb .blockedMenu id message _
  | setCoManaged id message updatedAt => exact effect_setMessage hk hb .coManaged id message _
  | restoreCommunication id communication =>
    exact effect_restoreCommunication hk hb id communication
  | setLastPrompt id prompt => exact effect_setLastPrompt hk hb id prompt
  | installRetainedPrompts entries => exact .aside rfl _ _ _
  | disablePromptReuse => exact .aside rfl _ _ _
  | forgetRetainedPrompt key => exact .aside rfl _ _ _
  | blockRetainedPromptDomains keys => exact .aside rfl _ _ _
  | initializePendingPrompt binding key initial continuation fresh allowRetainedLookup =>
    exact effect_initializePendingPrompt hk hb binding key initial continuation fresh
      allowRetainedLookup
  | seedIfAbsent id key prompt => exact effect_seedIfAbsent hk hb id key prompt
  | installPendingCodingAgentBinding pending binding validId validSeed =>
    exact effect_installPendingCodingAgentBinding hk hb pending binding validId validSeed
  | refreshFailedBindingRecipes recipes => exact effect_refreshFailedBindingRecipes hk hb recipes
  | setPendingAgentKind | setPendingTrustedConfiguredSpawn | setPendingProfileMetadata
  | setPendingResolvedClaudeProjectsDir | setPendingEffectiveShellArgs | renamePendingSession
  | setPendingIsRootAgent | setPendingStartFreshOnRestore | setPendingCommunication =>
    exact effect_updatePending hk hb _ fun _ => rfl
  | _ => exact effect_editPublic hk hb _ fun _ => rfl

end SessionManagerState
end AgentsCommander.Sessions
