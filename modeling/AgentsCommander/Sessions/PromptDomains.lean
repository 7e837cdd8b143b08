import AgentsCommander.Sessions.CarrierLaw

/-! A prompt domain that two rows share is blocked, and a row is given what a domain retains only
while it owns the domain alone. -/
namespace AgentsCommander.Sessions
open Foundation
namespace SessionManagerState
variable {s t : SessionManagerState}

/-- The domains that are shared are blocked, and a blocked domain retains nothing. -/
structure DomainsKept (s : SessionManagerState) : Prop where
  shared : ∀ i j key, i ≠ j → s.promptKeys.lookup i = some key →
    s.promptKeys.lookup j = some key →
    ∃ entry, s.retainedPrompts.lookup key = some entry ∧ entry.blocked = true
  blocked : ∀ key entry, s.retainedPrompts.lookup key = some entry → entry.blocked = true →
    entry.lastPrompt = none

theorem DomainsKept.retained (h : s.DomainsKept) (key : PromptKey)
    (hb : (s.retained key).blocked = true) : (s.retained key).lastPrompt = none := by
  unfold SessionManagerState.retained at hb ⊢
  cases hlookup : s.retainedPrompts.lookup key with
  | none => rfl
  | some entry =>
    rw [hlookup] at hb
    exact h.blocked key entry hlookup hb

theorem DomainsKept.retained_of_shared (h : s.DomainsKept) {i j : Uuid} {key : PromptKey}
    (hij : i ≠ j) (hi : s.promptKeys.lookup i = some key) (hj : s.promptKeys.lookup j = some key) :
    (s.retained key).lastPrompt = none := by
  obtain ⟨entry, hlookup, hb⟩ := h.shared i j key hij hi hj
  unfold SessionManagerState.retained
  rw [hlookup]
  exact h.blocked key entry hlookup hb

theorem DomainsKept.of_sub (h : s.DomainsKept)
    (hk : ∀ id key, t.promptKeys.lookup id = some key → s.promptKeys.lookup id = some key)
    (hr : t.retainedPrompts = s.retainedPrompts) : t.DomainsKept where
  shared i j key hij hi hj := by
    rw [hr]
    exact h.shared i j key hij (hk i key hi) (hk j key hj)
  blocked key entry := by
    rw [hr]
    exact h.blocked key entry

/-- A domain whose entry is replaced: it must be blocked if it is shared, and then empty. -/
theorem DomainsKept.insert (h : s.DomainsKept) {key : PromptKey} {entry : RetainedPrompt}
    (hr : t.retainedPrompts = s.retainedPrompts.insert key entry)
    (hk : ∀ id other, other ≠ key → t.promptKeys.lookup id = some other →
      s.promptKeys.lookup id = some other)
    (hshared : ∀ i j, i ≠ j → t.promptKeys.lookup i = some key →
      t.promptKeys.lookup j = some key → entry.blocked = true)
    (hblocked : entry.blocked = true → entry.lastPrompt = none) : t.DomainsKept where
  shared i j other hij hi hj := by
    rw [hr, Assoc.lookup_insert_eq]
    split_ifs with hother
    · subst hother
      exact ⟨entry, rfl, hshared i j hij hi hj⟩
    · exact h.shared i j other hij (hk i other hother hi) (hk j other hother hj)
  blocked other found hfound hb := by
    rw [hr, Assoc.lookup_insert_eq] at hfound
    split_ifs at hfound
    · cases hfound
      exact hblocked hb
    · exact h.blocked other found hfound hb

theorem promptDomainExclusive_iff {key : PromptKey} {owner : Option Uuid} :
    s.promptDomainExclusive key owner = true ↔
      ∀ id, s.promptKeys.lookup id = some key → owner = some id := by
  unfold promptDomainExclusive
  rw [List.all_eq_true]
  constructor
  · intro h id hid
    have hmem := h ⟨id, key⟩ (AList.mem_lookup_iff.mp hid)
    simp only [ne_eq, not_true_eq_false, decide_false, Bool.or_false, decide_eq_true_eq] at hmem
    exact hmem.symm
  · intro h e he
    by_cases hkey : e.2 = key
    · have hown := h e.1 (hkey ▸ AList.mem_lookup_iff.mpr he)
      simp only [hown, decide_true, Bool.true_or]
    · simp only [hkey, ne_eq, not_false_eq_true, decide_true, Bool.or_true]

/-! The guard keeps the domains. -/

theorem DomainsKept.invalidate (h : s.DomainsKept) (before : SessionManagerState) :
    (invalidatePromptDomains before s).DomainsKept := by
  have hkeys : ∀ id key, (invalidatePromptDomains before s).promptKeys.lookup id = some key →
      s.promptKeys.lookup id = some key := fun id key hid => (Assoc.of_lookup_keep hid).1
  have hentry : ∀ key, (invalidatePromptDomains before s).retainedPrompts.lookup key =
      if key ∈ (turnedFresh before s).filterMap fun row =>
          (invalidatePromptDomains before s).promptKeys.lookup row.id then
        some ⟨none, decide (1 < (Assoc.values
          (invalidatePromptDomains before s).promptKeys).countP (· = key))⟩
      else s.retainedPrompts.lookup key := by
    intro key
    unfold invalidatePromptDomains
    dsimp only
    rw [Assoc.lookup_foldl_insert]
  constructor
  · intro i j key hij hi hj
    rw [hentry]
    split_ifs
    · exact ⟨_, rfl, decide_eq_true (Assoc.one_lt_countP_values hij hi hj)⟩
    · exact h.shared i j key hij (hkeys i key hi) (hkeys j key hj)
  · intro key entry hlookup hb
    rw [hentry] at hlookup
    split_ifs at hlookup
    · cases hlookup
      rfl
    · exact h.blocked key entry hlookup hb

theorem DomainsKept.retireRow (h : s.DomainsKept) (id : Uuid) : (s.retireRow id).DomainsKept := by
  have hretained : (s.bumpVersion id).retainedPrompts = s.retainedPrompts := by
    unfold bumpVersion
    split <;> rfl
  refine DomainsKept.of_sub (t := s.retireRow id) h ?_ hretained
  intro j key hj
  have hj : (s.promptKeys.erase id).lookup j = some key := hj
  rw [Assoc.lookup_erase_eq] at hj
  split_ifs at hj
  exact hj

theorem DomainsKept.publishRow (h : s.DomainsKept) (before : SessionManagerState)
    (row : Session) : (publishRow before s row).DomainsKept := by
  unfold SessionManagerState.publishRow
  split_ifs
  · split
    · exact h
    · exact h.of_sub (fun _ _ hid => hid) rfl
  · exact h

theorem DomainsKept.drop (h : t.DomainsKept) (before : SessionManagerState) :
    (drop before t).DomainsKept := by
  rw [drop_eq]
  apply List.foldlRecOn (motive := DomainsKept)
  · apply List.foldlRecOn (motive := DomainsKept)
    · exact h.invalidate before
    · exact fun u hu id _ => hu.retireRow id
  · exact fun u hu row _ => hu.publishRow before row

/-- The guard keeps only the keys that match their rows. -/
theorem of_lookup_promptKeys_drop {before : SessionManagerState} {id : Uuid} {key : PromptKey}
    (h : (SessionManagerState.drop before t).promptKeys.lookup id = some key) :
    t.promptKeys.lookup id = some key ∧ (t.sessions.lookup id).any key.matches = true := by
  have hsub : ∀ (l : List Uuid) (u : SessionManagerState),
      (l.foldl SessionManagerState.retireRow u).promptKeys.lookup id = some key →
        u.promptKeys.lookup id = some key := by
    intro l
    induction l with
    | nil => exact fun u hu => hu
    | cons j l ih =>
      intro u hu
      have herased : (u.promptKeys.erase j).lookup id = some key := ih _ hu
      rw [Assoc.lookup_erase_eq] at herased
      split_ifs at herased
      exact herased
  rw [promptKeys_publish] at h
  exact Assoc.of_lookup_keep (hsub _ _ h)

theorem lookup_promptKeys_drop {before : SessionManagerState} {id : Uuid} {key : PromptKey}
    (h : (SessionManagerState.drop before t).promptKeys.lookup id = some key) :
    t.promptKeys.lookup id = some key := (of_lookup_promptKeys_drop h).1

/-! The operations on the domains. -/

theorem DomainsKept.setLastPrompt (h : s.DomainsKept) (id : Uuid) (prompt : String) :
    (s.setLastPrompt id prompt).DomainsKept := by
  apply DomainsKept.drop
  dsimp only
  split_ifs
  · exact h
  · split
    · exact h.of_sub (fun _ _ hid => hid) rfl
    · next key hkey =>
      have hexcl : ∀ i j, i ≠ j → s.promptKeys.lookup i = some key →
          s.promptKeys.lookup j = some key → s.promptDomainExclusive key (some id) = false := by
        intro i j hij hi hj
        rw [Bool.eq_false_iff]
        intro halone
        have hi' := promptDomainExclusive_iff.mp halone i hi
        have hj' := promptDomainExclusive_iff.mp halone j hj
        exact hij (Option.some.inj (hi'.symm.trans hj'))
      refine DomainsKept.insert h rfl (fun _ _ _ hid => hid) ?_ ?_
      · intro i j hij hi hj
        have halone := hexcl i j hij hi hj
        rw [if_neg]
        intro hboth
        rw [Bool.and_eq_true] at hboth
        exact absurd (halone.symm.trans hboth.1) Bool.false_ne_true
      · intro hb
        split_ifs at hb ⊢ with hboth
        · rw [Bool.and_eq_true, Bool.not_eq_true'] at hboth
          exact absurd (hboth.2.symm.trans hb) Bool.false_ne_true
        · rfl

theorem DomainsKept.seedIfAbsent (h : s.DomainsKept) (id : Uuid) (key : PromptKey)
    (prompt : String) : (s.seedIfAbsent id key prompt).1.DomainsKept := by
  unfold SessionManagerState.seedIfAbsent
  split_ifs with hrefused
  · exact h.drop s
  · apply DomainsKept.drop
    have hexcl : s.promptDomainExclusive key (some id) = true := by
      simp only [Bool.or_eq_true, not_or, Bool.not_eq_true', Bool.not_eq_false] at hrefused
      exact hrefused.1.1.2
    have howners : ∀ j, (s.promptKeys.insert id key).lookup j = some key → j = id := by
      intro j hj
      rw [Assoc.lookup_insert_eq] at hj
      split_ifs at hj with hid
      · exact hid
      · exact (Option.some.inj (promptDomainExclusive_iff.mp hexcl j hj)).symm
    refine DomainsKept.insert h rfl ?_ ?_ ?_
    · intro j other hne hj
      have hj : (s.promptKeys.insert id key).lookup j = some other := hj
      rw [Assoc.lookup_insert_eq] at hj
      split_ifs at hj
      · exact absurd (Option.some.inj hj).symm hne
      · exact hj
    · intro i j hij hi hj
      exact absurd ((howners i hi).trans (howners j hj).symm) hij
    · intro hb
      cases hb

/-- Who owns what once a domain is finalized. -/
theorem lookup_finalized {keys : AList fun _ : Uuid => PromptKey} {id : Uuid}
    {predecessor : Option Uuid} {key other : PromptKey} {j : Uuid}
    (h : (predecessor.elim (keys.insert id key) fun source =>
      (keys.insert id key).erase source).lookup j = some other) :
    predecessor ≠ some j ∧ (j = id ∧ other = key ∨ j ≠ id ∧ keys.lookup j = some other) := by
  have hinsert : (keys.insert id key).lookup j = some other → j = id ∧ other = key ∨
      j ≠ id ∧ keys.lookup j = some other := by
    intro hj
    rw [Assoc.lookup_insert_eq] at hj
    split_ifs at hj with hid
    · exact .inl ⟨hid, (Option.some.inj hj).symm⟩
    · exact .inr ⟨hid, hj⟩
  cases predecessor with
  | none => exact ⟨nofun, hinsert h⟩
  | some source =>
    rw [Option.elim_some, Assoc.lookup_erase_eq] at h
    split_ifs at h with hsource
    exact ⟨fun he => hsource (Option.some.inj he).symm, hinsert h⟩

/-- After a domain is finalized whose only owner was the predecessor, the new row owns it alone. -/
theorem eq_of_lookup_finalized {id : Uuid} {predecessor : Option Uuid} {key : PromptKey} {j : Uuid}
    (hexcl : s.promptDomainExclusive key predecessor = true)
    (h : (predecessor.elim (s.promptKeys.insert id key) fun source =>
      (s.promptKeys.insert id key).erase source).lookup j = some key) : j = id := by
  obtain ⟨hne, ⟨hid, -⟩ | ⟨-, hold⟩⟩ := lookup_finalized h
  · exact hid
  · exact absurd (promptDomainExclusive_iff.mp hexcl j hold) hne

theorem DomainsKept.finalization (h : s.DomainsKept) {id : Uuid} {predecessor : Option Uuid}
    (hfin : s.Finalization id predecessor t) : t.DomainsKept := by
  cases hfin with
  | unprepared hnone => exact h
  | foreign => exact h.of_sub (fun _ _ hid => hid) rfl
  | claimed prepared row entry prompt seeds hp hrow hfin =>
    refine DomainsKept.insert h rfl ?_ ?_ (hfin.blocked (h.retained _))
    · intro j other hne hj
      obtain ⟨-, ⟨-, heq⟩ | ⟨-, hold⟩⟩ := lookup_finalized hj
      · exact absurd heq hne
      · exact hold
    · intro i j hij hi hj
      cases hexcl : s.promptDomainExclusive prepared.key predecessor with
      | false => rw [hfin.shared hexcl]
      | true =>
        have hi := eq_of_lookup_finalized hexcl hi
        have hj := eq_of_lookup_finalized hexcl hj
        exact absurd (hi.trans hj.symm) hij

/-- The text a row shows becomes what the domain it owns has retained. -/
def Gives (s t : SessionManagerState) (id : Uuid) (key : PromptKey) : Prop :=
  t.promptKeys.lookup id = some key ∧ ∃ row row' prompt, s.sessions.lookup id = some row ∧
    t.sessions.lookup id = some row' ∧ row.lastPrompt ≠ some prompt ∧
    row'.lastPrompt = some prompt ∧ (s.retained key).lastPrompt = some prompt

/-- Whoever is given what a domain retains owns it alone: before, but for the predecessor that
it takes the place of, and after. -/
def GivesAlone (s t : SessionManagerState) (predecessor : Option Uuid) : Prop :=
  ∀ id key, Gives s t id key → ∀ j, j ≠ id →
    (s.promptKeys.lookup j = some key → predecessor = some j) ∧ t.promptKeys.lookup j ≠ some key

/-- Where no row becomes an owner, nothing retained is given to an owner that shares. -/
theorem DomainsKept.givesAlone (h : s.DomainsKept)
    (hk : ∀ id key, t.promptKeys.lookup id = some key → s.promptKeys.lookup id = some key)
    (predecessor : Option Uuid) : GivesAlone s t predecessor := by
  rintro id key ⟨hid, row, row', prompt, -, -, -, -, hretained⟩ j hj
  have hnot : s.promptKeys.lookup j ≠ some key := by
    intro hown
    have hnone := h.retained_of_shared hj hown (hk id key hid)
    cases hnone.symm.trans hretained
  exact ⟨fun hown => absurd hown hnot, fun hown => hnot (hk j key hown)⟩

theorem DomainsKept.givesAlone_finalization (h : s.DomainsKept) {id : Uuid}
    {predecessor : Option Uuid} (hfin : s.Finalization id predecessor t) :
    GivesAlone s t predecessor := by
  cases hfin with
  | unprepared hnone => exact h.givesAlone (fun _ _ hid => hid) _
  | foreign => exact h.givesAlone (fun _ _ hid => hid) _
  | claimed prepared row entry prompt seeds hp hrow hfin =>
    rintro i key ⟨hown, old, new, text, hold, hnew, hne, htext, hretained⟩ j hj
    have hrow' : (Assoc.adjust s.sessions id fun row => { row with lastPrompt := prompt }).lookup i =
      some new := hnew
    rw [Assoc.lookup_adjust, hold] at hrow'
    split_ifs at hrow' with hi
    · subst hi
      obtain rfl := Option.some.inj hrow'
      obtain rfl : old = row := Option.some.inj (hold.symm.trans hrow)
      have htext : prompt = some text := htext
      obtain ⟨-, ⟨-, hkey⟩ | ⟨hsame, -⟩⟩ := lookup_finalized hown
      · subst hkey
        rcases hfin.given with hgiven | hgiven | ⟨hexcl, -⟩
        · cases hgiven.symm.trans htext
        · exact absurd (hgiven.symm.trans htext) hne
        · exact ⟨promptDomainExclusive_iff.mp hexcl j,
            fun hown => hj (eq_of_lookup_finalized hexcl hown)⟩
      · exact absurd rfl hsame
    · obtain rfl := Option.some.inj hrow'
      exact absurd htext hne

/-! The rest of a commit only takes owners away. -/

/-- The owners of the domains, and what is retained in them. -/
def domains (s : SessionManagerState) :
    (AList fun _ : Uuid => PromptKey) × (AList fun _ : PromptKey => RetainedPrompt) :=
  (s.promptKeys, s.retainedPrompts)

theorem domains_applyFinalization (a : Applied) (f : FinalizeMutation) :
    (applyFinalization a f).state.domains = a.state.domains := by
  unfold applyFinalization clearFailedRecipeForRuntimeBinding
  dsimp only
  split
  · split <;> rfl
  · split <;> rfl

theorem domains_applyExit (a : Applied) (e : Uuid × ℤ) :
    (applyExit a e).state.domains = a.state.domains := by
  unfold applyExit
  split
  · rfl
  · split <;> rfl

theorem domains_applyDetachedIntent (a : Applied) (d : Uuid × Bool) :
    (applyDetachedIntent a d).state.domains = a.state.domains := by
  unfold applyDetachedIntent
  split
  · rfl
  · split <;> rfl

theorem select_frame (a : Applied) (target : SelectionTarget) (revision : ℕ)
    (cause : SelectionCause) (decision : CommitDecision) :
    (select a target revision cause decision).state.domains = a.state.domains ∧
      ∀ id, id ∈ (select a target revision cause decision).state.sessions ↔
        id ∈ a.state.sessions := by
  obtain ⟨u, selection, hu, heq⟩ := exists_select a target revision cause decision
  have hedit : ∀ (v : SessionManagerState) (p : Uuid) (f : Session → Session),
      (v.editRow p f).domains = v.domains ∧
        ∀ id, id ∈ (v.editRow p f).sessions ↔ id ∈ v.sessions :=
    fun v p f => ⟨rfl, fun _ => mem_adjust⟩
  have hback : (a.state.steppedBack target).domains = a.state.domains ∧
      ∀ id, id ∈ (a.state.steppedBack target).sessions ↔ id ∈ a.state.sessions := by
    rcases steppedBack_eq a.state target with hsame | ⟨p, hdown⟩
    · rw [hsame]
      exact ⟨rfl, fun _ => Iff.rfl⟩
    · rw [hdown]
      exact hedit a.state p _
  have hframe : u.domains = a.state.domains ∧ ∀ id, id ∈ u.sessions ↔ id ∈ a.state.sessions := by
    rcases hu with rfl | ⟨id, rfl⟩
    · exact hback
    · have hactive := hedit (a.state.steppedBack target) id fun row => { row with status := .active }
      exact ⟨hactive.1.trans hback.1, fun j => (hactive.2 j).trans (hback.2 j)⟩
  rw [heq]
  exact hframe

/-- Fewer owners, and the same retained prompts. -/
structure OwnersLeft (s t : SessionManagerState) : Prop where
  keys : ∀ id key, t.promptKeys.lookup id = some key → s.promptKeys.lookup id = some key
  retained : t.retainedPrompts = s.retainedPrompts

theorem OwnersLeft.of_domains (h : t.domains = s.domains) : s.OwnersLeft t := by
  obtain ⟨hk, hr⟩ := Prod.ext_iff.mp h
  have hk : t.promptKeys = s.promptKeys := hk
  exact ⟨fun _ _ hid => hk ▸ hid, hr⟩

theorem OwnersLeft.trans {u : SessionManagerState} (h : s.OwnersLeft t) (h' : t.OwnersLeft u) :
    s.OwnersLeft u :=
  ⟨fun id key hid => h.keys id key (h'.keys id key hid), h'.retained.trans h.retained⟩

theorem ownersLeft_applyRemoval (a : Applied) (id : Uuid) :
    a.state.OwnersLeft (applyRemoval a id).state := by
  unfold applyRemoval
  split
  · exact .of_domains rfl
  · obtain ⟨bindings, seeds, origins, heq⟩ := retireCodingAgentBinding_eq { a.state with
      sessions := a.state.sessions.erase id
      order := a.state.order.filter (· ≠ id)
      promptKeys := a.state.promptKeys.erase id
      promptSeedBlocked := a.state.promptSeedBlocked.erase id
      pendingPrompts := a.state.pendingPrompts.erase id
      pendingCreate := a.state.pendingCreate.erase id } id
    dsimp only
    unfold removeRow
    rw [heq]
    refine ⟨?_, rfl⟩
    intro j key hj
    have hj : (a.state.promptKeys.erase id).lookup j = some key := hj
    rw [Assoc.lookup_erase_eq] at hj
    split_ifs at hj
    exact hj

theorem ownersLeft_applyLifecycleMutations (s : SessionManagerState) (m : LifecycleMutations) :
    s.OwnersLeft (applyLifecycleMutations s m).state := by
  unfold applyLifecycleMutations
  dsimp only
  apply List.foldlRecOn (motive := fun a : Applied => s.OwnersLeft a.state)
  · apply OwnersLeft.of_domains
    rw [Assoc.foldl_frame (fun a : Applied => a.state.domains) applyDetachedIntent
        domains_applyDetachedIntent,
      Assoc.foldl_frame (fun a : Applied => a.state.domains) applyExit domains_applyExit,
      Assoc.foldl_frame (fun a : Applied => a.state.domains) applyFinalization
        domains_applyFinalization]
  · exact fun a ha id _ => ha.trans (ownersLeft_applyRemoval a id)

/-- What a commit does once its checks have passed. -/
theorem committed_of_ok {decision : CommitDecision} {cause : SelectionCause}
    {m : LifecycleMutations} {result : CommitResult}
    (h : (s.commitSelectionTransition decision cause m).2 = .ok result) :
    s.validateLifecycleMutations m = .ok () ∧
      ∃ t, (s.commitSelectionTransition decision cause m).1 = drop s t ∧
        (s.applyCommitPromptDomains m cause).OwnersLeft t ∧
        ∀ id ∈ t.sessions,
          id ∈ (applyLifecycleMutations (s.applyCommitPromptDomains m cause) m).state.sessions := by
  have hmutated := ownersLeft_applyLifecycleMutations (s.applyCommitPromptDomains m cause) m
  unfold commitSelectionTransition at h ⊢
  dsimp only at h ⊢
  split at h
  · cases h
  · next target next hok =>
    obtain ⟨_, hvalid, -⟩ := bind_eq_ok.mp hok
    refine ⟨hvalid, _, rfl, ?_, ?_⟩
    · unfold Applied.finish
      dsimp only
      split_ifs
      · exact hmutated.trans (.of_domains (select_frame _ _ _ _ _).1)
      · exact hmutated
    · unfold Applied.finish
      dsimp only
      split_ifs
      · exact fun id hid => ((select_frame _ _ _ _ _).2 id).mp hid
      · exact fun id hid => hid

/-! A commit, one prompt domain after the other. -/

/-- The target of a transfer takes over the text its source shows. -/
def transferPrompts (s : SessionManagerState) (m : LifecycleMutations) : SessionManagerState :=
  m.promptTransfers.foldl (fun t transfer => t.editRow transfer.2.sessionId fun row =>
    { row with lastPrompt := (t.sessions.lookup transfer.1).bind (·.lastPrompt) }) s

/-- The states on the way of finalizations, each with the row whose domain it succeeds to. -/
def finalizeStages (predecessor : Uuid → Option Uuid) (allowFreshReopen : Bool) :
    SessionManagerState → List Uuid → List (Option Uuid × SessionManagerState)
  | _, [] => []
  | s, id :: ids =>
    let t := s.finalizePromptDomain id (predecessor id) allowFreshReopen
    (predecessor id, t) :: finalizeStages predecessor allowFreshReopen t ids

/-- The states an operation goes through, as far as prompts are concerned. -/
def promptStages (s : SessionManagerState) (op : ManagerOp) :
    List (Option Uuid × SessionManagerState) :=
  match op with
  | .commitSelectionTransition decision cause m =>
    match (s.commitSelectionTransition decision cause m).2 with
    | .ok _ => (none, s.transferPrompts m) :: finalizeStages (s.predecessorOf m cause)
        (cause ≠ .restore) (s.transferPrompts m) m.finalized ++ [(none, (s.step op).1)]
    | .error _ => [(none, (s.step op).1)]
  | _ => [(none, (s.step op).1)]

/-- From each stage to the next, whoever is given what a domain retains owns it alone. -/
def StagesAlone : SessionManagerState → List (Option Uuid × SessionManagerState) → Prop
  | _, [] => True
  | s, stage :: stages => GivesAlone s stage.2 stage.1 ∧ StagesAlone stage.2 stages

theorem domainsKept_transferPrompts (h : s.DomainsKept) (m : LifecycleMutations) :
    (s.transferPrompts m).DomainsKept := by
  unfold transferPrompts
  apply List.foldlRecOn (motive := DomainsKept)
  · exact h
  · exact fun u hu transfer _ => hu.of_sub (fun _ _ hid => hid) rfl

theorem promptKeys_transferPrompts (s : SessionManagerState) (m : LifecycleMutations) :
    (s.transferPrompts m).promptKeys = s.promptKeys := by
  unfold transferPrompts
  apply Assoc.foldl_frame promptKeys
  intro t transfer
  rfl

theorem applyCommitPromptDomains_eq (s : SessionManagerState) (m : LifecycleMutations)
    (cause : SelectionCause) : s.applyCommitPromptDomains m cause =
      m.finalized.foldl (fun t id => t.finalizePromptDomain id (s.predecessorOf m cause id)
        (cause ≠ .restore)) (s.transferPrompts m) := rfl

theorem DomainsKept.foldl_finalize (h : s.DomainsKept) (predecessor : Uuid → Option Uuid)
    (allowFreshReopen : Bool) (ids : List Uuid) :
    (ids.foldl (fun t id => t.finalizePromptDomain id (predecessor id) allowFreshReopen)
      s).DomainsKept := by
  apply List.foldlRecOn (motive := DomainsKept)
  · exact h
  · exact fun u hu id _ => hu.finalization (finalization_finalizePromptDomain u id _ _)

theorem DomainsKept.applyCommitPromptDomains (h : s.DomainsKept) (m : LifecycleMutations)
    (cause : SelectionCause) : (s.applyCommitPromptDomains m cause).DomainsKept :=
  (domainsKept_transferPrompts h m).foldl_finalize _ _ _

theorem DomainsKept.finalizeStages (h : s.DomainsKept) (predecessor : Uuid → Option Uuid)
    (allowFreshReopen : Bool) (ids : List Uuid) {last : Option Uuid × SessionManagerState}
    (hlast : GivesAlone (ids.foldl (fun t id =>
      t.finalizePromptDomain id (predecessor id) allowFreshReopen) s) last.2 last.1) :
    StagesAlone s (SessionManagerState.finalizeStages predecessor allowFreshReopen s ids ++
      [last]) := by
  induction ids generalizing s with
  | nil => exact ⟨hlast, trivial⟩
  | cons id ids ih =>
    have hfin := finalization_finalizePromptDomain s id (predecessor id) allowFreshReopen
    exact ⟨h.givesAlone_finalization hfin, ih (h.finalization hfin) hlast⟩

/-- An install or a forget that leaves no shared domain open, and no text in a blocked one. -/
def consistent (s : SessionManagerState) : ManagerOp → Bool
  | .forgetRetainedPrompt key => (Assoc.values s.promptKeys).countP (· = key) ≤ 1
  | .installRetainedPrompts entries =>
    ((entries.getD ∅).entries.all fun e => !e.2.blocked || e.2.lastPrompt.isNone) &&
      (Assoc.values s.promptKeys).all fun key =>
        (Assoc.values s.promptKeys).countP (· = key) ≤ 1 ||
          ((entries.getD ∅).lookup key).any (·.blocked)
  | _ => true

theorem DomainsKept.aside (h : s.DomainsKept) {op : ManagerOp} (hop : op.aside = true)
    (hc : s.consistent op = true) : (s.step op).1.DomainsKept := by
  have hmany : ∀ {i j key}, i ≠ j → s.promptKeys.lookup i = some key →
      s.promptKeys.lookup j = some key → ¬ (Assoc.values s.promptKeys).countP (· = key) ≤ 1 := by
    intro i j key hij hi hj hle
    have hlt := Assoc.one_lt_countP_values hij hi hj
    omega
  cases op with
  | disablePromptReuse => exact h.of_sub (fun _ _ hid => hid) rfl
  | forgetRetainedPrompt key =>
    constructor
    · intro i j other hij hi hj
      have hne : other ≠ key := by
        rintro rfl
        exact hmany hij hi hj (of_decide_eq_true hc)
      show ∃ entry, (s.retainedPrompts.erase key).lookup other = some entry ∧ _
      rw [Assoc.lookup_erase_eq, if_neg hne]
      exact h.shared i j other hij hi hj
    · intro other entry hlookup hb
      have hlookup : (s.retainedPrompts.erase key).lookup other = some entry := hlookup
      rw [Assoc.lookup_erase_eq] at hlookup
      split_ifs at hlookup
      exact h.blocked other entry hlookup hb
  | blockRetainedPromptDomains keys =>
    have hentry : ∀ key, (s.step (.blockRetainedPromptDomains keys)).1.retainedPrompts.lookup key =
        if key ∈ keys then some ⟨none, true⟩ else s.retainedPrompts.lookup key :=
      fun key => Assoc.lookup_foldl_insert keys (fun _ => (⟨none, true⟩ : RetainedPrompt)) _ key
    constructor
    · intro i j key hij hi hj
      rw [hentry]
      split_ifs
      · exact ⟨_, rfl, rfl⟩
      · exact h.shared i j key hij hi hj
    · intro key entry hlookup hb
      rw [hentry] at hlookup
      split_ifs at hlookup
      · cases hlookup
        rfl
      · exact h.blocked key entry hlookup hb
  | installRetainedPrompts entries =>
    have hboth := Bool.and_eq_true_iff.mp hc
    constructor
    · intro i j key hij hi hj
      have hkey := List.all_eq_true.mp hboth.2 key (Assoc.mem_values.mpr ⟨i, hi⟩)
      rw [Bool.or_eq_true, decide_eq_true_eq] at hkey
      have hblocked := hkey.resolve_left (hmany hij hi hj)
      rw [Option.any_eq_true] at hblocked
      exact hblocked
    · intro key entry hlookup hb
      have hmem := List.all_eq_true.mp hboth.1 _ (AList.mem_lookup_iff.mp hlookup)
      rw [hb, Bool.not_true, Bool.false_or, Option.isNone_iff_eq_none] at hmem
      exact hmem
  | _ => cases hop

/-- A refused commit only drops its guard. -/
theorem commit_error_eq {decision : CommitDecision} {cause : SelectionCause}
    {m : LifecycleMutations} {e : CommitError}
    (h : (s.commitSelectionTransition decision cause m).2 = .error e) :
    (s.commitSelectionTransition decision cause m).1 = s.touch := by
  unfold commitSelectionTransition at h ⊢
  dsimp only at h ⊢
  split at h
  · rfl
  · cases h

theorem DomainsKept.commit (h : s.DomainsKept) (decision : CommitDecision) (cause : SelectionCause)
    (m : LifecycleMutations) : (s.commitSelectionTransition decision cause m).1.DomainsKept := by
  cases hresult : (s.commitSelectionTransition decision cause m).2 with
  | ok result =>
    obtain ⟨-, t, heq, hleft, -⟩ := committed_of_ok hresult
    rw [heq]
    exact ((h.applyCommitPromptDomains m cause).of_sub hleft.keys hleft.retained).drop s
  | error e =>
    rw [commit_error_eq hresult]
    exact h.drop s

theorem DomainsKept.step (h : s.DomainsKept) (hs : s.Carried) {op : ManagerOp}
    (hc : s.consistent op = true) : (s.step op).1.DomainsKept := by
  cases haside : op.aside with
  | true => exact h.aside haside hc
  | false =>
    cases hclaims : op.claims with
    | true =>
      cases op with
      | commitSelectionTransition decision cause m => exact h.commit decision cause m
      | setLastPrompt id prompt => exact h.setLastPrompt id prompt
      | seedIfAbsent id key prompt => exact h.seedIfAbsent id key prompt
      | _ => cases hclaims
    | false =>
      have heffect := effect_step hs.keyed hs.tidy op
      generalize (s.step op).1 = u at heffect ⊢
      cases heffect with
      | kept => exact h
      | aside hop retained writable reusable => cases haside.symm.trans hop
      | edited t ht => exact (h.of_sub (fun _ _ hid => ht.promptKeys ▸ hid) ht.retainedPrompts).drop s
      | claimed hop t ht => cases hclaims.symm.trans hop
      | raised t ht id nonce hid =>
        have hdrop := (h.of_sub (fun _ _ hid => ht.promptKeys ▸ hid) ht.retainedPrompts).drop s
        exact hdrop.of_sub (fun _ _ hid => hid) rfl

/-! The stages of an operation. -/

theorem promptKeys_seedIfAbsent {id : Uuid} {key : PromptKey} {prompt : String} {j : Uuid}
    {other : PromptKey} (h : (s.seedIfAbsent id key prompt).1.promptKeys.lookup j = some other) :
    s.promptKeys.lookup j = some other ∨
      j = id ∧ other = key ∧ s.promptDomainExclusive key (some id) = true := by
  unfold seedIfAbsent at h
  split_ifs at h with hrefused
  · exact .inl (lookup_promptKeys_drop h)
  · have hinsert : (s.promptKeys.insert id key).lookup j = some other := lookup_promptKeys_drop h
    rw [Assoc.lookup_insert_eq] at hinsert
    split_ifs at hinsert with hid
    · refine .inr ⟨hid, (Option.some.inj hinsert).symm, ?_⟩
      simp only [Bool.or_eq_true, not_or, Bool.not_eq_true', Bool.not_eq_false] at hrefused
      exact hrefused.1.1.2
    · exact .inl hinsert

theorem DomainsKept.givesAlone_seedIfAbsent (h : s.DomainsKept) (id : Uuid) (key : PromptKey)
    (prompt : String) (predecessor : Option Uuid) :
    GivesAlone s (s.seedIfAbsent id key prompt).1 predecessor := by
  rintro i other ⟨hown, row, row', text, -, -, -, -, hretained⟩ j hj
  have hnot : s.promptKeys.lookup j ≠ some other := by
    intro hshare
    rcases promptKeys_seedIfAbsent hown with hold | ⟨hid, hkey, hexcl⟩
    · have hnone := h.retained_of_shared hj hshare hold
      cases hnone.symm.trans hretained
    · subst hkey
      have halone := promptDomainExclusive_iff.mp hexcl j hshare
      exact hj ((Option.some.inj halone).symm.trans hid.symm)
  refine ⟨fun hshare => absurd hshare hnot, ?_⟩
  intro hshare
  rcases promptKeys_seedIfAbsent hshare with hold | ⟨hid, hkey, hexcl⟩
  · exact hnot hold
  · subst hkey hid
    rcases promptKeys_seedIfAbsent hown with hold | ⟨hi, -, -⟩
    · have halone := promptDomainExclusive_iff.mp hexcl i hold
      exact hj (Option.some.inj halone)
    · exact hj hi.symm

/-- An operation that claims no domain makes nobody an owner. -/
theorem promptKeys_step (hs : s.Carried) {op : ManagerOp} (hop : op.claims = false) {id : Uuid}
    {key : PromptKey} (h : (s.step op).1.promptKeys.lookup id = some key) :
    s.promptKeys.lookup id = some key := by
  have heffect := effect_step hs.keyed hs.tidy op
  generalize (s.step op).1 = u at heffect h
  cases heffect with
  | kept => exact h
  | aside haside retained writable reusable => exact h
  | edited t ht => exact ht.promptKeys ▸ lookup_promptKeys_drop h
  | claimed hclaims t ht => cases hop.symm.trans hclaims
  | raised t ht j nonce hj =>
    have hkey : t.promptKeys.lookup id = some key := lookup_promptKeys_drop h
    exact ht.promptKeys ▸ hkey

theorem promptKeys_setLastPrompt {id : Uuid} {prompt : String} {j : Uuid} {key : PromptKey}
    (h : (s.setLastPrompt id prompt).promptKeys.lookup j = some key) :
    s.promptKeys.lookup j = some key := by
  have hkeys := lookup_promptKeys_drop h
  dsimp only at hkeys
  split_ifs at hkeys
  · exact hkeys
  · split at hkeys
    · exact hkeys
    · exact hkeys

theorem DomainsKept.givesAlone_step (h : s.DomainsKept) (hs : s.Carried) {op : ManagerOp}
    (hop : ∀ decision cause m, op ≠ .commitSelectionTransition decision cause m)
    (predecessor : Option Uuid) : GivesAlone s (s.step op).1 predecessor := by
  cases hclaims : op.claims with
  | false => exact h.givesAlone (fun _ _ hid => promptKeys_step hs hclaims hid) predecessor
  | true =>
    cases op with
    | commitSelectionTransition decision cause m => exact absurd rfl (hop decision cause m)
    | seedIfAbsent id key prompt => exact h.givesAlone_seedIfAbsent id key prompt predecessor
    | setLastPrompt id prompt =>
      exact h.givesAlone (fun _ _ hid => promptKeys_setLastPrompt hid) predecessor
    | _ => cases hclaims

theorem DomainsKept.stagesAlone (h : s.DomainsKept) (hs : s.Carried) (op : ManagerOp) :
    StagesAlone s (s.promptStages op) := by
  by_cases hop : ∀ decision cause m, op ≠ .commitSelectionTransition decision cause m
  · have hone : s.promptStages op = [(none, (s.step op).1)] := by
      cases op with
      | commitSelectionTransition decision cause m => exact absurd rfl (hop decision cause m)
      | _ => rfl
    rw [hone]
    exact ⟨h.givesAlone_step hs hop none, trivial⟩
  · push Not at hop
    obtain ⟨decision, cause, m, rfl⟩ := hop
    unfold promptStages
    dsimp only
    split
    · next result hresult =>
      obtain ⟨-, t, heq, hleft, -⟩ := committed_of_ok hresult
      have htransferred := domainsKept_transferPrompts h m
      have hdomains := h.applyCommitPromptDomains m cause
      refine ⟨h.givesAlone ?_ none, htransferred.finalizeStages _ _ _ ?_⟩
      · intro id key hid
        rw [promptKeys_transferPrompts] at hid
        exact hid
      · apply hdomains.givesAlone
        intro id key hid
        have hid : (s.commitSelectionTransition decision cause m).1.promptKeys.lookup id =
          some key := hid
        rw [heq] at hid
        exact hleft.keys id key (lookup_promptKeys_drop hid)
    · next e hresult =>
      refine ⟨h.givesAlone ?_ none, trivial⟩
      intro id key hid
      have htouch : (s.commitSelectionTransition decision cause m).1 = s.touch := by
        unfold commitSelectionTransition at hresult ⊢
        dsimp only at hresult ⊢
        split at hresult
        · rfl
        · cases hresult
      have hid : (s.commitSelectionTransition decision cause m).1.promptKeys.lookup id =
        some key := hid
      rw [htouch] at hid
      exact lookup_promptKeys_drop hid

/-! The predecessor does not outlive the commit. -/

theorem mem_removals_of_predecessor {m : LifecycleMutations} {cause : SelectionCause} {id j : Uuid}
    (hvalid : s.validateLifecycleMutations m = .ok ())
    (h : s.predecessorOf m cause id = some j) : j ∈ m.removals := by
  have htransferred : (m.promptTransfers.find? fun t => t.2.sessionId = id).map (·.1) = some j →
      j ∈ m.removals := by
    intro hfound
    obtain ⟨transfer, hfind, rfl⟩ := Option.map_eq_some_iff.mp hfound
    unfold validateLifecycleMutations at hvalid
    simp only [bind_eq_ok, ensure_eq_ok, decide_eq_true_eq, exists_and_left,
      exists_const] at hvalid
    obtain ⟨-, -, -, -, -, -, -, -, _, -, -, -, htransfers⟩ := hvalid
    have hone := forEach_eq_ok htransfers transfer (List.mem_of_find?_eq_some hfind)
    unfold validatePromptTransfer at hone
    obtain ⟨source, -, hone⟩ := bind_eq_ok.mp hone
    obtain ⟨target, -, hone⟩ := bind_eq_ok.mp hone
    obtain ⟨_, hchecks, -⟩ := bind_eq_ok.mp hone
    simp only [ensure_eq_ok, Bool.and_eq_true, decide_eq_true_eq] at hchecks
    exact hchecks.1.1.1.1.1.1.1.1
  unfold predecessorOf at h
  dsimp only at h
  split_ifs at h
  · split at h
    · exact htransferred h
    · split at h
      · next source hsource =>
        cases h
        exact List.mem_of_find?_eq_some hsource
      · exact htransferred h
  · exact htransferred h

theorem sessions_applyRemoval (a : Applied) (id j : Uuid) :
    j ∈ (applyRemoval a id).state.sessions → j ∈ a.state.sessions ∧ j ≠ id := by
  unfold applyRemoval
  split
  · next hnone =>
    intro hj
    refine ⟨hj, ?_⟩
    rintro rfl
    exact AList.lookup_eq_none.mp hnone hj
  · obtain ⟨bindings, seeds, origins, heq⟩ := retireCodingAgentBinding_eq { a.state with
      sessions := a.state.sessions.erase id
      order := a.state.order.filter (· ≠ id)
      promptKeys := a.state.promptKeys.erase id
      promptSeedBlocked := a.state.promptSeedBlocked.erase id
      pendingPrompts := a.state.pendingPrompts.erase id
      pendingCreate := a.state.pendingCreate.erase id } id
    dsimp only
    unfold removeRow
    rw [heq]
    exact mem_of_mem_erase

theorem not_mem_of_removal (l : List Uuid) {a : Applied} {j : Uuid} (hj : j ∈ l) :
    j ∉ (l.foldl applyRemoval a).state.sessions := by
  have hsub : ∀ (l : List Uuid) (a : Applied), j ∈ (l.foldl applyRemoval a).state.sessions →
      j ∈ a.state.sessions ∧ j ∉ l := by
    intro l
    induction l with
    | nil => exact fun a ha => ⟨ha, List.not_mem_nil⟩
    | cons id l ih =>
      intro a ha
      obtain ⟨hmem, hnot⟩ := ih _ ha
      obtain ⟨hmem, hne⟩ := sessions_applyRemoval a id j hmem
      exact ⟨hmem, List.not_mem_cons_of_ne_of_not_mem hne hnot⟩
  exact fun hmem => (hsub l a hmem).2 hj

theorem predecessor_of_mem_finalizeStages {predecessor : Uuid → Option Uuid} {allow : Bool}
    {ids : List Uuid} {stage : Option Uuid × SessionManagerState}
    (h : stage ∈ finalizeStages predecessor allow s ids) : ∃ id, stage.1 = predecessor id := by
  induction ids generalizing s with
  | nil => cases h
  | cons id ids ih =>
    rcases List.mem_cons.mp h with rfl | h
    · exact ⟨id, rfl⟩
    · exact ih h

/-- Whoever a row succeeds to is gone when the operation ends. -/
theorem predecessor_gone {op : ManagerOp} {stage : Option Uuid × SessionManagerState}
    (h : stage ∈ s.promptStages op) {j : Uuid} (hj : stage.1 = some j) :
    j ∉ (s.step op).1.sessions := by
  have hone : stage ∈ [((none : Option Uuid), (s.step op).1)] → False := by
    intro hmem
    rw [List.mem_singleton.mp hmem] at hj
    cases hj
  unfold promptStages at h
  split at h
  · next decision cause m =>
    split at h
    · next result hresult =>
      obtain ⟨hvalid, t, heq, -, hrows⟩ := committed_of_ok hresult
      rcases List.mem_cons.mp h with rfl | h
      · cases hj
      · rcases List.mem_append.mp h with h | h
        · obtain ⟨id, hid⟩ := predecessor_of_mem_finalizeStages h
          have hremoved := mem_removals_of_predecessor hvalid (hid.symm.trans hj)
          intro hmem
          have hmem : j ∈ (s.commitSelectionTransition decision cause m).1.sessions := hmem
          rw [heq, mem_drop] at hmem
          exact not_mem_of_removal m.removals hremoved (hrows j hmem)
        · exact (hone h).elim
    · exact (hone h).elim
  · exact (hone h).elim

/-- The law of the prompt domains, over a state and the operation it is at. -/
structure PromptLaw (s : SessionManagerState) (op : ManagerOp) : Prop extends s.DomainsKept where
  alone : StagesAlone s (s.promptStages op)
  gone : ∀ stage ∈ s.promptStages op, ∀ j, stage.1 = some j → j ∉ (s.step op).1.sessions

theorem domainsKept_new (epoch : Uuid) : (new epoch).DomainsKept where
  shared i j key hij hi := by cases hi
  blocked key entry h := by cases h

theorem promptLaw_run (epoch : Uuid) (ops : List ManagerOp) (op : ManagerOp)
    (hops : sessionManager.Along (fun s op => s.consistent op = true) (new epoch) ops) :
    PromptLaw (sessionManager.run (new epoch) ops) op := by
  have hboth := Machine.run_inv (M := sessionManager) (P := fun s => s.Carried ∧ s.DomainsKept)
    (fun s op h hc => ⟨h.1.step op, h.2.step h.1 hc⟩) ⟨carried_new epoch, domainsKept_new epoch⟩
    hops
  obtain ⟨hcarried, hdomains⟩ := hboth
  refine ⟨hdomains, hdomains.stagesAlone hcarried op, ?_⟩
  intro stage hstage j hj
  exact predecessor_gone hstage hj

def reviewerKey : PromptKey := ⟨"/work", "reviewer", none, "main"⟩

/-- A retained prompt is installed, and a session is prepared that may take it up. -/
def takingUp : List ManagerOp :=
  [.installRetainedPrompts (some ((∅ : AList fun _ : PromptKey => RetainedPrompt).insert
      reviewerKey ⟨some "go on", false⟩)),
    .createPendingSession ⟨1, 2⟩
      ⟨"sh", [], "/work", some "reviewer", none, [], false, .localProcess⟩ 3 0,
    .setPendingProfileMetadata ⟨1, 2⟩ ⟨none, some "main", [], false, none, none, none, none⟩,
    .initializePendingPrompt ⟨1, 2⟩ (some reviewerKey) none true false true]

/-- The session is finalized, and shows the prompt that was kept for it. -/
def takesUp : ManagerOp :=
  .commitSelectionTransition (.live ⟨1, true, false⟩) (.sessionCreated .user)
    ⟨[], [], [], [.live ⟨1, 2⟩ ⟨1, true, false⟩], []⟩

example : ((sessionManager.run (new 0) (takingUp ++ [takesUp])).sessions.lookup 1).bind
    (·.lastPrompt) = some "go on" := by decide +kernel

theorem promptLaw_run_takesUp : PromptLaw (sessionManager.run (new 0) takingUp) takesUp :=
  promptLaw_run 0 takingUp takesUp (by decide +kernel)

end SessionManagerState
end AgentsCommander.Sessions
