import AgentsCommander.Sessions.SelectionLaw

/-! What the write guard does when it is dropped: nothing is kept beside a row that is gone, and
the version of a row grows with each change a carrier may rely on. -/
namespace AgentsCommander.Sessions
open Foundation
namespace SessionManagerState
variable {s t : SessionManagerState}

/-- Every row stands under its own id. -/
def Keyed (s : SessionManagerState) : Prop :=
  ∀ id row, s.sessions.lookup id = some row → row.id = id

/-- The ids for which something is kept beside the rows. -/
structure Beside (s : SessionManagerState) (P : Uuid → Prop) : Prop where
  pendingPrompts : ∀ id ∈ s.pendingPrompts, P id
  promptSeedBlocked : ∀ id ∈ s.promptSeedBlocked, P id
  raiseNonces : ∀ id ∈ s.raiseNonces, P id

/-- What a mutation leaves to the guard that was taken in `s`. -/
structure Written (s t : SessionManagerState) : Prop where
  versions : t.carrierVersions = s.carrierVersions
  keyed : t.Keyed
  beside : t.Beside (· ∈ s.sessions)

/-- Nothing is kept for an id that has no row. -/
structure Tidy (s : SessionManagerState) : Prop extends s.Beside (· ∈ s.sessions) where
  promptKeys : ∀ id ∈ s.promptKeys, id ∈ s.sessions
  pendingCreate : ∀ id ∈ s.pendingCreate, id ∈ s.sessions

/-- The part a row has in the selection. -/
def involvement (s : SessionManagerState) (id : Uuid) : Option SelectionMode :=
  if s.selection.id = some id then some s.selection.mode else none

/-- Between two states a row came or went, a stable field of it changed, or it changed in being
a pending create or in its part in the selection. -/
def stableChanged (s s' : SessionManagerState) (id : Uuid) : Bool :=
  (match s.sessions.lookup id, s'.sessions.lookup id with
    | some a, some b => !stableCarrierEqual a b
    | none, none => false
    | _, _ => true) || s.isPending id ≠ s'.isPending id || s.involvement id ≠ s'.involvement id

theorem Beside.mono {P Q : Uuid → Prop} (h : s.Beside P) (hPQ : ∀ id, P id → Q id) :
    s.Beside Q where
  pendingPrompts id hid := hPQ id (h.pendingPrompts id hid)
  promptSeedBlocked id hid := hPQ id (h.promptSeedBlocked id hid)
  raiseNonces id hid := hPQ id (h.raiseNonces id hid)

theorem mem_sessions {id : Uuid} {row : Session} (h : s.sessions.lookup id = some row) :
    id ∈ s.sessions := by
  rw [← AList.lookup_isSome, h]
  rfl

theorem mem_sessions_iff {id : Uuid} :
    id ∈ s.sessions ↔ ∃ row, s.sessions.lookup id = some row := by
  rw [← AList.lookup_isSome, Option.isSome_iff_exists]

theorem Keyed.adjust (h : s.Keyed) (hs : t.sessions = s.sessions) (id : Uuid)
    {f : Session → Session} (hf : ∀ row, (f row).id = row.id) (j : Uuid) {row : Session}
    (hrow : (Assoc.adjust t.sessions id f).lookup j = some row) : row.id = j := by
  rw [hs, Assoc.lookup_adjust] at hrow
  split_ifs at hrow
  · obtain ⟨old, hold, rfl⟩ := Option.map_eq_some_iff.mp hrow
    rw [hf]
    exact h j old hold
  · exact h j row hrow

theorem mem_adjust {m : AList fun _ : Uuid => Session} {id : Uuid} {f : Session → Session}
    {j : Uuid} : j ∈ Assoc.adjust m id f ↔ j ∈ m := by
  rw [← AList.lookup_isSome, ← AList.lookup_isSome, Assoc.lookup_adjust]
  split_ifs
  · rw [Option.isSome_map]
  · rfl

theorem mem_foldl_adjust {m : AList fun _ : Uuid => Session} {f : Session → Session}
    (l : List Session) {j : Uuid} :
    j ∈ l.foldl (fun m row => Assoc.adjust m row.id f) m ↔ j ∈ m := by
  induction l generalizing m with
  | nil => rfl
  | cons row l ih => rw [List.foldl_cons, ih, mem_adjust]

/-! The domains are invalidated first. -/

theorem mem_invalidate {before : SessionManagerState} {id : Uuid} :
    id ∈ (invalidatePromptDomains before s).sessions ↔ id ∈ s.sessions := by
  unfold invalidatePromptDomains
  exact mem_foldl_adjust _

theorem keyed_invalidate {before : SessionManagerState} (h : s.Keyed) :
    (invalidatePromptDomains before s).Keyed := by
  unfold invalidatePromptDomains Keyed
  dsimp only
  apply List.foldlRecOn (motive := fun m : AList fun _ : Uuid => Session =>
    ∀ id row, m.lookup id = some row → row.id = id)
  · exact h
  · intro m hm r hr id row hrow
    rw [Assoc.lookup_adjust] at hrow
    split_ifs at hrow
    · obtain ⟨old, hold, rfl⟩ := Option.map_eq_some_iff.mp hrow
      exact hm id old hold
    · exact hm id row hrow

theorem promptKeys_invalidate {before : SessionManagerState} {id : Uuid}
    (h : id ∈ (invalidatePromptDomains before s).promptKeys) : id ∈ s.sessions := by
  unfold invalidatePromptDomains at h
  obtain ⟨e, he, rfl⟩ := List.mem_map.mp h
  have hkeep := (List.mem_filter.mp he).2
  obtain ⟨row, hrow, -⟩ := Option.any_eq_true .. |>.mp hkeep
  exact mem_sessions hrow

theorem beside_invalidate {before : SessionManagerState} {P : Uuid → Prop} (h : s.Beside P)
    (hk : s.Keyed) : (invalidatePromptDomains before s).Beside fun id => P id ∨ id ∈ s.sessions where
  pendingPrompts id hid := .inl (h.pendingPrompts id hid)
  promptSeedBlocked id hid := by
    rcases Finset.mem_union.mp hid with hid | hid
    · exact .inl (h.promptSeedBlocked id hid)
    · right
      obtain ⟨row, hrow, rfl⟩ := List.mem_map.mp (List.mem_toFinset.mp hid)
      obtain ⟨j, hj⟩ := Assoc.mem_values.mp (List.mem_of_mem_filter hrow)
      rw [hk j row hj]
      exact mem_sessions hj
  raiseNonces id hid := .inl (h.raiseNonces id hid)

/-! The rows that are gone are retired next, and the rows that are there are published. -/

theorem version_insert (s : SessionManagerState) (id : Uuid) (n : ℕ) (j : Uuid) :
    version { s with carrierVersions := s.carrierVersions.insert id n } j =
      if j = id then n else s.version j := by
  unfold version
  dsimp only
  rw [Assoc.lookup_insert_eq]
  split_ifs <;> rfl

/-- The version counts up, and stops at the end of its range. -/
theorem version_bumpVersion (s : SessionManagerState) (id j : Uuid) :
    (s.bumpVersion id).version j =
      if j = id then max (s.version j) (min (s.version j + 1) u64Max) else s.version j := by
  unfold bumpVersion checkedAdd
  split_ifs with hlt hj
  · subst hj
    dsimp only
    rw [version_insert, if_pos rfl]
    omega
  · dsimp only
    rw [version_insert, if_neg hj]
  · subst_vars
    dsimp only
    omega
  · rfl

theorem version_retireRow (s : SessionManagerState) (id j : Uuid) :
    (s.retireRow id).version j = (s.bumpVersion id).version j := rfl

theorem version_publishRow (before s : SessionManagerState) (row : Session) (j : Uuid) :
    (publishRow before s row).version j =
      if carrierChanged before s row then (s.bumpVersion row.id).version j else s.version j := by
  unfold publishRow bumpVersion
  split_ifs
  · cases checkedAdd u64Max (s.version row.id) with
    | none => rfl
    | some next => rfl
  · rfl

theorem le_version_bumpVersion (s : SessionManagerState) (id j : Uuid) :
    s.version j ≤ (s.bumpVersion id).version j := by
  rw [version_bumpVersion]
  split_ifs <;> omega

theorem le_version_publishRow (before s : SessionManagerState) (row : Session) (j : Uuid) :
    s.version j ≤ (publishRow before s row).version j := by
  rw [version_publishRow]
  split_ifs
  · exact le_version_bumpVersion s row.id j
  · exact le_rfl

/-- What retiring and publishing leave alone. -/
def rowFrame (s : SessionManagerState) :
    (AList fun _ : Uuid => Session) × (AList fun _ : Uuid => Uuid) × SessionSelection :=
  (s.sessions, s.pendingCreate, s.selection)

theorem rowFrame_bumpVersion (s : SessionManagerState) (id : Uuid) :
    (s.bumpVersion id).rowFrame = s.rowFrame := by
  unfold bumpVersion
  split <;> rfl

theorem rowFrame_retireRow (s : SessionManagerState) (id : Uuid) :
    (s.retireRow id).rowFrame = s.rowFrame := rowFrame_bumpVersion s id

theorem rowFrame_publishRow (before s : SessionManagerState) (row : Session) :
    (publishRow before s row).rowFrame = s.rowFrame := by
  unfold publishRow
  split_ifs
  · split <;> rfl
  · rfl

theorem carrierChanged_congr {before : SessionManagerState} (h : t.rowFrame = s.rowFrame)
    (row : Session) : carrierChanged before t row = carrierChanged before s row := by
  obtain ⟨-, hp, hs⟩ : t.sessions = s.sessions ∧ t.pendingCreate = s.pendingCreate ∧
      t.selection = s.selection := by
    simpa only [rowFrame, Prod.mk.injEq] using h
  unfold carrierChanged isPending
  rw [hp, hs]

/-- The ids whose rows a write took away. -/
def removedIds (before s : SessionManagerState) : List Uuid :=
  before.sessions.keys.filter fun id => (s.sessions.lookup id).isNone

theorem mem_removedIds {before : SessionManagerState} {id : Uuid} :
    id ∈ removedIds before s ↔ id ∈ before.sessions ∧ id ∉ s.sessions := by
  unfold removedIds
  rw [List.mem_filter, AList.mem_keys, Option.isNone_iff_eq_none, AList.lookup_eq_none]

/-- The state between the two passes. -/
def retired (before s : SessionManagerState) : SessionManagerState :=
  let s := invalidatePromptDomains before s
  (removedIds before s).foldl retireRow s

theorem drop_eq (before s : SessionManagerState) :
    drop before s = (retired before s).rows.foldl (publishRow before) (retired before s) := rfl

theorem rowFrame_retired (before s : SessionManagerState) :
    (retired before s).rowFrame = (invalidatePromptDomains before s).rowFrame :=
  Assoc.foldl_frame rowFrame retireRow rowFrame_retireRow _ _

theorem rowFrame_drop (before s : SessionManagerState) :
    (drop before s).rowFrame = (invalidatePromptDomains before s).rowFrame := by
  rw [drop_eq, Assoc.foldl_frame rowFrame (publishRow before) (rowFrame_publishRow before),
    rowFrame_retired]

theorem sessions_drop (before s : SessionManagerState) :
    (drop before s).sessions = (invalidatePromptDomains before s).sessions :=
  congrArg Prod.fst (rowFrame_drop before s)

theorem mem_drop {before : SessionManagerState} {id : Uuid} :
    id ∈ (drop before s).sessions ↔ id ∈ s.sessions := by
  rw [sessions_drop, mem_invalidate]

theorem keyed_drop {before : SessionManagerState} (h : s.Keyed) : (drop before s).Keyed := by
  unfold Keyed
  rw [sessions_drop]
  exact keyed_invalidate h

theorem version_invalidate (before s : SessionManagerState) (id : Uuid) :
    (invalidatePromptDomains before s).version id = s.version id := rfl

theorem Written.version (h : Written s t) (id : Uuid) : t.version id = s.version id := by
  unfold SessionManagerState.version
  rw [h.versions]

theorem le_version_retireRow (s : SessionManagerState) (id j : Uuid) :
    s.version j ≤ (s.retireRow id).version j := le_version_bumpVersion s id j

theorem le_version_retired (h : Written s t) (id : Uuid) :
    s.version id ≤ (retired s t).version id := by
  rw [← h.version, ← version_invalidate s t]
  exact Assoc.le_foldl (version · id) retireRow (le_version_retireRow · · id) _ _

theorem le_version_drop (h : Written s t) (id : Uuid) : s.version id ≤ (drop s t).version id := by
  rw [drop_eq]
  apply (le_version_retired h id).trans
  exact Assoc.le_foldl (version · id) (publishRow s) (le_version_publishRow s · · id) _ _

/-- The version of a row that was taken away grows. -/
theorem lt_version_of_removed (h : Written s t) {id : Uuid} (hid : id ∈ s.sessions)
    (hgone : id ∉ t.sessions) (hv : s.version id < u64Max) :
    s.version id < (drop s t).version id := by
  have hretired : s.version id < (retired s t).version id := by
    refine Assoc.lt_foldl_of_mem (P := fun _ => True) (b := id) (le_version_retireRow · · id)
      (fun _ _ _ => trivial) ?_ ?_ trivial (h.version id).ge
    · rw [mem_removedIds, mem_invalidate]
      exact ⟨hid, hgone⟩
    · intro u _ hu
      rw [version_retireRow, version_bumpVersion, if_pos rfl]
      omega
  rw [drop_eq]
  apply hretired.trans_le
  exact Assoc.le_foldl (version · id) (publishRow s) (le_version_publishRow s · · id) _ _

/-- The version of a row that is there grows when a carrier may care. -/
theorem lt_version_of_changed (h : Written s t) {row : Session}
    (hrow : (drop s t).sessions.lookup row.id = some row)
    (hchanged : carrierChanged s (drop s t) row = true) (hv : s.version row.id < u64Max) :
    s.version row.id < (drop s t).version row.id := by
  have hframe : (retired s t).rowFrame = (drop s t).rowFrame := by
    rw [rowFrame_drop, rowFrame_retired]
  have hmem : row ∈ (retired s t).rows := by
    apply Assoc.mem_values.mpr
    refine ⟨row.id, ?_⟩
    rw [show (retired s t).sessions = (drop s t).sessions from congrArg Prod.fst hframe]
    exact hrow
  rw [drop_eq]
  refine Assoc.lt_foldl_of_mem (P := fun u => u.rowFrame = (drop s t).rowFrame) (b := row)
    (le_version_publishRow s · · row.id) ?_ hmem ?_ hframe (le_version_retired h row.id)
  · intro u b hu
    rw [rowFrame_publishRow, hu]
  · intro u hu hle
    rw [version_publishRow, carrierChanged_congr hu, if_pos hchanged, version_bumpVersion,
      if_pos rfl]
    omega

/-- A difference in the part a row has in the selection is one the guard looks for. -/
theorem selection_of_involvement {s' : SessionManagerState} {id : Uuid}
    (h : s.involvement id ≠ s'.involvement id) :
    (s.selection.id ≠ s'.selection.id ∨ s.selection.mode ≠ s'.selection.mode) ∧
      (s.selection.id = some id ∨ s'.selection.id = some id) := by
  unfold involvement at h
  split_ifs at h with hs hs' hs'
  · refine ⟨.inr ?_, .inl hs⟩
    intro hm
    exact h (congrArg some hm)
  · refine ⟨.inl ?_, .inl hs⟩
    intro he
    exact hs' (he.symm.trans hs)
  · refine ⟨.inl ?_, .inr hs'⟩
    intro he
    exact hs (he.trans hs')
  · exact absurd rfl h

theorem carrierChanged_of_stableChanged {s' : SessionManagerState} {row : Session}
    (hrow : s'.sessions.lookup row.id = some row) (h : stableChanged s s' row.id = true) :
    carrierChanged s s' row = true := by
  unfold stableChanged at h
  unfold carrierChanged
  rw [hrow] at h
  rw [Bool.or_eq_true, Bool.or_eq_true] at h ⊢
  rcases h with (h | h) | h
  · left
    left
    cases hold : s.sessions.lookup row.id with
    | none => rfl
    | some old =>
      rw [hold] at h
      exact h
  · exact .inl (.inr h)
  · right
    have hsel := selection_of_involvement (of_decide_eq_true h)
    simpa only [Bool.and_eq_true, Bool.or_eq_true, decide_eq_true_eq] using hsel

theorem mem_of_mem_erase {β : Type} {m : AList fun _ : Uuid => β} {id j : Uuid}
    (h : j ∈ m.erase id) : j ∈ m ∧ j ≠ id := by
  rw [AList.mem_erase] at h
  exact ⟨h.2, h.1⟩

theorem Beside.retireRow {P : Uuid → Prop} (h : s.Beside P) (id : Uuid) :
    (s.retireRow id).Beside fun j => P j ∧ j ≠ id where
  pendingPrompts j hj := by
    obtain ⟨hmem, hne⟩ := mem_of_mem_erase hj
    exact ⟨h.pendingPrompts j hmem, hne⟩
  promptSeedBlocked j hj := by
    obtain ⟨hne, hmem⟩ := Finset.mem_erase.mp hj
    exact ⟨h.promptSeedBlocked j hmem, hne⟩
  raiseNonces j hj := by
    obtain ⟨hmem, hne⟩ := mem_of_mem_erase hj
    exact ⟨h.raiseNonces j hmem, hne⟩

theorem Beside.foldl_retireRow {P : Uuid → Prop} (h : s.Beside P) (l : List Uuid) :
    (l.foldl SessionManagerState.retireRow s).Beside fun j => P j ∧ j ∉ l := by
  induction l generalizing s P with
  | nil => exact h.mono fun j hj => ⟨hj, List.not_mem_nil⟩
  | cons id l ih =>
    rw [List.foldl_cons]
    apply (ih (h.retireRow id)).mono
    intro j hj
    exact ⟨hj.1.1, List.not_mem_cons_of_ne_of_not_mem hj.1.2 hj.2⟩

theorem Beside.publishRow {P : Uuid → Prop} (h : s.Beside P) (before : SessionManagerState)
    (row : Session) : (publishRow before s row).Beside P := by
  unfold SessionManagerState.publishRow
  split_ifs
  · split
    · exact h
    · exact ⟨h.pendingPrompts, h.promptSeedBlocked,
        fun j hj => h.raiseNonces j (mem_of_mem_erase hj).1⟩
  · exact h

theorem Beside.drop (h : s.Written t) : (drop s t).Beside (· ∈ t.sessions) := by
  have hinv : (invalidatePromptDomains s t).Beside fun j => j ∈ s.sessions ∨ j ∈ t.sessions :=
    beside_invalidate h.beside h.keyed
  have hret : (retired s t).Beside (· ∈ t.sessions) := by
    apply (hinv.foldl_retireRow _).mono
    rintro j ⟨hj, hnot⟩
    rw [mem_removedIds, mem_invalidate, not_and_not_right] at hnot
    rcases hj with hj | hj
    · exact hnot hj
    · exact hj
  rw [drop_eq]
  apply List.foldlRecOn (motive := fun u : SessionManagerState => u.Beside (· ∈ t.sessions))
  · exact hret
  · intro u hu row _
    exact hu.publishRow s row

/-- Publishing leaves the owners of the domains. -/
theorem promptKeys_publish (before s : SessionManagerState) :
    (drop before s).promptKeys = (retired before s).promptKeys := by
  rw [drop_eq]
  apply Assoc.foldl_frame promptKeys
  intro u row
  unfold publishRow
  split_ifs
  · split <;> rfl
  · rfl

theorem promptKeys_drop {before : SessionManagerState} {id : Uuid}
    (h : id ∈ (drop before s).promptKeys) : id ∈ s.sessions := by
  have hret : ∀ (l : List Uuid) (u : SessionManagerState), id ∈ (l.foldl retireRow u).promptKeys →
      id ∈ u.promptKeys := by
    intro l
    induction l with
    | nil => exact fun u hu => hu
    | cons j l ih => exact fun u hu => (mem_of_mem_erase (ih _ hu)).1
  rw [promptKeys_publish] at h
  exact promptKeys_invalidate (hret _ _ h)

/-- Dropping the guard leaves nothing kept beside a row that is not there. -/
theorem tidy_drop (h : s.Written t) (hp : ∀ id ∈ (drop s t).pendingCreate, id ∈ t.sessions) :
    (drop s t).Tidy where
  toBeside := (Beside.drop h).mono fun _ hid => mem_drop.mpr hid
  promptKeys _ hid := mem_drop.mpr (promptKeys_drop hid)
  pendingCreate id hid := mem_drop.mpr (hp id hid)

/-- Whoever is pending, or selected, has a row. -/
structure Rostered (s : SessionManagerState) : Prop where
  pending : ∀ id, s.isPending id = true → id ∈ s.sessions
  selected : ∀ id, s.selection.id = some id → id ∈ s.sessions

theorem rostered_of_valid (h : s.roster.Valid) : s.Rostered where
  pending id hid := by
    obtain ⟨row, hrow, -⟩ := exists_row (h.pending id hid)
    exact mem_sessions hrow
  selected id hid := by
    rcases h.represented.status_selected hid with hrow | ⟨code, hrow⟩
    · obtain ⟨row, hrow, -⟩ := exists_row hrow
      exact mem_sessions hrow
    · obtain ⟨row, hrow, -⟩ := exists_row hrow
      exact mem_sessions hrow

theorem Rostered.unchanged {s' : SessionManagerState} {id : Uuid} (h : s.Rostered)
    (h' : s'.Rostered) (hs : id ∉ s.sessions) (hs' : id ∉ s'.sessions) :
    stableChanged s s' id = false := by
  have hpending : ∀ u : SessionManagerState, u.Rostered → id ∉ u.sessions →
      u.isPending id = false ∧ u.involvement id = none := by
    intro u hu hid
    constructor
    · rw [Bool.eq_false_iff]
      exact fun hp => hid (hu.pending id hp)
    · exact if_neg fun hsel => hid (hu.selected id hsel)
  obtain ⟨hp, hi⟩ := hpending s h hs
  obtain ⟨hp', hi'⟩ := hpending s' h' hs'
  unfold stableChanged
  rw [AList.lookup_eq_none.mpr hs, AList.lookup_eq_none.mpr hs', hp, hp', hi, hi']
  rfl

/-- A change that a carrier may rely on counts. -/
theorem lt_version_drop (h : s.Written t) (hs : s.Rostered) (ht : (drop s t).Rostered) {id : Uuid}
    (hchanged : stableChanged s (drop s t) id = true) (hv : s.version id < u64Max) :
    s.version id < (drop s t).version id := by
  by_cases hid : id ∈ t.sessions
  · obtain ⟨row, hrow⟩ := mem_sessions_iff.mp (mem_drop.mpr hid : id ∈ (drop s t).sessions)
    obtain rfl : row.id = id := keyed_drop h.keyed id row hrow
    exact lt_version_of_changed h hrow (carrierChanged_of_stableChanged hrow hchanged) hv
  · by_cases hold : id ∈ s.sessions
    · exact lt_version_of_removed h hold hid hv
    · rw [hs.unchanged ht hold fun hin => hid (mem_drop.mp hin)] at hchanged
      cases hchanged

theorem version_bumpVersion_le (h : ∀ j, s.version j ≤ u64Max) (id j : Uuid) :
    (s.bumpVersion id).version j ≤ u64Max := by
  have hj := h j
  rw [version_bumpVersion]
  split_ifs <;> omega

theorem version_drop_le (h : s.Written t) (hs : ∀ j, s.version j ≤ u64Max) (j : Uuid) :
    (drop s t).version j ≤ u64Max := by
  rw [drop_eq]
  apply List.foldlRecOn (motive := fun u : SessionManagerState => ∀ j, u.version j ≤ u64Max)
  · apply List.foldlRecOn (motive := fun u : SessionManagerState => ∀ j, u.version j ≤ u64Max)
    · intro j
      rw [version_invalidate, h.version]
      exact hs j
    · exact fun u hu id _ => version_bumpVersion_le hu id
  · intro u hu row _ j
    rw [version_publishRow]
    split_ifs
    · exact version_bumpVersion_le hu row.id j
    · exact hu j

/-- Invalidating the domains changes no more of a row than its prompt. -/
theorem lookup_invalidate {before : SessionManagerState} {id : Uuid} {old : Session}
    (h : s.sessions.lookup id = some old) : ∃ prompt,
      (invalidatePromptDomains before s).sessions.lookup id =
        some { old with lastPrompt := prompt } := by
  unfold invalidatePromptDomains
  dsimp only
  apply List.foldlRecOn (motive := fun m : AList fun _ : Uuid => Session =>
    ∃ prompt, m.lookup id = some { old with lastPrompt := prompt })
  · exact ⟨old.lastPrompt, h⟩
  · rintro m ⟨prompt, hm⟩ row _
    rw [Assoc.lookup_adjust, hm]
    split_ifs
    · exact ⟨none, rfl⟩
    · exact ⟨prompt, rfl⟩

theorem lookup_drop (before : SessionManagerState) {id : Uuid} {old : Session}
    (h : s.sessions.lookup id = some old) : ∃ prompt,
      (drop before s).sessions.lookup id = some { old with lastPrompt := prompt } := by
  rw [sessions_drop]
  exact lookup_invalidate h

end SessionManagerState
end AgentsCommander.Sessions
