import AgentsCommander.PtyInput.Effects

/-! What every transaction keeps: the identities ever bound, and the little that may still
happen to a row. -/
namespace AgentsCommander.PtyInput
open Foundation
open MessageStore (Timestamp MessageStoreError)

theorem mem_identities {t : PtyTables} {i : Identity} :
    i ∈ t.identities ↔ (∃ o ∈ t.operations.rows, o.row.toPtyRecord.identity = i) ∨
      ∃ s ∈ t.tombstones.rows, s.record.identity = i := by
  simp only [PtyTables.identities, Set.mem_ofPred_eq, mem_records]
  constructor
  · rintro ⟨r, ⟨o, ho, rfl⟩ | ⟨s, hs, rfl⟩, rfl⟩
    · exact Or.inl ⟨o, ho, rfl⟩
    · exact Or.inr ⟨s, hs, rfl⟩
  · rintro (⟨o, ho, rfl⟩ | ⟨s, hs, rfl⟩)
    · exact ⟨_, Or.inl ⟨o, ho, rfl⟩, rfl⟩
    · exact ⟨_, Or.inr ⟨s, hs, rfl⟩, rfl⟩

/-- Rewriting a row under the same identity unbinds nothing. -/
theorem operation_identities_set {t : PtyTables} {o o' : Operation}
    (found : t.operations.get o'.row.injectionId = some o)
    (identity : o'.row.toPtyRecord.identity = o.row.toPtyRecord.identity) (i : Identity) :
    (∃ p ∈ (t.operations.set o').rows, p.row.toPtyRecord.identity = i) ↔
      ∃ p ∈ t.operations.rows, p.row.toPtyRecord.identity = i := by
  constructor
  · rintro ⟨p, hp, rfl⟩
    obtain ⟨q, hq, rfl⟩ := List.mem_map.mp hp
    split_ifs with hk
    · exact ⟨o, Table.mem_of_get found, identity.symm⟩
    · exact ⟨q, hq, rfl⟩
  · rintro ⟨p, hp, rfl⟩
    refine ⟨_, List.mem_map_of_mem hp, ?_⟩
    split_ifs with hk
    · have hpo : p = o := t.operations.eq_of_key_eq hp (Table.mem_of_get found)
        (hk.trans (id_of_operation found).symm)
      rw [hpo, identity]
    · rfl

/-- No identity is ever unbound; one comes in fresh, by an enqueue or a host rejection. -/
theorem identities_of_effect {t t' : PtyTables} {txn : Txn} (h : Effect t txn t') :
    t'.identities = t.identities ∨ ∃ i, txn.maintains = false ∧
      Registry.Fresh Identity.clash t.identities i ∧ t'.identities = insert i t.identities := by
  cases h with
  | unchanged => exact Or.inl rfl
  | admitted req wallNow o free status fresh coherent =>
    refine Or.inr ⟨_, rfl, fresh, Set.ext fun i => ?_⟩
    rw [Set.mem_insert_iff, mem_identities, mem_identities]
    have hops : (∃ p ∈ (t.operations.insert o free).rows, p.row.toPtyRecord.identity = i) ↔
        (∃ p ∈ t.operations.rows, p.row.toPtyRecord.identity = i) ∨
          i = o.row.toPtyRecord.identity := by
      simp only [Table.mem_insert, or_and_right, exists_or, exists_eq_left]
      rw [eq_comm (a := i)]
    rw [hops]
    exact or_right_comm.trans or_comm
  | refused req now unlocked s free fresh coherent inOrder =>
    refine Or.inr ⟨_, rfl, fresh, Set.ext fun i => ?_⟩
    rw [Set.mem_insert_iff, mem_identities, mem_identities]
    have htombs : (∃ p ∈ (t.tombstones.insert s free).rows, p.record.identity = i) ↔
        (∃ p ∈ t.tombstones.rows, p.record.identity = i) ∨ i = s.record.identity := by
      simp only [Table.mem_insert, or_and_right, exists_or, exists_eq_left]
      rw [eq_comm (a := i)]
    rw [htombs]
    exact or_assoc.symm.trans or_comm
  | waited _ o o' found before after identity coherent =>
    refine Or.inl (Set.ext fun i => ?_)
    rw [mem_identities, mem_identities, operation_identities_set found identity]
  | begun leaseOwner sessionId backend now commit o o' found before after identity coherent =>
    refine Or.inl (Set.ext fun i => ?_)
    rw [mem_identities, mem_identities, operation_identities_set found identity]
  | settled _ o o' s tombstones found before after buried record others identity coherent stamped =>
    refine Or.inl (Set.ext fun i => ?_)
    rw [mem_identities, mem_identities, operation_identities_set found identity]
    have hs : s.record.identity = o.row.toPtyRecord.identity := by rw [record, identity]
    simp only [others, or_and_right, exists_or, exists_eq_left]
    constructor
    · rintro (h | h | h)
      · exact Or.inl h
      · exact Or.inr h
      · exact Or.inl ⟨o, Table.mem_of_get found, hs.symm.trans h⟩
    · rintro (h | h)
      · exact Or.inl h
      · exact Or.inr (Or.inl h)
  | compacted _ o s found status buried record =>
    refine Or.inl (Set.ext fun i => ?_)
    rw [mem_identities, mem_identities]
    have hs : s.record.identity = o.row.toPtyRecord.identity := by rw [record]
    constructor
    · rintro (⟨p, hp, rfl⟩ | h)
      · exact Or.inl ⟨p, (List.mem_filter.mp hp).1, rfl⟩
      · exact Or.inr h
    · rintro (⟨p, hp, rfl⟩ | h)
      · by_cases hk : p.row.injectionId = o.row.injectionId
        · have hpo : p = o := t.operations.eq_of_key_eq hp (Table.mem_of_get found) hk
          exact Or.inr ⟨s, Table.mem_of_get buried, hpo ▸ hs⟩
        · exact Or.inl ⟨p, List.mem_filter.mpr ⟨hp, by simpa using hk⟩, rfl⟩
      · exact Or.inr h
  | marked now o o' found status row =>
    have identity : o'.row.toPtyRecord.identity = o.row.toPtyRecord.identity := by rw [row]
    refine Or.inl (Set.ext fun i => ?_)
    rw [mem_identities, mem_identities, operation_identities_set found identity]

/-- The tables refine a registry of identities. -/
theorem identities_grow {t t' : PtyTables} {txn : Txn} (h : Effect t txn t') :
    Registry.Grows Identity.clash t.identities t'.identities := by
  rcases identities_of_effect h with heq | ⟨i, -, hfresh, hins⟩
  · exact Or.inl heq
  · exact Or.inr ⟨i, hfresh, hins⟩

/-- Maintenance binds nothing. -/
theorem identities_of_maintains {t t' : PtyTables} {txn : Txn} (h : Effect t txn t')
    (hm : txn.maintains = true) : t'.identities = t.identities := by
  rcases identities_of_effect h with heq | ⟨i, hnot, -⟩
  · exact heq
  · rw [hm] at hnot
    cases hnot

/-- What one transaction may make of a row: nothing while it is terminal but its deletion and
the mark of its artifact. -/
inductive RowMove (txn : Txn) (o : Operation) : Option Operation → Prop where
  | kept : RowMove txn o (some o)
  | fromWaiting (o' : Operation) (before : o.row.status.isWaiting = true) : RowMove txn o (some o')
  | ended (o' : Operation) (before : o.row.status = .actuating)
      (after : o'.row.status.isTerminal = true) : RowMove txn o (some o')
  | compacted (before : o.row.status.isTerminal = true) : RowMove txn o none
  | marked (o' : Operation) (now : Timestamp) (before : o.row.status.isTerminal = true)
      (mark : txn = .markHostArtifact o.row.injectionId now)
      (row : o'.row = { o.row with hostArtifactAt := some now }) : RowMove txn o (some o')

/-- A move of the row that was rewritten is a move of every row. -/
theorem rowMove_set {t : PtyTables} {txn : Txn} {o o' : Operation}
    (found : t.operations.get o'.row.injectionId = some o) (h : RowMove txn o (some o'))
    {injectionId : String} {p : Operation} (hp : t.operations.get injectionId = some p) :
    RowMove txn p ((t.operations.set o').get injectionId) := by
  by_cases hk : injectionId = o'.row.injectionId
  · subst hk
    rw [Table.get_set_self found]
    cases found.symm.trans hp
    exact h
  · rw [Table.get_set_ne t.operations (a := o') hk, hp]
    exact .kept

theorem rowMove_of_effect {t t' : PtyTables} {txn : Txn} (h : Effect t txn t')
    {injectionId : String} {p : Operation} (hp : t.operations.get injectionId = some p) :
    RowMove txn p (t'.operations.get injectionId) := by
  cases h with
  | unchanged => exact hp ▸ .kept
  | admitted req wallNow o free status fresh coherent =>
    have hne : injectionId ≠ o.row.injectionId := by
      rintro rfl
      cases hp.symm.trans free
    rw [Table.get_insert, if_neg hne, hp]
    exact .kept
  | refused => exact hp ▸ .kept
  | waited _ o o' found before => exact rowMove_set found (.fromWaiting o' before) hp
  | begun leaseOwner sessionId backend now commit o o' found before =>
    exact rowMove_set found (.fromWaiting o' (by rw [before]; rfl)) hp
  | settled _ o o' s tombstones found before after =>
    refine rowMove_set found ?_ hp
    unfold PtyStatus.mayEndAs at before
    split_ifs at before
    · exact .fromWaiting o' before
    · exact .ended o' (of_decide_eq_true before) after
  | compacted _ o s found status =>
    rw [Table.get_delete]
    split_ifs with hk
    · subst hk
      cases found.symm.trans hp
      exact .compacted status
    · rw [hp]
      exact .kept
  | marked now o o' found status row =>
    have hid := id_of_operation found
    exact rowMove_set found (.marked o' now status (by rw [hid]) row) hp

/-- A row comes into being only where nothing ever bore its id, and never by maintenance. -/
theorem get_none_of_effect {t t' : PtyTables} {txn : Txn} (h : Effect t txn t')
    {injectionId : String} (hp : t.operations.get injectionId = none)
    (hknown : txn.maintains = true ∨ ∃ i ∈ t.identities, i.injectionId = injectionId) :
    t'.operations.get injectionId = none := by
  have hset : ∀ {o o' : Operation}, t.operations.get o'.row.injectionId = some o →
      (t.operations.set o').get injectionId = none := by
    intro o o' found
    have hne : injectionId ≠ o'.row.injectionId := by
      rintro rfl
      cases found.symm.trans hp
    rw [Table.get_set_ne t.operations (a := o') hne, hp]
  cases h with
  | unchanged => exact hp
  | admitted req wallNow o free status fresh coherent =>
    have hne : injectionId ≠ o.row.injectionId := by
      rcases hknown with hm | ⟨i, hi, rfl⟩
      · cases hm
      · exact fun he => (fresh i hi).2 (Or.inl he)
    rw [Table.get_insert, if_neg hne, hp]
  | refused => exact hp
  | waited _ o o' found => exact hset found
  | begun leaseOwner sessionId backend now commit o o' found => exact hset found
  | settled _ o o' s tombstones found => exact hset found
  | compacted _ o s found =>
    rw [Table.get_delete, hp]
    exact ite_self none
  | marked now o o' found => exact hset found

end AgentsCommander.PtyInput
