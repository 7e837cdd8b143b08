import AgentsCommander.Sessions.Roster

/-! The moves of a roster: all but the sweep's keep an exit for good, and each counts in the
revision when it selects. -/
namespace AgentsCommander.Sessions.Roster

/-- A new selection takes the next revision, and differs from the one before it. -/
structure Succeeds (r : Roster) (sel : SessionSelection) : Prop where
  epoch : sel.epoch = r.epoch
  revision : sel.revision = r.revision + 1
  changed : sel.key ≠ r.selection.key

/-- What every operation but the sweep can do. -/
inductive Moved (r : Roster) : Roster → Prop
  | kept : Moved r r
  | turned (id : Uuid) (f : SessionStatus → SessionStatus)
      (hf : ∀ st, f st = st ∨ (st.turning ∧ (f st).turning)) (hp : r.pending id = false) : Moved r (r.adjust id f)
  | entered (id : Uuid) (hfree : r.status id = none) : Moved r (r.enter id)
  | rolledBack (id : Uuid) (hp : r.pending id = true) : Moved r (r.leave [id])
  | mutated (m : LifecycleMutations) (hm : r.Admits m)
      (hkeep : ∀ id, r.selection.id = some id → r.project m id = r.status id) :
      Moved r (r.mutate m)
  | selected (m : LifecycleMutations) (sel : SessionSelection) (hm : r.Admits m)
      (ho : (r.mutate m).Offers sel) (hn : r.Succeeds sel)
      (hlive : ∀ id, sel.shows id → ∀ code, r.project m id ≠ some (.exited code)) :
      Moved r ((r.mutate m).select sel)

/-- What the sweep can do when it is asked to remove some sessions: take rows away, and replace
a selection that was among them. -/
inductive Swept (r : Roster) (ids : List Uuid) : Roster → Prop
  | kept (gone : List Uuid) (hkeep : ∀ id ∈ gone, r.selection.id ≠ some id) :
      Swept r ids (r.leave gone)
  | succeeded (gone : List Uuid) (p : Uuid) (sel : SessionSelection)
      (hp : r.selection.id = some p) (hask : p ∈ ids) (ho : (r.leave gone).Offers sel)
      (hn : r.Succeeds sel) : Swept r ids ((r.leave gone).select sel)

variable {r : Roster} {m : LifecycleMutations} {sel : SessionSelection}

theorem Valid.moved {r' : Roster} (h : r.Valid) (hr : r.Moved r') : r'.Valid := by
  cases hr with
  | kept => exact h
  | turned id f hf hp =>
    refine ⟨h.toPlaced.adjust f hp, ?_⟩
    exact h.represented.turned hf
  | entered id hfree => exact ⟨h.toPlaced.enter hfree, h.represented.enter hfree⟩
  | rolledBack id hp =>
    refine ⟨h.toPlaced.leave [id], h.represented.leave ?_⟩
    intro j hj hsel
    rw [List.mem_singleton.mp hj] at hsel
    have hrun := h.pending id hp
    rcases h.represented.status_selected hsel with hrow | ⟨code, hrow⟩
    · cases hrun.symm.trans hrow
    · cases hrun.symm.trans hrow
  | mutated m hm hkeep =>
    refine ⟨h.toPlaced.mutate hm, ?_⟩
    apply Represented.of_status (r.mutate m) h.represented rfl hkeep
    intro j hj
    exact project_active hj
  | selected m sel hm ho hn hlive =>
    apply (h.toPlaced.mutate hm).valid_select _ ho
    intro j hj
    exact h.represented.selected_of_active (project_active hj)

theorem Valid.swept {ids : List Uuid} {r' : Roster} (h : r.Valid) (hr : r.Swept ids r') :
    r'.Valid := by
  cases hr with
  | kept gone hkeep => exact ⟨h.toPlaced.leave gone, h.represented.leave hkeep⟩
  | succeeded gone p sel hp hask ho hn =>
    apply (h.toPlaced.leave gone).valid_select _ ho
    intro j hj
    exact h.represented.selected_of_active (leave_status hj)

/-! Exit is permanent, but for the successor a sweep makes. -/

theorem project_exited (hm : r.Admits m) (h : r.Placed) {j : Uuid} {code : ℤ}
    (hj : r.status j = some (.exited code)) :
    r.project m j = none ∨ r.project m j = some (.exited code) := by
  by_cases hr : j ∈ m.removals
  · exact .inl (if_pos hr)
  · have hf : j ∉ m.finalized := by
      intro hf
      have hrun := h.pending j (hm.finalized_pending j hf)
      cases hrun.symm.trans hj
    right
    rw [project_of_public hr hf, hj]
    rfl

theorem select_exited {j : Uuid} {code : ℤ} (hshow : ¬ sel.shows j)
    (hj : r.status j = none ∨ r.status j = some (.exited code)) :
    (r.select sel).status j = none ∨ (r.select sel).status j = some (.exited code) := by
  unfold select
  dsimp only
  rw [if_neg hshow]
  rcases hj with hj | hj
  · rw [hj]
    split_ifs <;> exact .inl rfl
  · rw [hj]
    split_ifs <;> exact .inr rfl

theorem Valid.exited_of_moved {r' : Roster} (h : r.Valid) (hr : r.Moved r') {j : Uuid} {code : ℤ}
    (hj : r.status j = some (.exited code)) :
    r'.status j = none ∨ r'.status j = some (.exited code) := by
  cases hr with
  | kept => exact .inr hj
  | turned id f hf hp =>
    right
    rw [adjust]
    dsimp only
    split_ifs
    · rw [hj, Option.map_some]
      rcases hf (.exited code) with hfix | ⟨hturn, -⟩
      · rw [hfix]
      · rcases hturn with hturn | hturn <;> cases hturn
    · exact hj
  | entered id hfree =>
    right
    have hne : j ≠ id := by
      intro he
      rw [he, hfree] at hj
      cases hj
    exact (if_neg hne).trans hj
  | rolledBack id hp =>
    rw [leave]
    dsimp only
    split_ifs
    · exact .inl rfl
    · exact .inr hj
  | mutated m hm hkeep => exact project_exited hm h.toPlaced hj
  | selected m sel hm ho hn hlive =>
    have hproj := project_exited hm h.toPlaced hj
    apply select_exited _ hproj
    intro hshow
    rcases hproj with hnone | hexit
    · have hsome : (r.project m j).isSome = true := (ho.shown hshow).1
      rw [hnone] at hsome
      cases hsome
    · exact hlive j hshow code hexit

theorem exited_of_swept {ids : List Uuid} {r' : Roster} (hr : r.Swept ids r') {j : Uuid}
    {code : ℤ} (hj : r.status j = some (.exited code)) :
    r'.status j = none ∨ r'.status j = some (.exited code) ∨
      (r'.selection.shows j ∧ r'.revision = r.revision + 1 ∧
        ∃ p ∈ ids, r.selection.id = some p) := by
  have hleave : ∀ gone, (r.leave gone).status j = none ∨
      (r.leave gone).status j = some (.exited code) := by
    intro gone
    rw [leave]
    dsimp only
    split_ifs
    · exact .inl rfl
    · exact .inr hj
  cases hr with
  | kept gone hkeep => exact (hleave gone).imp_right .inl
  | succeeded gone p sel hp hask ho hn =>
    by_cases hshow : sel.shows j
    · exact .inr (.inr ⟨hshow, hn.revision, p, hask, hp⟩)
    · exact (select_exited hshow (hleave gone)).imp_right .inl

/-! The revision counts the changes of the selection. -/

inductive Advances (r r' : Roster) : Prop
  | kept (he : r'.epoch = r.epoch) (hr : r'.revision = r.revision)
      (hs : r'.selection = r.selection)
  | selected (he : r'.epoch = r.epoch) (hr : r'.revision = r'.selection.revision)
      (hs : r.Succeeds r'.selection)

theorem Moved.advances {r' : Roster} (hr : r.Moved r') : r.Advances r' := by
  cases hr with
  | selected m sel hm ho hn hlive => exact .selected rfl rfl hn
  | _ => exact .kept rfl rfl rfl

theorem Swept.advances {ids : List Uuid} {r' : Roster} (hr : r.Swept ids r') : r.Advances r' := by
  cases hr with
  | kept gone hkeep => exact .kept rfl rfl rfl
  | succeeded gone p sel hp hask ho hn => exact .selected rfl rfl hn

/-- The selection carries the roster's epoch and revision. -/
structure Stamped (r : Roster) : Prop where
  epoch : r.selection.epoch = r.epoch
  revision : r.selection.revision = r.revision

theorem Stamped.advances {r' : Roster} (h : r.Stamped) (hr : r.Advances r') : r'.Stamped := by
  cases hr with
  | kept he hr hs =>
    constructor
    · rw [hs, he]
      exact h.epoch
    · rw [hs, hr]
      exact h.revision
  | selected he hr hs => exact ⟨hs.epoch.trans he.symm, hr.symm⟩

theorem Advances.revision_le {r' : Roster} (h : r.Advances r') : r.revision ≤ r'.revision := by
  cases h with
  | kept he hr hs => exact hr.ge
  | selected he hr hs =>
    rw [hr, hs.revision]
    exact Nat.le_succ _

theorem Advances.revision_iff {r' : Roster} (h : r.Advances r') :
    r'.revision = r.revision + 1 ∧ r'.selection.key ≠ r.selection.key ∨
      r'.revision = r.revision ∧ r'.selection = r.selection := by
  cases h with
  | kept he hr hs => exact .inr ⟨hr, hs⟩
  | selected he hr hs => exact .inl ⟨hr.trans hs.revision, hs.changed⟩

end AgentsCommander.Sessions.Roster
