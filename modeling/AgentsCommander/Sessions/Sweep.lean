import AgentsCommander.Sessions.Selecting

/-! The sweep of exited rows as a move of the roster. -/
namespace AgentsCommander.Sessions
open Foundation
namespace SessionManagerState
variable {s : SessionManagerState}

/-- What the sweep may remove: foreign to every carrier, exited, and public. -/
def sweepable (s : SessionManagerState) (disposition : Uuid → Option CarrierDisposition)
    (id : Uuid) : Bool :=
  disposition id = some .foreign && (s.sessions.lookup id).any (·.status.isExited) &&
    !s.isPending id

/-- The sweep on its way: the ids looked at, the state, and what was removed. -/
structure SweptTo (s : SessionManagerState) (disposition : Uuid → Option CarrierDisposition)
    (seen : List Uuid) (acc : SessionManagerState × List Uuid) : Prop where
  sessions : ∀ j, acc.1.sessions.lookup j = if j ∈ acc.2 then none else s.sessions.lookup j
  removed : ∀ j, j ∈ acc.2 ↔ j ∈ seen ∧ s.sweepable disposition j = true
  pending : acc.1.pendingCreate = s.pendingCreate
  order : acc.1.order = s.order
  epoch : acc.1.epoch = s.epoch
  revision : acc.1.revision = s.revision
  selection : acc.1.selection = s.selection

variable {disposition : Uuid → Option CarrierDisposition}

theorem SweptTo.sweepRow {seen : List Uuid} {acc : SessionManagerState × List Uuid}
    (h : SweptTo s disposition seen acc) (id : Uuid) :
    SweptTo s disposition (seen ++ [id]) (sweepRow disposition acc id) := by
  have hcond : (disposition id = some .foreign && (acc.1.sessions.lookup id).any (·.status.isExited)
      && !acc.1.isPending id) = (s.sweepable disposition id && decide (id ∉ acc.2)) := by
    rw [sweepable, h.sessions, isPending, isPending, h.pending]
    by_cases hid : id ∈ acc.2 <;> simp [hid]
  unfold SessionManagerState.sweepRow
  rw [hcond]
  split_ifs with hgo
  · rw [Bool.and_eq_true, decide_eq_true_eq] at hgo
    obtain ⟨bindings, seeds, origins, heq⟩ :=
      retireCodingAgentBinding_eq { acc.1 with sessions := acc.1.sessions.erase id } id
    rw [heq]
    constructor
    · intro j
      dsimp only
      rw [Assoc.lookup_erase_eq, h.sessions]
      by_cases hj : j = id
      · simp [hj]
      · simp [hj]
    · intro j
      rw [List.mem_append, List.mem_append, List.mem_singleton, h.removed]
      constructor
      · rintro (hj | rfl)
        · exact ⟨.inl hj.1, hj.2⟩
        · exact ⟨.inr rfl, hgo.1⟩
      · rintro ⟨hj | hj, hs⟩
        · exact .inl ⟨hj, hs⟩
        · exact .inr hj
    · exact h.pending
    · exact h.order
    · exact h.epoch
    · exact h.revision
    · exact h.selection
  · refine { h with removed := ?_ }
    intro j
    rw [h.removed, List.mem_append, List.mem_singleton]
    constructor
    · rintro ⟨hj, hs⟩
      exact ⟨.inl hj, hs⟩
    · rintro ⟨hj | rfl, hs⟩
      · exact ⟨hj, hs⟩
      · rw [hs, Bool.true_and, decide_eq_true_eq, not_not] at hgo
        exact (h.removed j).mp hgo

theorem SweptTo.foldl {seen : List Uuid} {acc : SessionManagerState × List Uuid}
    (h : SweptTo s disposition seen acc) (ids : List Uuid) :
    SweptTo s disposition (seen ++ ids)
      (ids.foldl (SessionManagerState.sweepRow disposition) acc) := by
  induction ids generalizing seen acc with
  | nil =>
    rw [List.append_nil]
    exact h
  | cons id ids ih =>
    have hstep := ih (h.sweepRow id)
    rw [List.append_assoc] at hstep
    exact hstep

theorem sweptTo_start (s : SessionManagerState)
    (disposition : Uuid → Option CarrierDisposition) : SweptTo s disposition [] (s, []) where
  sessions j := (if_neg (List.not_mem_nil)).symm
  removed j := by simp only [List.not_mem_nil, false_and]
  pending := rfl
  order := rfl
  epoch := rfl
  revision := rfl
  selection := rfl

/-- What is left after the rows are removed, with the order cleaned up. -/
theorem SweptTo.roster {seen : List Uuid} {acc : SessionManagerState × List Uuid}
    (h : SweptTo s disposition seen acc) :
    ({ acc.1 with order := acc.1.order.filter (· ∉ acc.2) } : SessionManagerState).roster =
      s.roster.leave acc.2 := by
  have hstatus : ∀ j, (acc.1.sessions.lookup j).map (·.status) =
      if j ∈ acc.2 then none else (s.sessions.lookup j).map (·.status) := by
    intro j
    rw [h.sessions]
    split_ifs <;> rfl
  have hpending : ∀ j, acc.1.isPending j = (s.isPending j && decide (j ∉ acc.2)) := by
    intro j
    rw [isPending, h.pending]
    by_cases hj : j ∈ acc.2
    · have hs := ((h.removed j).mp hj).2
      rw [sweepable, Bool.and_eq_true, Bool.not_eq_true'] at hs
      rw [hs.2, Bool.false_and]
      exact hs.2
    · rw [decide_eq_true hj, Bool.and_true]
      rfl
  unfold SessionManagerState.roster Roster.leave
  simp only [hstatus, h.order, h.epoch, h.revision, h.selection, Roster.mk.injEq, and_true, true_and]
  funext j
  exact hpending j

theorem roster_deactivate (s : SessionManagerState) (p : Uuid) :
    (s.deactivate p).roster = s.roster.adjust p SessionStatus.demoted := by
  apply roster_editRow
  intro row
  cases row.status <;> rfl

/-- The selection so far is one a sweep replaces: a protected row it was asked to remove, or one
it removed. -/
def Displaced (s : SessionManagerState) (disposition : Uuid → Option CarrierDisposition)
    (gone : List Uuid) (p : Uuid) : Prop :=
  s.selection.id = some p ∧ (disposition p = some .«protected» ∨ p ∈ gone)

variable {t : SessionManagerState} {gone : List Uuid} {p : Uuid}

/-- The successor is another session, in its place in the order, and public. -/
theorem sweepSuccessor_some (h : s.roster.Placed) (ht : t.roster = s.roster.leave gone)
    (hp : s.Displaced disposition gone p) {id : Uuid}
    (hid : t.sweepSuccessor disposition = some id) :
    (t.roster.status id).isSome ∧ t.isPending id = false ∧ id ≠ p := by
  have hcond := List.find?_some hid
  simp only [Bool.and_eq_true, Bool.not_eq_true', decide_eq_true_eq] at hcond
  have hmem : id ∈ t.roster.order := List.mem_of_find?_eq_some hid
  have hplaced := h.leave gone
  refine ⟨?_, hcond.1, ?_⟩
  · rw [ht] at hmem ⊢
    exact (hplaced.mem_order id).mp hmem
  · rintro rfl
    rcases hp.2 with hprotected | hgone
    · cases hprotected.symm.trans hcond.2
    · rw [ht, Roster.leave, List.mem_filter, decide_eq_true_eq] at hmem
      exact hmem.2 hgone

theorem roster_cleared (ht : t.roster = s.roster.leave gone) (hp : s.Displaced disposition gone p)
    {clear : Bool} (hclear : clear = false → p ∈ gone) {sel : SessionSelection}
    (hsel : ¬ sel.shows p) :
    (if clear then t.deactivate p else t).roster = (s.roster.leave gone).stepBack sel := by
  have hselected : (s.roster.leave gone).selection.id = some p := hp.1
  unfold Roster.stepBack
  rw [hselected, Option.elim_some, if_neg hsel]
  cases clear with
  | true => rw [if_pos rfl, roster_deactivate, ht]
  | false =>
    have hnone : (s.roster.leave gone).status p = none := if_pos (hclear rfl)
    rw [if_neg (by decide), ht, adjust_absent hnone]

theorem key_ne_of_displaced (hp : s.Displaced disposition gone p) {sel : SessionSelection}
    (hsel : sel.id ≠ some p) : sel.key ≠ s.roster.selection.key := by
  intro hkey
  have hid : sel.id = s.selection.id := congrArg (fun k => k.2.1) hkey
  exact hsel (hid.trans hp.1)

theorem swept_reselect (h : s.roster.Placed) (ht : t.roster = s.roster.leave gone)
    (hp : s.Displaced disposition gone p) {clear : Bool} (hclear : clear = false → p ∈ gone)
    {ids : List Uuid} (hask : p ∈ ids) :
    s.roster.Swept ids (t.reselect disposition clear (s.revision + 1)).roster := by
  have hselected : t.selection.id = some p :=
    (congrArg (fun r : Roster => r.selection.id) ht).trans hp.1
  have hepoch : t.epoch = s.epoch := congrArg Roster.epoch ht
  unfold reselect
  rw [hselected, Option.elim_some]
  have hsucc : (if clear then t.deactivate p else t).sweepSuccessor disposition =
      t.sweepSuccessor disposition := by
    cases clear <;> rfl
  have hepoch' : (if clear then t.deactivate p else t).epoch = s.epoch := by
    cases clear <;> exact hepoch
  dsimp only
  cases hnext : t.sweepSuccessor disposition with
  | none =>
    rw [hsucc, hnext]
    have hshow : ∀ j, ¬ (SessionSelection.none s.epoch (s.revision + 1) .backgroundCleanup).shows j :=
      fun j hj => nomatch hj.1
    have hback := roster_cleared ht hp hclear (hshow p)
    have hsel := Roster.Swept.succeeded (r := s.roster) gone p
      (.none s.epoch (s.revision + 1) .backgroundCleanup) hp.1 hask (.none rfl rfl)
      ⟨rfl, rfl, key_ne_of_displaced hp fun hc => nomatch hc⟩
    rw [Roster.select_of_none hshow, ← hback, ← hepoch'] at hsel
    exact hsel
  | some id =>
    rw [hsucc, hnext]
    obtain ⟨hsome, hpublic, hne⟩ := sweepSuccessor_some h ht hp hnext
    have hshow : ¬ (SessionSelection.live s.epoch (s.revision + 1) .backgroundCleanup id).shows p :=
      fun hj => hne (Option.some.inj hj.2)
    have hback := roster_cleared ht hp hclear hshow
    have hpublic' : (s.roster.leave gone).pending id = false := ht ▸ hpublic
    have hsel := Roster.Swept.succeeded (r := s.roster) gone p
      (.live s.epoch (s.revision + 1) .backgroundCleanup id) hp.1 hask
      (.live id rfl rfl (ht ▸ hsome) hpublic')
      ⟨rfl, rfl, key_ne_of_displaced hp fun hc => hne (Option.some.inj hc)⟩
    have hshows : (SessionSelection.live s.epoch (s.revision + 1) .backgroundCleanup id).shows id :=
      ⟨rfl, rfl⟩
    rw [Roster.select_of_shows hshows, ← hback, ← roster_activate, ← hepoch'] at hsel
    exact hsel

theorem SweptTo.willRemoveSelected {ids : List Uuid} {acc : SessionManagerState × List Uuid}
    (h : SweptTo s disposition ids acc) (hp : s.selection.id = some p) (hgone : p ∈ acc.2) :
    s.willRemoveSelected disposition ids = true := by
  obtain ⟨hseen, hs⟩ := (h.removed p).mp hgone
  rw [sweepable, Bool.and_eq_true, Bool.and_eq_true] at hs
  rw [SessionManagerState.willRemoveSelected, hp, Option.any_some, decide_eq_true hseen, hs.1.1,
    hs.1.2, hs.2]
  rfl

theorem displaced_of_replace {ids : List Uuid}
    (hreplace : (s.clearSurviving disposition ids || s.selection.id.any (· ∈ gone)) = true) :
    ∃ p, s.Displaced disposition gone p ∧ (p ∈ ids ∨ p ∈ gone) ∧
      (s.clearSurviving disposition ids = false → p ∈ gone) := by
  unfold clearSurviving at hreplace ⊢
  cases hp : s.selection.id with
  | none =>
    rw [hp] at hreplace
    cases hreplace
  | some p =>
    rw [hp, Option.any_some, Option.any_some, Bool.or_eq_true, Bool.and_eq_true, decide_eq_true_eq,
      decide_eq_true_eq, decide_eq_true_eq] at hreplace
    refine ⟨p, ⟨hp, hreplace.imp_left And.right⟩, hreplace.imp_left And.left, ?_⟩
    intro hclear
    rcases hreplace with hprotected | hgone
    · rw [Option.any_some, decide_eq_true hprotected.1, decide_eq_true hprotected.2] at hclear
      cases hclear
    · exact hgone

/-- A sweep is one move; whenever it replaces the selection, the revision is the next. -/
theorem swept_removeExitedSessions (h : s.roster.Valid) (ids : List Uuid)
    (classify : Session → ℕ → CarrierDisposition) :
    s.roster.Swept ids (s.removeExitedSessions ids classify).1.roster := by
  have hswept := (sweptTo_start s (s.dispositions classify)).foldl ids
  rw [List.nil_append] at hswept
  unfold removeExitedSessions
  dsimp only
  split
  · rw [roster_touch]
    have hkept : s.roster.Swept ids (s.roster.leave []) := .kept [] fun id hid => nomatch hid
    rw [Roster.leave_nil] at hkept
    exact hkept
  · next revision hrev =>
    rw [roster_drop]
    generalize ids.foldl (sweepRow (s.dispositions classify)) (s, []) = swept at hswept ⊢
    split_ifs with hreplace
    · obtain ⟨p, hp, hask, hclear⟩ := displaced_of_replace hreplace
      have hwill : (s.clearSurviving (s.dispositions classify) ids ||
          s.willRemoveSelected (s.dispositions classify) ids) = true := by
        cases hc : s.clearSurviving (s.dispositions classify) ids with
        | true => rfl
        | false => exact hswept.willRemoveSelected hp.1 (hclear hc)
      rw [if_pos hwill, checkedAdd] at hrev
      split_ifs at hrev with hbound
      cases hrev
      have hids : p ∈ ids := hask.elim id fun hgone => ((hswept.removed p).mp hgone).1
      exact swept_reselect h.toPlaced hswept.roster hp hclear hids
    · rw [hswept.roster]
      apply Roster.Swept.kept
      intro id hid hsel
      have hs : s.selection.id = some id := hsel
      rw [Bool.or_eq_true, not_or] at hreplace
      apply hreplace.2
      rw [hs, Option.any_some, decide_eq_true_eq]
      exact hid

end SessionManagerState
end AgentsCommander.Sessions
