import AgentsCommander.Sessions.Projection

/-! The lifecycle commit as a move of the roster. -/
namespace AgentsCommander.Sessions
open Foundation

theorem forEach_eq_ok {α ε : Type} {l : List α} {check : α → Except ε Unit}
    (h : forEach l check = .ok ()) : ∀ a ∈ l, check a = .ok () := by
  induction l with
  | nil =>
    intro a ha
    cases ha
  | cons b l ih =>
    obtain ⟨_, hb, hrest⟩ := bind_eq_ok.mp h
    intro a ha
    rcases List.mem_cons.mp ha with rfl | ha
    · exact hb
    · exact ih hrest a ha

namespace SessionManagerState
variable {s : SessionManagerState} {m : LifecycleMutations}

/-! What a commit checks before it writes. -/

theorem pending_of_validateFinalizationWitness {f : FinalizeMutation}
    (h : s.validateFinalizationWitness f = .ok ()) : s.isPending f.sessionId = true := by
  cases f with
  | live binding witness =>
    obtain ⟨_, hmatch, -⟩ := bind_eq_ok.mp h
    exact isPending_of_bindingMatches (ensure_eq_ok.mp hmatch)
  | dormant binding witness exitCode =>
    have hall := ensure_eq_ok.mp h
    rw [Bool.and_eq_true, Bool.and_eq_true] at hall
    exact isPending_of_bindingMatches hall.1.1

theorem admits_of_validate (h : s.validateLifecycleMutations m = .ok ()) : s.roster.Admits m := by
  unfold validateLifecycleMutations at h
  simp only [bind_eq_ok, ensure_eq_ok, decide_eq_true_eq, List.all_eq_true, exists_and_left,
    exists_const] at h
  obtain ⟨-, hexits, -, hfinal, hre, hrf, hef, hpublic, _, hwit, -⟩ := h
  have hpub : ∀ id, id ∈ m.removals ∨ id ∈ m.exits → s.isPending id = false := by
    intro id hid
    have hp := hpublic id (List.mem_append.mpr hid)
    rw [Bool.not_eq_true'] at hp
    exact hp
  constructor
  · exact hexits
  · exact hfinal
  · exact hre
  · exact hrf
  · exact hef
  · exact fun id hid => hpub id (.inl hid)
  · exact fun id hid => hpub id (.inr hid)
  · intro id hid
    obtain ⟨f, hf, rfl⟩ := List.mem_map.mp hid
    exact pending_of_validateFinalizationWitness (forEach_eq_ok hwit f hf)

theorem projectedStatus_eq (s : SessionManagerState) (m : LifecycleMutations) (id : Uuid) :
    s.projectedStatus m id = s.roster.project m id := by
  have hrow : s.roster.status id = (s.sessions.lookup id).map (·.status) := rfl
  unfold projectedStatus Roster.project
  rw [hrow]
  by_cases hr : id ∈ m.removals
  · rw [if_pos hr, if_pos hr]
  · rw [if_neg hr, if_neg hr]
    cases m.finalizations.find? (·.sessionId = id) with
    | some f => rfl
    | none =>
      cases s.sessions.lookup id with
      | none => rfl
      | some row =>
        dsimp only [Option.map_some]
        cases m.markExited.find? (·.1 = id) with
        | none => rw [ite_self, ite_self]
        | some e =>
          dsimp only
          split_ifs <;> rfl

/-! The prompt domains. -/

theorem roster_finalizePromptDomain (s : SessionManagerState) (id : Uuid)
    (predecessor : Option Uuid) (allowFreshReopen : Bool) :
    (s.finalizePromptDomain id predecessor allowFreshReopen).roster = s.roster := by
  have hrow : ∀ (t : SessionManagerState) (prompt : Option String),
      (t.editRow id fun row => { row with lastPrompt := prompt }).roster = t.roster :=
    fun t prompt => roster_editRow_same t id fun row => rfl
  unfold finalizePromptDomain
  split
  · rfl
  · dsimp only
    split
    · rfl
    · split
      · rfl
      · split
        · exact hrow _ _
        · split
          · exact hrow _ _
          · split
            · exact hrow _ _
            · exact hrow _ _

theorem roster_applyCommitPromptDomains (s : SessionManagerState) (m : LifecycleMutations)
    (cause : SelectionCause) : (s.applyCommitPromptDomains m cause).roster = s.roster := by
  unfold applyCommitPromptDomains
  dsimp only
  rw [Assoc.foldl_frame roster, Assoc.foldl_frame roster]
  · intro t transfer
    exact roster_editRow_same t _ fun row => rfl
  · intro t id
    exact roster_finalizePromptDomain t id _ _

/-! The mutations. -/

theorem roster_clearFailedRecipe (s : SessionManagerState) (id : Uuid) :
    (s.clearFailedRecipeForRuntimeBinding id).roster = s.roster := by
  unfold clearFailedRecipeForRuntimeBinding
  split <;> rfl

theorem roster_erasePending (s : SessionManagerState) (id : Uuid) :
    { s with pendingCreate := s.pendingCreate.erase id }.roster =
      { s.roster with pending := fun j => if j = id then false else s.isPending j } := by
  have hpending : ∀ j, ({ s with pendingCreate := s.pendingCreate.erase id } :
      SessionManagerState).isPending j = if j = id then false else s.isPending j := by
    intro j
    rw [isPending]
    dsimp only
    rw [Assoc.lookup_erase_eq]
    split_ifs <;> rfl
  unfold roster
  simp only [Roster.mk.injEq, and_true, true_and]
  funext j
  exact hpending j

theorem roster_applyFinalization (a : Applied) (f : FinalizeMutation) :
    (applyFinalization a f).state.roster = a.state.roster.finalize f := by
  have hstate : (applyFinalization a f).state =
      editRow (clearFailedRecipeForRuntimeBinding { a.state with
        pendingCreate := a.state.pendingCreate.erase f.sessionId } f.sessionId) f.sessionId
        fun row => { row with status := f.status } := by
    unfold applyFinalization
    dsimp only
    split <;> rfl
  rw [hstate, roster_editRow (g := fun _ => f.status) _ _ fun row => rfl,
    roster_clearFailedRecipe, roster_erasePending]
  rfl

/-- A change of a row that is not there changes nothing. -/
theorem adjust_absent {r : Roster} {id : Uuid} (h : r.status id = none)
    (f : SessionStatus → SessionStatus) : r.adjust id f = r := by
  obtain ⟨status, pending, order, epoch, revision, selection⟩ := r
  unfold Roster.adjust
  simp only [Roster.mk.injEq, and_true]
  funext j
  split_ifs with hj
  · rw [hj, show status id = none from h]
    rfl
  · rfl

theorem adjust_fixed {r : Roster} {id : Uuid} {f : SessionStatus → SessionStatus}
    {st : SessionStatus} (h : r.status id = some st) (hf : f st = st) : r.adjust id f = r := by
  obtain ⟨status, pending, order, epoch, revision, selection⟩ := r
  unfold Roster.adjust
  simp only [Roster.mk.injEq, and_true]
  funext j
  split_ifs with hj
  · rw [hj, show status id = some st from h, Option.map_some, hf]
  · rfl

theorem roster_applyExit (a : Applied) (e : Uuid × ℤ) :
    (applyExit a e).state.roster = a.state.roster.exit e := by
  unfold applyExit Roster.exit
  cases hrow : a.state.sessions.lookup e.1 with
  | none =>
    rw [adjust_absent (status_roster_eq_none.mpr hrow)]
    rfl
  | some row =>
    dsimp only
    split
    · next hexit =>
      have hfix : (if row.status.isExited then row.status else SessionStatus.exited e.2) =
          row.status := if_pos hexit
      exact (adjust_fixed (status_roster hrow) hfix).symm
    · apply roster_editRow
      intro row
      rw [exitRow]
      split_ifs <;> rfl

theorem roster_applyDetachedIntent (a : Applied) (d : Uuid × Bool) :
    (applyDetachedIntent a d).state.roster = a.state.roster := by
  unfold applyDetachedIntent
  split
  · rfl
  · split
    · rfl
    · exact roster_editRow_same a.state d.1 fun row => rfl

theorem roster_applyRemoval {a : Applied} (h : a.state.roster.Placed) (id : Uuid) :
    (applyRemoval a id).state.roster = a.state.roster.leave [id] := by
  unfold applyRemoval
  cases hrow : a.state.sessions.lookup id with
  | none =>
    rw [h.leave_absent (status_roster_eq_none.mpr hrow)]
    rfl
  | some row =>
    dsimp only [removeRow]
    rw [roster_retireCodingAgentBinding]
    exact roster_eq_leave a.state id rfl rfl rfl rfl rfl rfl

theorem roster_foldl_applyRemoval (l : List Uuid) {a : Applied} (h : a.state.roster.Placed) :
    (l.foldl applyRemoval a).state.roster = a.state.roster.leave l := by
  induction l generalizing a with
  | nil => exact (Roster.leave_nil _).symm
  | cons id l ih =>
    have hstep := roster_applyRemoval h id
    rw [List.foldl_cons, ih (hstep ▸ h.leave [id]), hstep, Roster.leave_leave]
    rfl

/-- The mutations do what the projection says. -/
theorem roster_applyLifecycleMutations (h : s.roster.Placed) (hm : s.roster.Admits m) :
    (applyLifecycleMutations s m).state.roster = s.roster.mutate m := by
  have hfinal : ∀ (l : List FinalizeMutation) (a : Applied),
      (l.foldl applyFinalization a).state.roster = l.foldl Roster.finalize a.state.roster := by
    intro l a
    rw [← List.foldl_hom (fun a : Applied => a.state.roster)]
    intro a f
    exact (roster_applyFinalization a f).symm
  have hexit : ∀ (l : List (Uuid × ℤ)) (a : Applied),
      (l.foldl applyExit a).state.roster = l.foldl Roster.exit a.state.roster := by
    intro l a
    rw [← List.foldl_hom (fun a : Applied => a.state.roster)]
    intro a e
    exact (roster_applyExit a e).symm
  have hdetach := Assoc.foldl_frame (fun a : Applied => a.state.roster) applyDetachedIntent
    roster_applyDetachedIntent m.detachedIntent
  rw [← Roster.mutate_eq h hm]
  unfold applyLifecycleMutations
  dsimp only
  rw [roster_foldl_applyRemoval]
  · rw [hdetach, hexit, hfinal]
  · rw [hdetach, hexit, hfinal]
    exact h.foldl_mutations hm

/-! The selection a commit resolves to. -/

/-- A target that passed its checks: the current selection, or one that the mutated roster
offers. -/
inductive Resolved (s : SessionManagerState) (m : LifecycleMutations) : SelectionTarget → Prop
  | kept (h : ∀ id, s.selection.id = some id → id ∉ m.removals ∧ id ∉ m.exits) :
      Resolved s m ⟨s.selection.mode, s.selection.id, s.selection.status⟩
  | cleared : Resolved s m ⟨.none, none, none⟩
  | live (id : Uuid) (st : SessionStatus) (hp : s.isPending id = true → id ∈ m.finalized)
      (hst : s.roster.project m id = some st) (hlive : st.isExited = false) :
      Resolved s m ⟨.live, some id, some .active⟩
  | dormant (id : Uuid) (code : ℤ) (hst : s.roster.project m id = some (.exited code)) :
      Resolved s m ⟨.dormant, some id, some (.exited code)⟩

theorem resolved_of_ok {decision : CommitDecision} {t : SelectionTarget}
    (h : s.resolveSelectionCommitTarget decision m = .ok t) : Resolved s m t := by
  unfold resolveSelectionCommitTarget at h
  cases decision with
  | keep =>
    simp only [bind_eq_ok, ensure_eq_ok, exists_and_left, exists_const, Except.ok.injEq] at h
    obtain ⟨hkeep, rfl⟩ := h
    apply Resolved.kept
    intro id hid
    simp only [hid, Option.any_some, Bool.not_eq_true', Bool.or_eq_false_iff,
      decide_eq_false_iff_not] at hkeep
    exact hkeep.1
  | clear =>
    cases h
    exact .cleared
  | live witness =>
    simp only [bind_eq_ok, ensure_eq_ok, require_eq_ok, exists_and_left, exists_const,
      Except.ok.injEq] at h
    obtain ⟨-, hp, -, st, hst, hlive, rfl⟩ := h
    rw [projectedStatus_eq] at hst
    rw [Bool.not_eq_true'] at hlive
    apply Resolved.live _ st _ hst hlive
    intro hpending
    by_contra hnot
    simp [hpending, hnot] at hp
  | dormant witness =>
    simp only [bind_eq_ok, ensure_eq_ok, require_eq_ok, exists_and_left, exists_const,
      Except.ok.injEq] at h
    obtain ⟨-, -, -, st, hst, hexit, rfl⟩ := h
    rw [projectedStatus_eq] at hst
    cases st with
    | exited code => exact .dormant _ code hst
    | _ => cases hexit

/-- A commit that leaves the selection as it is leaves the selected session as it is. -/
theorem Resolved.keeps {t : SelectionTarget} (h : s.roster.Valid) (hm : s.roster.Admits m)
    (ht : Resolved s m t) (hsame : s.selectionChanged t = false) {id : Uuid}
    (hid : s.roster.selection.id = some id) : s.roster.project m id = s.roster.status id := by
  have hfinal : id ∉ m.finalized := by
    intro hf
    have hrun := h.pending id (hm.finalized_pending id hf)
    rcases h.represented.status_selected hid with hrow | ⟨code, hrow⟩
    · cases hrun.symm.trans hrow
    · cases hrun.symm.trans hrow
  have hid' : s.selection.id = some id := hid
  unfold selectionChanged at hsame
  simp only [Bool.or_eq_false_iff, decide_eq_false_iff_not, not_not] at hsame
  cases ht with
  | kept hkeep =>
    obtain ⟨hr, hx⟩ := hkeep id hid
    have hexit : m.markExited.find? (·.1 = id) = none := by
      rw [List.find?_eq_none]
      intro e he hej
      exact hx (List.mem_map.mpr ⟨e, he, of_decide_eq_true hej⟩)
    rw [Roster.project_of_public hr hfinal, hexit]
    simp only [ite_self, Option.map_id']
  | cleared => cases hsame.1.2.trans hid'
  | live id' st hp hst hlive =>
    obtain rfl : id' = id := Option.some.inj (hsame.1.2.trans hid')
    have hr : id' ∉ m.removals := by
      intro hr
      rw [Roster.project, if_pos hr] at hst
      cases hst
    rw [Roster.project_of_public hr hfinal] at hst ⊢
    obtain ⟨row, hrow, heq⟩ := Option.map_eq_some_iff.mp hst
    rw [hrow, Option.map_some]
    split_ifs at heq ⊢ with hexit
    · rfl
    · cases hfind : m.markExited.find? (·.1 = id') with
      | none => rfl
      | some e =>
        rw [hfind] at heq
        rw [← heq] at hlive
        cases hlive
  | dormant id' code hst =>
    obtain rfl : id' = id := Option.some.inj (hsame.1.2.trans hid')
    have hr : id' ∉ m.removals := by
      intro hr
      rw [Roster.project, if_pos hr] at hst
      cases hst
    rcases h.represented.status_selected hid with hrow | ⟨code', hrow⟩
    · cases h.represented with
      | none hm' hi hno => exact absurd hrow (hno id')
      | live _ hm' hi hrow' honly => cases hsame.1.1.trans hm'
      | dormant _ _ hm' hi hs hrow' hno => exact absurd hrow (hno id')
    · rw [Roster.project_of_public hr hfinal, hrow]
      rfl

/-! Making the selection. -/

theorem roster_stepBack (s : SessionManagerState) (p : Uuid) :
    (if s.isActive p then s.deactivate p else s).roster =
      s.roster.adjust p SessionStatus.demoted := by
  have hdemote : ∀ st : SessionStatus, (if st = .active then .running else st) = st.demoted := by
    intro st
    cases st <;> rfl
  split_ifs with hactive
  · exact roster_editRow s p fun row => hdemote row.status
  · cases hrow : s.sessions.lookup p with
    | none => rw [adjust_absent (status_roster_eq_none.mpr hrow)]
    | some row =>
      rw [isActive, hrow, Option.any_some, decide_eq_true_eq] at hactive
      rw [adjust_fixed (status_roster hrow)]
      rw [← hdemote, if_neg hactive]

theorem roster_activate (s : SessionManagerState) (id : Uuid) :
    (s.activate id).roster = s.roster.adjust id fun _ => .active :=
  roster_editRow s id fun _ => rfl

/-- The state in which the session shown so far has stepped back. -/
def steppedBack (s : SessionManagerState) (t : SelectionTarget) : SessionManagerState :=
  s.selection.id.elim s fun p =>
    if t.mode = .live ∧ t.id = some p then s
    else if s.isActive p then s.deactivate p else s

theorem state_select_live (a : Applied) (id : Uuid) (status : Option SessionStatus)
    (revision : ℕ) (cause : SelectionCause) (decision : CommitDecision) :
    (select a ⟨.live, some id, status⟩ revision cause decision).state =
      { (a.state.steppedBack ⟨.live, some id, status⟩).activate id with
        revision := revision
        selection := .live (a.state.steppedBack ⟨.live, some id, status⟩).epoch revision cause id } := by
  unfold select steppedBack
  dsimp only
  cases a.state.selection.id with
  | none => rfl
  | some p =>
    simp only [Option.elim_some, decide_true, Bool.true_and, decide_eq_true_eq, true_and]
    split_ifs <;> rfl

theorem state_select_of_ne_live (a : Applied) {t : SelectionTarget} (ht : t.mode ≠ .live)
    (revision : ℕ) (cause : SelectionCause) (decision : CommitDecision) :
    (select a t revision cause decision).state =
      { a.state.steppedBack t with
        revision := revision
        selection := t.selection (a.state.steppedBack t).epoch revision cause decision } := by
  obtain ⟨mode, id, status⟩ := t
  unfold select steppedBack
  dsimp only
  cases mode with
  | live => exact absurd rfl ht
  | _ =>
    cases a.state.selection.id with
    | none => rfl
    | some p =>
      simp only [Option.elim_some, reduceCtorEq, decide_false, Bool.false_and, false_and, if_false]
      split_ifs <;> rfl

theorem roster_steppedBack (s : SessionManagerState) {t : SelectionTarget}
    {sel : SessionSelection} (hmode : sel.mode = t.mode) (hid : sel.id = t.id) :
    (s.steppedBack t).roster = s.roster.stepBack sel := by
  have hp : s.roster.selection.id = s.selection.id := rfl
  unfold steppedBack Roster.stepBack
  rw [hp]
  cases s.selection.id with
  | none => rfl
  | some p =>
    have hiff : sel.shows p ↔ t.mode = .live ∧ t.id = some p := by
      unfold SessionSelection.shows
      rw [hmode, hid]
    simp only [Option.elim_some, hiff]
    split_ifs with hshow hactive
    · rfl
    · have h := roster_stepBack s p
      rw [if_pos hactive] at h
      exact h
    · have h := roster_stepBack s p
      rw [if_neg hactive] at h
      exact h

theorem epoch_steppedBack (s : SessionManagerState) (t : SelectionTarget) :
    (s.steppedBack t).epoch = s.epoch := by
  unfold steppedBack
  cases s.selection.id with
  | none => rfl
  | some p =>
    rw [Option.elim_some]
    split_ifs <;> rfl

theorem roster_select_live (a : Applied) (id : Uuid) (status : Option SessionStatus)
    (revision : ℕ) (cause : SelectionCause) (decision : CommitDecision) :
    (select a ⟨.live, some id, status⟩ revision cause decision).state.roster =
      a.state.roster.select (.live a.state.epoch revision cause id) := by
  have hback : (a.state.steppedBack ⟨.live, some id, status⟩).roster =
      a.state.roster.stepBack (.live a.state.epoch revision cause id) :=
    a.state.roster_steppedBack rfl rfl
  have hshows : (SessionSelection.live a.state.epoch revision cause id).shows id := ⟨rfl, rfl⟩
  rw [state_select_live, Roster.select_of_shows hshows, ← hback,
    epoch_steppedBack, ← roster_activate]
  rfl

theorem roster_select_of_ne_live (a : Applied) {t : SelectionTarget} (ht : t.mode ≠ .live)
    (revision : ℕ) (cause : SelectionCause) (decision : CommitDecision)
    (hmode : (t.selection a.state.epoch revision cause decision).mode = t.mode)
    (hid : (t.selection a.state.epoch revision cause decision).id = t.id)
    (hrev : (t.selection a.state.epoch revision cause decision).revision = revision) :
    (select a t revision cause decision).state.roster =
      a.state.roster.select (t.selection a.state.epoch revision cause decision) := by
  have hback := a.state.roster_steppedBack hmode hid
  rw [state_select_of_ne_live a ht, Roster.select_of_none fun id hs => ht (hmode ▸ hs.1), ← hback,
    epoch_steppedBack, hrev]
  rfl

theorem key_ne_of_selectionChanged {t : SelectionTarget} {sel : SessionSelection}
    (hmode : sel.mode = t.mode) (hid : sel.id = t.id)
    (hstatus : t.mode = .dormant → sel.status = t.status) (h : s.selectionChanged t = true) :
    sel.key ≠ s.selection.key := by
  intro hkey
  have hm : sel.mode = s.selection.mode := congrArg Prod.fst hkey
  have hi : sel.id = s.selection.id := congrArg (fun k => k.2.1) hkey
  unfold selectionChanged at h
  simp only [Bool.or_eq_true, decide_eq_true_eq, Bool.and_eq_true] at h
  rcases h with (h | h) | ⟨hd, h⟩
  · exact h (hmode.symm.trans hm)
  · exact h (hid.symm.trans hi)
  · have hs := congrArg (fun k => k.2.2) hkey
    unfold SessionSelection.key at hs
    dsimp only at hs
    rw [if_pos (hmode.trans hd), if_pos (hm.symm.trans (hmode.trans hd)), hstatus hd] at hs
    exact h hs

/-- A resolved target that changes the selection is one the mutated roster offers. -/
theorem Resolved.selected {t : SelectionTarget} (hm : s.roster.Admits m) (ht : Resolved s m t)
    (hchanged : s.selectionChanged t = true) (cause : SelectionCause) (decision : CommitDecision)
    {a : Applied} (ha : a.state.roster = s.roster.mutate m) :
    s.roster.Moved (select a t (s.revision + 1) cause decision).state.roster := by
  have he : a.state.epoch = s.epoch := congrArg Roster.epoch ha
  cases ht with
  | kept hkeep => simp [selectionChanged] at hchanged
  | cleared =>
    have hne : SelectionMode.none ≠ .live := by decide
    rw [roster_select_of_ne_live a hne _ cause decision rfl rfl rfl, ha]
    apply Roster.Moved.selected m _ hm
    · exact .none rfl rfl
    · exact ⟨he, rfl, key_ne_of_selectionChanged rfl rfl (fun hc => by cases hc) hchanged⟩
    · intro id hshow
      cases hshow.1
  | live id st hp hst hlive =>
    rw [roster_select_live, ha]
    apply Roster.Moved.selected m _ hm
    · apply Roster.Offers.live id rfl rfl
      · exact Option.isSome_of_eq_some hst
      · rw [Roster.mutate]
        dsimp only
        by_cases hf : id ∈ m.finalized
        · rw [decide_eq_false (not_not_intro hf), Bool.and_false]
        · have hpublic : s.roster.pending id = false := by
            rw [Bool.eq_false_iff]
            exact fun hc => hf (hp hc)
          rw [hpublic, Bool.false_and]
    · exact ⟨he, rfl, key_ne_of_selectionChanged rfl rfl (fun hc => by cases hc) hchanged⟩
    · intro id' hshow code hcode
      cases hshow.2
      cases hst.symm.trans hcode
      cases hlive
  | dormant id code hst =>
    have hne : SelectionMode.dormant ≠ .live := by decide
    rw [roster_select_of_ne_live a hne _ cause decision rfl rfl rfl, ha]
    apply Roster.Moved.selected m _ hm
    · exact .dormant id code rfl rfl rfl hst
    · exact ⟨he, rfl, key_ne_of_selectionChanged rfl rfl (fun _ => rfl) hchanged⟩
    · intro id' hshow
      cases hshow.1

/-- A lifecycle commit is one move. -/
theorem moved_commitSelectionTransition (h : s.roster.Valid) (decision : CommitDecision)
    (cause : SelectionCause) (m : LifecycleMutations) :
    s.roster.Moved (s.commitSelectionTransition decision cause m).1.roster := by
  unfold commitSelectionTransition
  dsimp only
  split
  · rw [roster_touch]
    exact .kept
  · next target next hchecked =>
    obtain ⟨_, hvalid, hchecked⟩ := bind_eq_ok.mp hchecked
    obtain ⟨t, hresolve, hchecked⟩ := bind_eq_ok.mp hchecked
    have hm := admits_of_validate hvalid
    have ht := resolved_of_ok hresolve
    have hprompts := s.roster_applyCommitPromptDomains m cause
    have happlied : (applyLifecycleMutations (s.applyCommitPromptDomains m cause) m).state.roster =
        s.roster.mutate m := by
      rw [roster_applyLifecycleMutations (hprompts ▸ h.toPlaced) (hprompts ▸ hm), hprompts]
    rw [roster_drop]
    split at hchecked
    · next hchanged =>
      obtain ⟨rev, hrev, hchecked⟩ := bind_eq_ok.mp hchecked
      obtain ⟨_, -, hchecked⟩ := bind_eq_ok.mp hchecked
      cases hchecked
      rw [require_eq_ok, checkedAdd] at hrev
      split_ifs at hrev with hbound
      cases hrev
      rw [if_pos hchanged]
      exact ht.selected hm hchanged cause decision happlied
    · next hchanged =>
      obtain ⟨rev, hrev, hchecked⟩ := bind_eq_ok.mp hchecked
      obtain ⟨_, -, hchecked⟩ := bind_eq_ok.mp hchecked
      cases hchecked
      rw [if_neg hchanged]
      rw [Bool.not_eq_true] at hchanged
      have hfinish : (applyLifecycleMutations (s.applyCommitPromptDomains m cause) m).finish.1 =
          (applyLifecycleMutations (s.applyCommitPromptDomains m cause) m).state := rfl
      rw [hfinish, happlied]
      exact .mutated m hm fun id hid => ht.keeps h hm hchanged hid

end SessionManagerState
end AgentsCommander.Sessions
