import AgentsCommander.Foundation.Assoc
import AgentsCommander.Sessions.Commit

/-! The roster of sessions: who is there, in which order, and who is shown. Its moves, and the
invariant they keep. -/
namespace AgentsCommander.Sessions

structure Roster where
  status : Uuid → Option SessionStatus
  pending : Uuid → Bool
  order : List Uuid
  epoch : Uuid
  revision : ℕ
  selection : SessionSelection

/-- The live session of a selection. -/
def SessionSelection.shows (sel : SessionSelection) (id : Uuid) : Prop :=
  sel.mode = .live ∧ sel.id = some id

instance (sel : SessionSelection) (id : Uuid) : Decidable (sel.shows id) :=
  inferInstanceAs (Decidable (_ ∧ _))

/-- What two selections of one revision agree on: mode, session, and the exit of a dormant
one. -/
def SessionSelection.key (sel : SessionSelection) :
    SelectionMode × Option Uuid × Option SessionStatus :=
  (sel.mode, sel.id, if sel.mode = .dormant then sel.status else Option.none)

/-- The two statuses a turn moves a session between. -/
def SessionStatus.turning (st : SessionStatus) : Prop := st = .running ∨ st = .idle

def SessionStatus.demoted : SessionStatus → SessionStatus
  | .active => .running
  | st => st

namespace Roster

/-- Another status for a session that is there. -/
def adjust (r : Roster) (id : Uuid) (f : SessionStatus → SessionStatus) : Roster :=
  { r with status := fun j => if j = id then (r.status j).map f else r.status j }

def enter (r : Roster) (id : Uuid) : Roster :=
  { r with
    status := fun j => if j = id then some .running else r.status j
    pending := fun j => j = id || r.pending j
    order := r.order ++ [id] }

def leave (r : Roster) (ids : List Uuid) : Roster :=
  { r with
    status := fun j => if j ∈ ids then none else r.status j
    pending := fun j => r.pending j && j ∉ ids
    order := r.order.filter (· ∉ ids) }

/-- The status a session has once the mutations of a commit are applied. -/
def project (r : Roster) (m : LifecycleMutations) (id : Uuid) : Option SessionStatus :=
  if id ∈ m.removals then none
  else
    match m.finalizations.find? (·.sessionId = id) with
    | some f => some f.status
    | none => (r.status id).map fun st =>
      if st.isExited then st
      else match m.markExited.find? (·.1 = id) with
        | some exit => .exited exit.2
        | none => st

def mutate (r : Roster) (m : LifecycleMutations) : Roster :=
  { r with
    status := r.project m
    pending := fun j => r.pending j && j ∉ m.finalized
    order := r.order.filter (· ∉ m.removals) }

/-- The session shown so far steps back, unless it is shown again. -/
def select (r : Roster) (sel : SessionSelection) : Roster :=
  { r with
    status := fun j =>
      if sel.shows j then (r.status j).map fun _ => .active
      else if r.selection.id = some j then (r.status j).map SessionStatus.demoted
      else r.status j
    revision := sel.revision
    selection := sel }

/-- The mutations a commit lets through. -/
structure Admits (r : Roster) (m : LifecycleMutations) : Prop where
  exits_nodup : m.exits.Nodup
  finalized_nodup : m.finalized.Nodup
  removals_exits : ∀ id ∈ m.removals, id ∉ m.exits
  removals_finalized : ∀ id ∈ m.removals, id ∉ m.finalized
  exits_finalized : ∀ id ∈ m.exits, id ∉ m.finalized
  removals_public : ∀ id ∈ m.removals, r.pending id = false
  exits_public : ∀ id ∈ m.exits, r.pending id = false
  finalized_pending : ∀ id ∈ m.finalized, r.pending id = true

/-- A selection that may be made in a roster. -/
inductive Offers (r : Roster) (sel : SessionSelection) : Prop
  | none (hm : sel.mode = .none) (hi : sel.id = none)
  | live (id : Uuid) (hm : sel.mode = .live) (hi : sel.id = some id)
      (hrow : (r.status id).isSome) (hp : r.pending id = false)
  | dormant (id : Uuid) (code : ℤ) (hm : sel.mode = .dormant) (hi : sel.id = some id)
      (hs : sel.status = some (.exited code)) (hrow : r.status id = some (.exited code))

/-- The selection says who is active. -/
inductive Represented (r : Roster) : Prop
  | none (hm : r.selection.mode = .none) (hi : r.selection.id = none)
      (hno : ∀ j, r.status j ≠ some .active)
  | live (id : Uuid) (hm : r.selection.mode = .live) (hi : r.selection.id = some id)
      (hrow : r.status id = some .active) (honly : ∀ j, r.status j = some .active → j = id)
  | dormant (id : Uuid) (code : ℤ) (hm : r.selection.mode = .dormant)
      (hi : r.selection.id = some id) (hs : r.selection.status = some (.exited code))
      (hrow : r.status id = some (.exited code)) (hno : ∀ j, r.status j ≠ some .active)

/-- Everyone there has one place in the order, and whoever is pending is running. -/
structure Placed (r : Roster) : Prop where
  nodup : r.order.Nodup
  mem_order : ∀ id, id ∈ r.order ↔ (r.status id).isSome
  pending : ∀ id, r.pending id = true → r.status id = some .running

structure Valid (r : Roster) : Prop extends Placed r where
  represented : r.Represented

variable {r : Roster} {m : LifecycleMutations} {sel : SessionSelection}

/-- Whoever is active is the one selected. -/
theorem Represented.selected_of_active (h : r.Represented) {j : Uuid}
    (hj : r.status j = some .active) : r.selection.id = some j := by
  cases h with
  | none hm hi hno => exact absurd hj (hno j)
  | live id hm hi hrow honly => rw [hi, honly j hj]
  | dormant id code hm hi hs hrow hno => exact absurd hj (hno j)

/-- A change of statuses keeps the selection's word, when it makes nobody active and leaves the
selected session as it is. -/
theorem Represented.of_status (r' : Roster) (h : r.Represented)
    (hsel : r'.selection = r.selection)
    (hkeep : ∀ id, r.selection.id = some id → r'.status id = r.status id)
    (hactive : ∀ j, r'.status j = some .active → r.status j = some .active) :
    r'.Represented := by
  cases h with
  | none hm hi hno =>
    exact .none (hsel ▸ hm) (hsel ▸ hi) fun j hj => hno j (hactive j hj)
  | live id hm hi hrow honly =>
    exact .live id (hsel ▸ hm) (hsel ▸ hi) ((hkeep id hi).trans hrow)
      fun j hj => honly j (hactive j hj)
  | dormant id code hm hi hs hrow hno =>
    exact .dormant id code (hsel ▸ hm) (hsel ▸ hi) (hsel ▸ hs) ((hkeep id hi).trans hrow)
      fun j hj => hno j (hactive j hj)

theorem Represented.status_selected (h : r.Represented) {id : Uuid}
    (hid : r.selection.id = some id) :
    r.status id = some .active ∨ ∃ code, r.status id = some (.exited code) := by
  cases h with
  | none hm hi hno => cases hi.symm.trans hid
  | live id' hm hi hrow honly =>
    have he : id' = id := Option.some.inj (hi.symm.trans hid)
    exact .inl (he ▸ hrow)
  | dormant id' code hm hi hs hrow hno =>
    have he : id' = id := Option.some.inj (hi.symm.trans hid)
    exact .inr ⟨code, he ▸ hrow⟩

theorem Represented.active_of_shows (h : r.Represented) {id : Uuid}
    (hid : r.selection.shows id) : r.status id = some .active := by
  cases h with
  | none hm hi hno => cases hi.symm.trans hid.2
  | live id' hm hi hrow honly =>
    have he : id' = id := Option.some.inj (hi.symm.trans hid.2)
    exact he ▸ hrow
  | dormant id' code hm hi hs hrow hno => cases hm.symm.trans hid.1

theorem Represented.turned (h : r.Represented) {id : Uuid} {f : SessionStatus → SessionStatus}
    (hf : ∀ st, f st = st ∨ (st.turning ∧ (f st).turning)) : (r.adjust id f).Represented := by
  have hfix : ∀ st, ¬ st.turning → f st = st := by
    intro st hst
    rcases hf st with heq | ⟨hturn, -⟩
    · exact heq
    · exact absurd hturn hst
  have hstatus : ∀ j, r.selection.id = some j → (r.status j).map f = r.status j := by
    intro j hj
    rcases h.status_selected hj with hrow | ⟨code, hrow⟩
    · rw [hrow, Option.map_some, hfix _ (by rintro (h | h) <;> cases h)]
    · rw [hrow, Option.map_some, hfix _ (by rintro (h | h) <;> cases h)]
  apply Represented.of_status (r.adjust id f) h rfl
  · intro j hj
    rw [adjust]
    dsimp only
    rw [hstatus j hj, ite_self]
  · intro j hj
    rw [adjust] at hj
    dsimp only at hj
    split_ifs at hj
    · obtain ⟨st, hst, heq⟩ := Option.map_eq_some_iff.mp hj
      rcases hf st with hid | ⟨-, hto⟩
      · rw [hst, ← hid, heq]
      · rw [heq] at hto
        rcases hto with hto | hto <;> cases hto
    · exact hj

theorem leave_status {ids : List Uuid} {j : Uuid} {st : SessionStatus}
    (hj : (r.leave ids).status j = some st) : r.status j = some st := by
  rw [leave] at hj
  dsimp only at hj
  split_ifs at hj
  exact hj

theorem Represented.leave (h : r.Represented) {ids : List Uuid}
    (hkeep : ∀ id ∈ ids, r.selection.id ≠ some id) : (r.leave ids).Represented := by
  apply Represented.of_status (r.leave ids) h rfl
  · intro j hj
    have hnot : j ∉ ids := fun hmem => hkeep j hmem hj
    exact if_neg hnot
  · intro j hj
    exact leave_status hj

theorem Represented.enter (h : r.Represented) {id : Uuid} (hfree : r.status id = Option.none) :
    (r.enter id).Represented := by
  apply Represented.of_status (r.enter id) h rfl
  · intro j hj
    have hne : j ≠ id := by
      intro he
      rw [← he] at hfree
      rcases h.status_selected hj with hrow | ⟨code, hrow⟩
      · cases hfree.symm.trans hrow
      · cases hfree.symm.trans hrow
    exact if_neg hne
  · intro j hj
    rw [Roster.enter] at hj
    dsimp only at hj
    split_ifs at hj
    · cases hj
    · exact hj

theorem select_status_of_shows {id : Uuid} (h : sel.shows id) :
    (r.select sel).status id = (r.status id).map fun _ => .active := if_pos h

/-- After a selection only the session shown is active. -/
theorem shows_of_select_active {j : Uuid}
    (hr : ∀ j, r.status j = some .active → r.selection.id = some j)
    (hj : (r.select sel).status j = some .active) : sel.shows j := by
  unfold select at hj
  dsimp only at hj
  split_ifs at hj with hs hp
  · exact hs
  · obtain ⟨st, -, hst⟩ := Option.map_eq_some_iff.mp hj
    cases st <;> cases hst
  · exact absurd (hr j hj) hp

/-- An offered selection, once made, says who is active. -/
theorem Represented.of_select (ho : r.Offers sel)
    (hr : ∀ j, r.status j = some .active → r.selection.id = some j) :
    (r.select sel).Represented := by
  cases ho with
  | none hm hi =>
    apply Represented.none hm hi
    intro j hj
    have hshow := shows_of_select_active hr hj
    rw [SessionSelection.shows, hm] at hshow
    exact absurd hshow.1 (by decide)
  | live id hm hi hrow hp =>
    apply Represented.live id hm hi
    · rw [select_status_of_shows ⟨hm, hi⟩, Option.map_eq_some_iff]
      obtain ⟨st, hst⟩ := Option.isSome_iff_exists.mp hrow
      exact ⟨st, hst, rfl⟩
    · intro j hj
      have hshow := shows_of_select_active hr hj
      exact Option.some.inj (hshow.2.symm.trans hi)
  | dormant id code hm hi hs hrow =>
    have hnot : ∀ j, ¬ sel.shows j := by
      intro j hshow
      rw [SessionSelection.shows, hm] at hshow
      exact absurd hshow.1 (by decide)
    apply Represented.dormant id code hm hi hs
    · unfold select
      dsimp only
      rw [if_neg (hnot id), hrow]
      split_ifs
      · rfl
      · rfl
    · intro j hj
      exact hnot j (shows_of_select_active hr hj)

theorem isSome_select_status (sel : SessionSelection) (j : Uuid) :
    ((r.select sel).status j).isSome = (r.status j).isSome := by
  unfold select
  dsimp only
  split_ifs
  · exact Option.isSome_map
  · exact Option.isSome_map
  · rfl

theorem Placed.none_of_not_mem (h : r.Placed) {id : Uuid} (hid : id ∉ r.order) :
    r.status id = none := by
  rw [h.mem_order, Option.not_isSome_iff_eq_none] at hid
  exact hid

theorem Placed.not_pending (h : r.Placed) {id : Uuid} (hid : r.status id ≠ some .running) :
    r.pending id = false := by
  rw [Bool.eq_false_iff]
  intro hp
  exact hid (h.pending id hp)

theorem Placed.adjust (h : r.Placed) {id : Uuid} (f : SessionStatus → SessionStatus)
    (hp : r.pending id = false) : (r.adjust id f).Placed where
  nodup := h.nodup
  mem_order j := by
    rw [Roster.adjust]
    dsimp only
    rw [h.mem_order]
    split_ifs
    · rw [Option.isSome_map]
    · rfl
  pending j hj := by
    rw [Roster.adjust] at hj ⊢
    dsimp only at hj ⊢
    have hne : j ≠ id := by
      intro he
      rw [he, hp] at hj
      exact absurd hj (by decide)
    rw [if_neg hne]
    exact h.pending j hj

theorem Placed.enter (h : r.Placed) {id : Uuid} (hfree : r.status id = none) :
    (r.enter id).Placed where
  nodup := by
    have hid : id ∉ r.order := by
      rw [h.mem_order, hfree]
      decide
    exact List.nodup_append'.mpr ⟨h.nodup, List.nodup_singleton id,
      List.disjoint_singleton.mpr hid⟩
  mem_order j := by
    rw [Roster.enter]
    dsimp only
    rw [List.mem_append, List.mem_singleton, h.mem_order]
    split_ifs with hj
    · simp only [hj, or_true, Option.isSome_some]
    · simp only [hj, or_false]
  pending j hj := by
    rw [Roster.enter] at hj ⊢
    dsimp only at hj ⊢
    split_ifs with hid
    · rfl
    · rw [decide_eq_false hid, Bool.false_or] at hj
      exact h.pending j hj

theorem Placed.leave (h : r.Placed) (ids : List Uuid) : (r.leave ids).Placed where
  nodup := h.nodup.filter _
  mem_order j := by
    rw [Roster.leave]
    dsimp only
    rw [List.mem_filter, h.mem_order]
    split_ifs with hj
    · simp [hj]
    · simp [hj]
  pending j hj := by
    rw [Roster.leave] at hj ⊢
    dsimp only at hj ⊢
    rw [Bool.and_eq_true, decide_eq_true_eq] at hj
    rw [if_neg hj.2]
    exact h.pending j hj.1

theorem Placed.select (h : r.Placed) {sel : SessionSelection}
    (hs : ∀ id, sel.shows id → r.pending id = false) : (r.select sel).Placed where
  nodup := h.nodup
  mem_order j := by
    rw [isSome_select_status]
    exact h.mem_order j
  pending j hj := by
    have hrun := h.pending j hj
    unfold Roster.select
    dsimp only
    split_ifs with hshow
    · exact absurd ((hs j hshow).symm.trans hj) (by decide)
    · rw [hrun]
      rfl
    · exact hrun

theorem project_eq_none {j : Uuid} (h : r.status j = none)
    (hm : j ∉ m.finalized) : r.project m j = none := by
  have hf : m.finalizations.find? (·.sessionId = j) = none := by
    rw [List.find?_eq_none]
    intro f hf hfj
    exact hm (List.mem_map.mpr ⟨f, hf, of_decide_eq_true hfj⟩)
  unfold project
  rw [hf, h]
  split_ifs <;> rfl

/-- A session that is neither finalized nor removed keeps its place, and a status its own
unless it exits. -/
theorem project_of_public {j : Uuid} (hr : j ∉ m.removals)
    (hm : j ∉ m.finalized) : r.project m j = (r.status j).map fun st =>
      if st.isExited then st
      else match m.markExited.find? (·.1 = j) with
        | some exit => .exited exit.2
        | none => st := by
  have hf : m.finalizations.find? (·.sessionId = j) = none := by
    rw [List.find?_eq_none]
    intro f hf hfj
    exact hm (List.mem_map.mpr ⟨f, hf, of_decide_eq_true hfj⟩)
  unfold project
  rw [hf, if_neg hr]

theorem project_of_finalized {j : Uuid} (hr : j ∉ m.removals)
    (hm : j ∈ m.finalized) : ∃ f ∈ m.finalizations, f.sessionId = j ∧
      r.project m j = some f.status := by
  obtain ⟨f, hf, hfj⟩ := List.mem_map.mp hm
  have hsome : (m.finalizations.find? (·.sessionId = j)).isSome := by
    rw [List.find?_isSome]
    exact ⟨f, hf, decide_eq_true hfj⟩
  obtain ⟨g, hg⟩ := Option.isSome_iff_exists.mp hsome
  have hgj := List.find?_some hg
  simp only [decide_eq_true_eq] at hgj
  unfold project
  rw [hg, if_neg hr]
  exact ⟨g, List.mem_of_find?_eq_some hg, hgj, rfl⟩

theorem project_active {j : Uuid} (h : r.project m j = some .active) :
    r.status j = some .active := by
  unfold project at h
  split_ifs at h
  split at h
  · next f hf => cases f <;> cases h
  · obtain ⟨st, hst, heq⟩ := Option.map_eq_some_iff.mp h
    rw [hst]
    split_ifs at heq
    · rw [heq]
    · split at heq
      · cases heq
      · rw [heq]

theorem Admits.not_removed (hm : r.Admits m) {j : Uuid} (hj : j ∈ m.finalized) :
    j ∉ m.removals := fun hr => hm.removals_finalized j hr hj

theorem isSome_project (h : r.Placed) (hm : r.Admits m) (j : Uuid) :
    (r.project m j).isSome = ((r.status j).isSome && decide (j ∉ m.removals)) := by
  by_cases hr : j ∈ m.removals
  · rw [project, if_pos hr, decide_eq_false (not_not_intro hr), Bool.and_false]
    rfl
  · rw [decide_eq_true hr, Bool.and_true]
    by_cases hf : j ∈ m.finalized
    · obtain ⟨f, -, -, hproj⟩ := project_of_finalized (r := r) hr hf
      rw [hproj, h.pending j (hm.finalized_pending j hf)]
      rfl
    · rw [project_of_public hr hf, Option.isSome_map]

theorem Placed.mutate (h : r.Placed) (hm : r.Admits m) : (r.mutate m).Placed where
  nodup := h.nodup.filter _
  mem_order j := by
    rw [Roster.mutate]
    dsimp only
    rw [List.mem_filter, h.mem_order, isSome_project h hm, Bool.and_eq_true]
  pending j hj := by
    rw [Roster.mutate] at hj ⊢
    dsimp only at hj ⊢
    rw [Bool.and_eq_true, decide_eq_true_eq] at hj
    have hrem : j ∉ m.removals := by
      intro hr
      rw [hm.removals_public j hr] at hj
      exact absurd hj.1 (by decide)
    have hexit : m.markExited.find? (·.1 = j) = none := by
      rw [List.find?_eq_none]
      intro e he hej
      have hmem : j ∈ m.exits := List.mem_map.mpr ⟨e, he, of_decide_eq_true hej⟩
      rw [hm.exits_public j hmem] at hj
      exact absurd hj.1 (by decide)
    rw [project_of_public hrem hj.2, h.pending j hj.1, hexit]
    rfl

theorem Offers.shown (h : r.Offers sel) {id : Uuid} (hs : sel.shows id) :
    (r.status id).isSome ∧ r.pending id = false := by
  cases h with
  | none hm hi =>
    rw [SessionSelection.shows, hm] at hs
    exact absurd hs.1 (by decide)
  | live id' hm hi hrow hp =>
    have he : id' = id := Option.some.inj (hi.symm.trans hs.2)
    rw [← he]
    exact ⟨hrow, hp⟩
  | dormant id' code hm hi hs' hrow =>
    rw [SessionSelection.shows, hm] at hs
    exact absurd hs.1 (by decide)

/-- Selecting in a roster keeps it valid; it need not be represented yet. -/
theorem Placed.valid_select (h : r.Placed)
    (hr : ∀ j, r.status j = some .active → r.selection.id = some j) (ho : r.Offers sel) :
    (r.select sel).Valid where
  toPlaced := h.select fun _ hs => (ho.shown hs).2
  represented := .of_select ho hr

/-! The mutations of a commit, one after the other. -/

def finalize (r : Roster) (f : FinalizeMutation) : Roster :=
  { r with
    status := fun j => if j = f.sessionId then (r.status j).map fun _ => f.status else r.status j
    pending := fun j => if j = f.sessionId then false else r.pending j }

def exit (r : Roster) (e : Uuid × ℤ) : Roster :=
  r.adjust e.1 fun st => if st.isExited then st else .exited e.2

theorem foldl_finalize_rows (hm : r.Admits m) (j : Uuid) :
    ((m.finalizations.foldl finalize r).status j, (m.finalizations.foldl finalize r).pending j) =
      (m.finalizations.find? (·.sessionId = j)).elim (r.status j, r.pending j)
        fun f => ((r.status j).map fun _ => f.status, false) := by
  apply Foundation.Assoc.foldl_at (g := fun (r : Roster) j => (r.status j, r.pending j))
    (f := fun (f : FinalizeMutation) row => (row.1.map fun _ => f.status, false)) _ hm.finalized_nodup
  intro r f k
  rw [finalize]
  dsimp only
  split_ifs <;> rfl

theorem foldl_exit_status (hm : r.Admits m) (t : Roster) (j : Uuid) :
    (m.markExited.foldl exit t).status j =
      (m.markExited.find? (·.1 = j)).elim (t.status j)
        fun e => (t.status j).map fun st => if st.isExited then st else .exited e.2 :=
  Foundation.Assoc.foldl_at (g := fun (r : Roster) j => r.status j)
    (f := fun (e : Uuid × ℤ) => Option.map fun st => if st.isExited then st else .exited e.2)
    (fun _ _ _ => rfl) hm.exits_nodup t j

theorem foldl_exit_pending (l : List (Uuid × ℤ)) (t : Roster) :
    (l.foldl exit t).pending = t.pending :=
  Foundation.Assoc.foldl_frame pending exit (fun _ _ => rfl) l t

/-- What neither finalizations nor exits touch. -/
def frame (r : Roster) : List Uuid × Uuid × ℕ × SessionSelection :=
  (r.order, r.epoch, r.revision, r.selection)

theorem frame_foldl (r : Roster) (m : LifecycleMutations) :
    (m.markExited.foldl exit (m.finalizations.foldl finalize r)).frame = r.frame := by
  rw [Foundation.Assoc.foldl_frame frame exit fun _ _ => rfl,
    Foundation.Assoc.foldl_frame frame finalize fun _ _ => rfl]

theorem mem_finalized_of_find? {j : Uuid} {f : FinalizeMutation}
    (h : m.finalizations.find? (·.sessionId = j) = some f) : j ∈ m.finalized := by
  have hfj := List.find?_some h
  simp only [decide_eq_true_eq] at hfj
  exact List.mem_map.mpr ⟨f, List.mem_of_find?_eq_some h, hfj⟩

theorem not_mem_finalized_of_find? {j : Uuid}
    (h : m.finalizations.find? (·.sessionId = j) = none) : j ∉ m.finalized := by
  intro hj
  obtain ⟨f, hf, hfj⟩ := List.mem_map.mp hj
  exact List.find?_eq_none.mp h f hf (decide_eq_true hfj)

/-- The projection is what the mutations come to. -/
theorem mutate_eq (h : r.Placed) (hm : r.Admits m) :
    (m.markExited.foldl exit (m.finalizations.foldl finalize r)).leave m.removals =
      r.mutate m := by
  have hrows := foldl_finalize_rows hm
  have hframe := frame_foldl r m
  have hstatus : ∀ j, (if j ∈ m.removals then none else
      (m.markExited.foldl exit (m.finalizations.foldl finalize r)).status j) = r.project m j := by
    intro j
    unfold project
    by_cases hrem : j ∈ m.removals
    · rw [if_pos hrem, if_pos hrem]
    · rw [if_neg hrem, if_neg hrem, foldl_exit_status hm]
      have hrow := hrows j
      cases hf : m.finalizations.find? (·.sessionId = j) with
      | none =>
        rw [hf] at hrow
        rw [show (m.finalizations.foldl finalize r).status j = r.status j from
          (Prod.ext_iff.mp hrow).1]
        cases m.markExited.find? (·.1 = j) with
        | none => simp only [ite_self, Option.map_id', Option.elim_none]
        | some e => rfl
      | some f =>
        rw [hf] at hrow
        have hmem := mem_finalized_of_find? hf
        have hexit : m.markExited.find? (·.1 = j) = none := by
          rw [List.find?_eq_none]
          intro e he hej
          have hje : j ∈ m.exits := List.mem_map.mpr ⟨e, he, of_decide_eq_true hej⟩
          exact hm.exits_finalized j hje hmem
        have hrun := h.pending j (hm.finalized_pending j hmem)
        rw [hexit]
        exact (Prod.ext_iff.mp hrow).1.trans (by rw [hrun]; rfl)
  have hpending : ∀ j,
      ((m.markExited.foldl exit (m.finalizations.foldl finalize r)).pending j && j ∉ m.removals) =
        (r.pending j && j ∉ m.finalized) := by
    intro j
    rw [foldl_exit_pending]
    have hrow := hrows j
    cases hf : m.finalizations.find? (·.sessionId = j) with
    | none =>
      rw [hf] at hrow
      rw [show (m.finalizations.foldl finalize r).pending j = r.pending j from
        (Prod.ext_iff.mp hrow).2, decide_eq_true (not_mem_finalized_of_find? hf)]
      by_cases hrem : j ∈ m.removals
      · simp only [hm.removals_public j hrem, Bool.false_and]
      · rw [decide_eq_true hrem]
    | some f =>
      rw [hf] at hrow
      rw [show (m.finalizations.foldl finalize r).pending j = false from
        (Prod.ext_iff.mp hrow).2, decide_eq_false (not_not_intro (mem_finalized_of_find? hf)), Bool.and_false, Bool.false_and]
  rw [frame, frame, Prod.mk.injEq, Prod.mk.injEq, Prod.mk.injEq] at hframe
  unfold leave mutate
  simp only [hstatus, hpending, hframe]

theorem leave_nil (r : Roster) : r.leave [] = r := by
  unfold leave
  simp only [List.not_mem_nil, if_false, not_false_eq_true, decide_true, Bool.and_true,
    List.filter_true]

theorem leave_leave (r : Roster) (xs ys : List Uuid) :
    (r.leave xs).leave ys = r.leave (xs ++ ys) := by
  unfold leave
  simp only [List.filter_filter, List.mem_append, not_or, Roster.mk.injEq, and_true]
  refine ⟨?_, ?_, ?_⟩
  · funext j
    by_cases hx : j ∈ xs <;> by_cases hy : j ∈ ys <;> simp [hx, hy]
  · funext j
    by_cases hx : j ∈ xs <;> by_cases hy : j ∈ ys <;> simp [hx, hy]
  · congr 1
    funext j
    by_cases hx : j ∈ xs <;> by_cases hy : j ∈ ys <;> simp [hx, hy]

theorem Placed.foldl_mutations (h : r.Placed) (hm : r.Admits m) :
    (m.markExited.foldl exit (m.finalizations.foldl finalize r)).Placed := by
  have hm' : r.Admits { m with removals := [] } :=
    { hm with
      removals_exits := fun _ hid => nomatch hid
      removals_finalized := fun _ hid => nomatch hid
      removals_public := fun _ hid => nomatch hid }
  have heq := mutate_eq h hm'
  rw [leave_nil] at heq
  rw [heq]
  exact h.mutate hm'

/-- Nobody leaves who is not there. -/
theorem Placed.leave_absent (h : r.Placed) {id : Uuid} (hid : r.status id = none) :
    r.leave [id] = r := by
  have hnot : id ∉ r.order := by
    rw [h.mem_order, hid]
    decide
  have hpublic : r.pending id = false := by
    apply h.not_pending
    rw [hid]
    exact fun hc => nomatch hc
  obtain ⟨status, pending, order, epoch, revision, selection⟩ := r
  unfold Roster.leave
  simp only [List.mem_singleton, Roster.mk.injEq, and_true]
  refine ⟨?_, ?_, ?_⟩
  · funext j
    split_ifs with hj
    · rw [hj]
      exact hid.symm
    · rfl
  · funext j
    by_cases hj : j = id
    · rw [hj, show pending id = false from hpublic, Bool.false_and]
    · rw [decide_eq_true hj, Bool.and_true]
  · apply List.filter_eq_self.mpr
    intro j hj
    rw [decide_eq_true_eq]
    intro he
    exact hnot (he ▸ hj)

/-! A selection, one row after the other. -/

def stepBack (r : Roster) (sel : SessionSelection) : Roster :=
  r.selection.id.elim r fun p => if sel.shows p then r else r.adjust p SessionStatus.demoted

theorem stepBack_status (r : Roster) (sel : SessionSelection) (j : Uuid) :
    (r.stepBack sel).status j =
      if r.selection.id = some j ∧ ¬ sel.shows j then (r.status j).map SessionStatus.demoted
      else r.status j := by
  unfold stepBack
  cases hp : r.selection.id with
  | none =>
    rw [if_neg (by rintro ⟨h, -⟩; cases h)]
    rfl
  | some p =>
    simp only [Option.elim_some, Option.some.injEq]
    by_cases hj : p = j
    · subst hj
      by_cases hs : sel.shows p
      · rw [if_pos hs, if_neg fun h => h.2 hs]
      · rw [if_neg hs, if_pos ⟨rfl, hs⟩]
        exact if_pos rfl
    · have hnot : ¬ (p = j ∧ ¬ sel.shows j) := fun h => hj h.1
      rw [if_neg hnot]
      split_ifs
      · rfl
      · exact if_neg fun h => hj h.symm

theorem stepBack_frame (r : Roster) (sel : SessionSelection) :
    (r.stepBack sel).pending = r.pending ∧ (r.stepBack sel).order = r.order ∧
      (r.stepBack sel).epoch = r.epoch := by
  unfold stepBack
  cases r.selection.id with
  | none => exact ⟨rfl, rfl, rfl⟩
  | some p =>
    rw [Option.elim_some]
    split_ifs
    · exact ⟨rfl, rfl, rfl⟩
    · exact ⟨rfl, rfl, rfl⟩

theorem select_of_shows {id : Uuid} (h : sel.shows id) :
    r.select sel = { (r.stepBack sel).adjust id fun _ => .active with
      revision := sel.revision
      selection := sel } := by
  obtain ⟨hp, ho, he⟩ := r.stepBack_frame sel
  have hstatus : (r.select sel).status = ((r.stepBack sel).adjust id fun _ => .active).status := by
    funext j
    rw [select, adjust]
    dsimp only
    rw [stepBack_status]
    by_cases hj : j = id
    · subst hj
      rw [if_pos h, if_pos rfl, if_neg fun hn => hn.2 h]
    · have hnot : ¬ sel.shows j := fun hs => hj (Option.some.inj (hs.2.symm.trans h.2))
      rw [if_neg hnot, if_neg hj]
      simp only [hnot, not_false_eq_true, and_true]
  rw [select] at hstatus ⊢
  rw [adjust] at hstatus ⊢
  simp only at hstatus
  simp only [Roster.mk.injEq, and_true]
  exact ⟨hstatus, hp.symm, ho.symm, he.symm⟩

theorem select_of_none (h : ∀ id, ¬ sel.shows id) :
    r.select sel = { r.stepBack sel with
      revision := sel.revision
      selection := sel } := by
  obtain ⟨hp, ho, he⟩ := r.stepBack_frame sel
  have hstatus : (r.select sel).status = (r.stepBack sel).status := by
    funext j
    rw [stepBack_status, select]
    dsimp only
    rw [if_neg (h j)]
    simp only [h j, not_false_eq_true, and_true]
  rw [select] at hstatus ⊢
  simp only [Roster.mk.injEq, and_true]
  exact ⟨hstatus, hp.symm, ho.symm, he.symm⟩

end Roster
end AgentsCommander.Sessions
