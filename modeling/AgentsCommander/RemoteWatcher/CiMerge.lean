import Mathlib.Data.Finmap
import Mathlib.Data.Finset.Card
import Mathlib.Data.List.Perm.Basic

/-! The runs of a branch that are known, the proofs that they completed, and how rows read from the
forge are merged into both. Merging keeps what is known, and its order does not matter while there
is room. -/
namespace AgentsCommander.RemoteWatcher

inductive FailureKind where
  | timeout
  | rateLimited
  | secondaryRateLimited
  | notAuthenticated
  | incomplete
  | other
  deriving DecidableEq

def maxCiKnownRuns : ℕ := 100

structure CiCompletionProof where
  id : ℕ
  workflowId : ℕ
  runAttempt : ℕ
  updatedAt : String
  conclusion : Option String
  deriving DecidableEq

structure CiRunObservation where
  id : ℕ
  workflowId : ℕ
  runAttempt : ℕ
  headSha : String
  headBranch : String
  status : Option String
  conclusion : Option String
  updatedAt : String
  pullRequests : List ℕ
  deriving DecidableEq

namespace CiRunObservation

def completed (run : CiRunObservation) : Bool := run.status = some "completed"

def proof (run : CiRunObservation) : CiCompletionProof where
  id := run.id
  workflowId := run.workflowId
  runAttempt := run.runAttempt
  updatedAt := run.updatedAt
  conclusion := run.conclusion

end CiRunObservation

abbrev KnownRuns := Finmap fun _ : ℕ => CiRunObservation

abbrev Proofs := Finmap fun _ : ℕ => CiCompletionProof

structure CiCompletionState where
  known : KnownRuns
  proofs : Proofs
  closingReady : Bool
  overflow : Bool
  activeIds : List ℕ
  activePrs : List ℕ

namespace CiCompletionState

def cancelCandidate (state : CiCompletionState) : CiCompletionState :=
  { state with proofs := ∅, closingReady := false }

/-- The proof of one run is gone. -/
def cancelProof (state : CiCompletionState) (id : ℕ) : CiCompletionState :=
  { state with proofs := state.proofs.erase id, closingReady := false }

end CiCompletionState

/-- The loop's variables. -/
structure Merging where
  state : CiCompletionState
  activeSeen : Bool
  error : Option FailureKind

/-- Why a row is not absorbed. -/
def rejection (old run : CiRunObservation) : Option FailureKind :=
  if old.workflowId ≠ run.workflowId ∨ old.headSha ≠ run.headSha ∨
      old.headBranch ≠ run.headBranch then
    some .other
  else if run.runAttempt < old.runAttempt then some .incomplete
  else none

def worse (error : Option FailureKind) (kind : FailureKind) : FailureKind :=
  if error = some .other ∨ kind = .other then .other else .incomplete

/-- The end of a turn, where the row is remembered. -/
def Merging.absorb (m : Merging) (run observation : CiRunObservation) : Merging :=
  let state := { m.state with known := m.state.known.insert run.id observation }
  if run.completed then { m with state }
  else
    let activeIds := if m.activeSeen then state.activeIds else []
    let activePrs := if m.activeSeen then state.activePrs else []
    let active :=
      { state with
        activeIds := activeIds ++ [run.id]
        activePrs := activePrs ++ observation.pullRequests }
    { m with state := active.cancelCandidate, activeSeen := true }

/-- One turn of the loop. -/
def mergeRow (fromList : Bool) (m : Merging) (run : CiRunObservation) : Merging :=
  match m.state.known.lookup run.id with
  | some old =>
    match rejection old run with
    | some kind =>
      { m with state := m.state.cancelProof run.id, error := some (worse m.error kind) }
    | none =>
      let observation := if fromList then run else { run with pullRequests := old.pullRequests }
      if old.runAttempt < run.runAttempt then
        { m with state := m.state.cancelCandidate }.absorb run observation
      else if old.proof ≠ run.proof ∨ ¬ run.completed then
        { m with state := m.state.cancelProof run.id }.absorb run observation
      else m.absorb run observation
  | none =>
    let state := m.state.cancelCandidate
    if maxCiKnownRuns ≤ state.known.keys.card then
      { m with state := { state with overflow := true }, error := some (m.error.getD .incomplete) }
    else { m with state }.absorb run run

def mergeCiObservations (state : CiCompletionState) (observations : List CiRunObservation)
    (fromList : Bool) : CiCompletionState × Except FailureKind Unit :=
  let start : Merging :=
    { state, activeSeen := false, error := if state.overflow then some .incomplete else none }
  let m := observations.foldl (mergeRow fromList) start
  (m.state, match m.error with | some kind => .error kind | none => .ok ())

/-- Which proofs a row takes away. -/
inductive Cancelled where
  | nothing
  | this
  | all

def Cancelled.proofs (cancelled : Cancelled) (id : ℕ) (proofs : Proofs) : Proofs :=
  match cancelled with
  | .nothing => proofs
  | .this => proofs.erase id
  | .all => ∅

def Cancelled.keepsReady : Cancelled → Bool
  | .nothing => true
  | _ => false

/-- What a row does. -/
structure Effect where
  observation : Option CiRunObservation
  cancelled : Cancelled
  error : Option FailureKind

def Effect.known (effect : Effect) (id : ℕ) (known : KnownRuns) : KnownRuns :=
  effect.observation.elim known fun observation => known.insert id observation

def effect (fromList : Bool) (known : KnownRuns) (run : CiRunObservation) : Effect :=
  match known.lookup run.id with
  | some old =>
    match rejection old run with
    | some kind => ⟨none, .this, some kind⟩
    | none =>
      ⟨some (if fromList then run else { run with pullRequests := old.pullRequests }),
        if old.runAttempt < run.runAttempt ∨ ¬ run.completed then .all
        else if old.proof ≠ run.proof then .this else .nothing, none⟩
  | none =>
    if maxCiKnownRuns ≤ known.keys.card then ⟨none, .all, some .incomplete⟩
    else ⟨some run, .all, none⟩

/-- There is room for the row. -/
def Fits (known : KnownRuns) (run : CiRunObservation) : Prop :=
  run.id ∈ known ∨ known.keys.card < maxCiKnownRuns

instance (known : KnownRuns) (run : CiRunObservation) : Decidable (Fits known run) :=
  inferInstanceAs (Decidable (_ ∨ _))

section
variable (m : Merging) (run observation : CiRunObservation)

@[simp] theorem absorb_known :
    (m.absorb run observation).state.known = m.state.known.insert run.id observation := by
  unfold Merging.absorb
  split_ifs <;> rfl

@[simp] theorem absorb_proofs : (m.absorb run observation).state.proofs =
    if run.completed then m.state.proofs else ∅ := by
  unfold Merging.absorb
  split_ifs <;> rfl

@[simp] theorem absorb_closingReady : (m.absorb run observation).state.closingReady =
    (m.state.closingReady && run.completed) := by
  unfold Merging.absorb
  by_cases h : run.completed = true
  · rw [if_pos h, h, Bool.and_true]
  · rw [if_neg h, Bool.eq_false_of_not_eq_true h, Bool.and_false]
    rfl

@[simp] theorem absorb_overflow :
    (m.absorb run observation).state.overflow = m.state.overflow := by
  unfold Merging.absorb
  split_ifs <;> rfl

@[simp] theorem absorb_error : (m.absorb run observation).error = m.error := by
  unfold Merging.absorb
  split_ifs <;> rfl

end

section
variable (fromList : Bool) (m : Merging) (run : CiRunObservation)

/-- A turn does what the row's effect says. -/
theorem mergeRow_state :
    (mergeRow fromList m run).state.known =
        (effect fromList m.state.known run).known run.id m.state.known ∧
      (mergeRow fromList m run).state.proofs =
        (effect fromList m.state.known run).cancelled.proofs run.id m.state.proofs ∧
      (mergeRow fromList m run).state.closingReady =
        (m.state.closingReady && (effect fromList m.state.known run).cancelled.keepsReady) := by
  unfold mergeRow effect
  cases hold : m.state.known.lookup run.id with
  | some old =>
    dsimp only
    cases hreject : rejection old run with
    | some kind => exact ⟨rfl, rfl, (Bool.and_false _).symm⟩
    | none =>
      dsimp only
      by_cases hraised : old.runAttempt < run.runAttempt
      · rw [if_pos hraised, if_pos (Or.inl hraised)]
        refine ⟨absorb_known _ _ _, (absorb_proofs _ _ _).trans (ite_self _), ?_⟩
        rw [absorb_closingReady]
        exact (Bool.and_false _).symm
      · by_cases hcompleted : run.completed = true
        · have hall : ¬ (old.runAttempt < run.runAttempt ∨ ¬ run.completed = true) := by
            rw [not_or, not_not]
            exact ⟨hraised, hcompleted⟩
          have hor : (old.proof ≠ run.proof ∨ ¬ run.completed = true) ↔ old.proof ≠ run.proof :=
            or_iff_left (not_not_intro hcompleted)
          rw [if_neg hraised, if_neg hall]
          simp only [hor]
          by_cases hchanged : old.proof ≠ run.proof
          · rw [if_pos hchanged, if_pos hchanged]
            refine ⟨absorb_known _ _ _, (absorb_proofs _ _ _).trans (if_pos hcompleted), ?_⟩
            rw [absorb_closingReady]
            exact (Bool.false_and _).trans (Bool.and_false _).symm
          · rw [if_neg hchanged, if_neg hchanged]
            refine ⟨absorb_known _ _ _, (absorb_proofs _ _ _).trans (if_pos hcompleted), ?_⟩
            rw [absorb_closingReady, hcompleted]
            rfl
        · rw [if_neg hraised, if_pos (Or.inr hcompleted), if_pos (Or.inr hcompleted)]
          refine ⟨absorb_known _ _ _, (absorb_proofs _ _ _).trans (if_neg hcompleted), ?_⟩
          rw [absorb_closingReady]
          exact (Bool.and_false _).symm
  | none =>
    dsimp only
    change (if maxCiKnownRuns ≤ m.state.known.keys.card then _ else _ : Merging).state.known = _ ∧
      (if maxCiKnownRuns ≤ m.state.known.keys.card then _ else _ : Merging).state.proofs = _ ∧
      (if maxCiKnownRuns ≤ m.state.known.keys.card then _ else _ : Merging).state.closingReady = _
    split_ifs with hfull
    · exact ⟨rfl, rfl, (Bool.and_false _).symm⟩
    · refine ⟨absorb_known _ _ _, (absorb_proofs _ _ _).trans (ite_self _), ?_⟩
      rw [absorb_closingReady]
      exact (Bool.and_false _).symm

/-- The error once another is met. -/
def joined (error other : Option FailureKind) : Option FailureKind :=
  other.elim error fun kind => some (worse error kind)

theorem mergeRow_error (hfits : Fits m.state.known run) :
    (mergeRow fromList m run).error = joined m.error (effect fromList m.state.known run).error ∧
      (mergeRow fromList m run).state.overflow = m.state.overflow := by
  unfold mergeRow effect
  cases hold : m.state.known.lookup run.id with
  | some old =>
    dsimp only
    cases hreject : rejection old run with
    | some kind => exact ⟨rfl, rfl⟩
    | none =>
      dsimp only
      split_ifs <;> exact ⟨absorb_error _ _ _, absorb_overflow _ _ _⟩
  | none =>
    have hroom : ¬ maxCiKnownRuns ≤ m.state.known.keys.card := by
      obtain hmem | hlt := hfits
      · exact absurd hmem (Finmap.lookup_eq_none.mp hold)
      · exact Nat.not_le.mpr hlt
    dsimp only
    rw [if_neg hroom]
    change (if maxCiKnownRuns ≤ m.state.known.keys.card then _ else _ : Merging).error = _ ∧
      (if maxCiKnownRuns ≤ m.state.known.keys.card then _ else _ : Merging).state.overflow = _
    rw [if_neg hroom]
    exact ⟨absorb_error _ _ _, absorb_overflow _ _ _⟩

theorem mergeRow_full (hfull : ¬ Fits m.state.known run) :
    (mergeRow fromList m run).state.overflow = true := by
  rw [Fits, not_or, Nat.not_lt] at hfull
  unfold mergeRow
  rw [Finmap.lookup_eq_none.mpr hfull.1]
  exact (if_pos hfull.2 : ite _ _ _ = _) ▸ rfl

end

/-! What a merge keeps. -/

/-- The run is the same and its attempt no earlier. -/
def Continues (old new : CiRunObservation) : Prop :=
  old.runAttempt ≤ new.runAttempt ∧ new.workflowId = old.workflowId ∧
    new.headSha = old.headSha ∧ new.headBranch = old.headBranch

theorem continues_of_rejection {old run : CiRunObservation} (h : rejection old run = none) :
    Continues old run := by
  unfold rejection at h
  split_ifs at h with hidentity hstale
  simp only [not_or, not_not] at hidentity
  exact ⟨Nat.le_of_not_lt hstale, hidentity.1.symm, hidentity.2.1.symm, hidentity.2.2.symm⟩

section
variable {fromList : Bool} {known : KnownRuns} {run observation : CiRunObservation}

/-- A row that is remembered has its own proof, room, and goes on from what was known. -/
theorem effect_observation (h : (effect fromList known run).observation = some observation) :
    observation.proof = run.proof ∧ Fits known run ∧
      (∀ old, known.lookup run.id = some old → Continues old observation) ∧
      ((effect fromList known run).cancelled = .nothing →
        (known.lookup run.id).map (·.proof) = some run.proof) := by
  unfold effect at h ⊢
  cases hold : known.lookup run.id with
  | some old =>
    rw [hold] at h
    dsimp only at h ⊢
    cases hreject : rejection old run with
    | some kind =>
      rw [hreject] at h
      cases h
    | none =>
      rw [hreject] at h
      dsimp only at h ⊢
      have hfits : Fits known run := Or.inl (Finmap.mem_of_lookup_eq_some hold)
      have hcontinues := continues_of_rejection hreject
      refine ⟨?_, hfits, ?_, ?_⟩
      · cases h
        split_ifs <;> rfl
      · intro old' hsame
        cases hsame
        cases h
        split_ifs
        · exact hcontinues
        · exact hcontinues
      · intro hnothing
        split_ifs at hnothing with hall hchanged
        rw [not_not] at hchanged
        exact congrArg some hchanged
  | none =>
    rw [hold] at h
    dsimp only at h ⊢
    split_ifs at h with hfull
    cases h
    refine ⟨rfl, Or.inr (Nat.not_le.mp hfull), fun old hsome => ?_, fun hnothing => ?_⟩
    · cases hsome
    · rw [if_neg hfull] at hnothing
      cases hnothing

theorem keys_insert (id : ℕ) (observation : CiRunObservation) (known : KnownRuns) :
    (known.insert id observation).keys = insert id known.keys := by
  ext key
  rw [Finmap.mem_keys, Finmap.mem_insert, Finset.mem_insert, Finmap.mem_keys]

theorem card_insert_le (hfits : Fits known run) (observation : CiRunObservation) :
    (known.insert run.id observation).keys.card ≤ max known.keys.card maxCiKnownRuns := by
  rw [keys_insert]
  obtain hmem | hlt := hfits
  · rw [Finset.insert_eq_of_mem (Finmap.mem_keys.mpr hmem)]
    exact le_max_left _ _
  · exact (Finset.card_insert_le _ _).trans (hlt.trans_le (le_max_right _ _))

end

/-- What holds of the state after some rows. -/
structure Carried (state next : CiCompletionState) : Prop where
  room : next.known.keys.card ≤ max state.known.keys.card maxCiKnownRuns
  known : ∀ id old, state.known.lookup id = some old →
    ∃ new, next.known.lookup id = some new ∧ Continues old new
  proofs : ∀ id proof, next.proofs.lookup id = some proof →
    state.proofs.lookup id = some proof ∧
      (next.known.lookup id).map (·.proof) = (state.known.lookup id).map (·.proof)

namespace Carried
variable {a b c : CiCompletionState}

theorem refl (a : CiCompletionState) : Carried a a :=
  ⟨le_max_left _ _, fun _ old h => ⟨old, h, le_rfl, rfl, rfl, rfl⟩, fun _ _ h => ⟨h, rfl⟩⟩

theorem trans (hab : Carried a b) (hbc : Carried b c) : Carried a c where
  room := hbc.room.trans (max_le hab.room (le_max_right _ _))
  known id old h := by
    obtain ⟨mid, hmid, hattempt, hworkflow, hsha, hbranch⟩ := hab.known id old h
    obtain ⟨new, hnew, hattempt', hworkflow', hsha', hbranch'⟩ := hbc.known id mid hmid
    exact ⟨new, hnew, hattempt.trans hattempt', hworkflow'.trans hworkflow, hsha'.trans hsha,
      hbranch'.trans hbranch⟩
  proofs id proof h := by
    obtain ⟨hmid, hsame⟩ := hbc.proofs id proof h
    obtain ⟨hfirst, hsame'⟩ := hab.proofs id proof hmid
    exact ⟨hfirst, hsame.trans hsame'⟩

end Carried

/-- Few enough runs are known, and each proof is that of the known run with its id. -/
structure CiCompletionState.Sound (state : CiCompletionState) : Prop where
  room : state.known.keys.card ≤ maxCiKnownRuns
  proofs : ∀ id proof, state.proofs.lookup id = some proof →
    (state.known.lookup id).map (·.proof) = some proof

theorem Carried.sound {state next : CiCompletionState} (h : Carried state next)
    (hsound : state.Sound) : next.Sound where
  room := h.room.trans (max_le hsound.room le_rfl)
  proofs id proof hproof := by
    obtain ⟨hbefore, hsame⟩ := h.proofs id proof hproof
    exact hsame.trans (hsound.proofs id proof hbefore)

theorem lookup_proofs {cancelled : Cancelled} {id key : ℕ} {proofs : Proofs}
    {proof : CiCompletionProof} (h : (cancelled.proofs id proofs).lookup key = some proof) :
    proofs.lookup key = some proof ∧ (key = id → cancelled = .nothing) := by
  cases cancelled with
  | nothing => exact ⟨h, fun _ => rfl⟩
  | this =>
    by_cases hkey : key = id
    · subst hkey
      rw [Cancelled.proofs, Finmap.lookup_erase] at h
      cases h
    · rw [Cancelled.proofs, Finmap.lookup_erase_ne hkey] at h
      exact ⟨h, fun he => absurd he hkey⟩
  | all =>
    rw [Cancelled.proofs, Finmap.lookup_empty] at h
    cases h

theorem mergeRow_carried (fromList : Bool) (m : Merging) (run : CiRunObservation) :
    Carried m.state (mergeRow fromList m run).state := by
  obtain ⟨hknown, hproofs, -⟩ := mergeRow_state fromList m run
  cases hobservation : (effect fromList m.state.known run).observation with
  | none =>
    have hsame : (mergeRow fromList m run).state.known = m.state.known := by
      rw [hknown, Effect.known, hobservation]
      rfl
    refine ⟨hsame ▸ le_max_left _ _, fun id old h => ⟨old, hsame ▸ h, le_rfl, rfl, rfl, rfl⟩, ?_⟩
    intro id proof h
    rw [hproofs] at h
    exact ⟨(lookup_proofs h).1, by rw [hsame]⟩
  | some observation =>
    obtain ⟨hproof, hfits, hcontinues, hunchanged⟩ := effect_observation hobservation
    have hinsert : (mergeRow fromList m run).state.known =
        m.state.known.insert run.id observation := by
      rw [hknown, Effect.known, hobservation]
      rfl
    refine ⟨hinsert ▸ card_insert_le hfits observation, ?_, ?_⟩
    · intro id old h
      by_cases hid : id = run.id
      · subst hid
        exact ⟨observation, hinsert ▸ Finmap.lookup_insert _, hcontinues old h⟩
      · refine ⟨old, ?_, le_rfl, rfl, rfl, rfl⟩
        rw [hinsert, Finmap.lookup_insert_of_ne _ hid]
        exact h
    · intro id proof h
      rw [hproofs] at h
      obtain ⟨hbefore, hnothing⟩ := lookup_proofs h
      refine ⟨hbefore, ?_⟩
      rw [hinsert]
      by_cases hid : id = run.id
      · subst hid
        rw [Finmap.lookup_insert, hunchanged (hnothing rfl), ← hproof]
        rfl
      · rw [Finmap.lookup_insert_of_ne _ hid]

theorem foldl_carried (fromList : Bool) (rows : List CiRunObservation) (m : Merging) :
    Carried m.state (rows.foldl (mergeRow fromList) m).state := by
  induction rows generalizing m with
  | nil => exact .refl _
  | cons run rows ih => exact (mergeRow_carried fromList m run).trans (ih _)

/-! Room for all of the rows. -/

def fresh (keys : Finset ℕ) (rows : List CiRunObservation) : ℕ :=
  rows.countP fun run => run.id ∉ keys

/-- Not all of the new runs can be remembered. -/
def Spills (keys : Finset ℕ) (rows : List CiRunObservation) : Prop :=
  0 < fresh keys rows ∧ maxCiKnownRuns < keys.card + fresh keys rows

theorem Spills.perm {keys : Finset ℕ} {rows rows' : List CiRunObservation} (h : rows.Perm rows') :
    Spills keys rows ↔ Spills keys rows' := by
  unfold Spills fresh
  rw [h.countP_eq]

theorem Spills.mono {keys : Finset ℕ} {rows rows' : List CiRunObservation}
    (hsub : rows.Sublist rows') (h : Spills keys rows) : Spills keys rows' := by
  have hle : fresh keys rows ≤ fresh keys rows' := hsub.countP_le
  exact ⟨h.1.trans_le hle, h.2.trans_le (Nat.add_le_add_left hle _)⟩

theorem fits_iff {known : KnownRuns} {run : CiRunObservation} :
    Fits known run ↔ run.id ∈ known.keys ∨ known.keys.card < maxCiKnownRuns := by
  rw [Fits, Finmap.mem_keys]

theorem fits_of_not_spills {known : KnownRuns} {run : CiRunObservation}
    {rows : List CiRunObservation} (h : ¬ Spills known.keys (run :: rows)) : Fits known run := by
  rw [fits_iff]
  by_contra hnot
  rw [not_or, Nat.not_lt] at hnot
  refine h ?_
  unfold Spills fresh
  rw [List.countP_cons, if_pos (decide_eq_true hnot.1)]
  omega

/-- With one run more among the keys, the rest spills when all did. -/
theorem spills_insert {known : KnownRuns} {run : CiRunObservation} {rows : List CiRunObservation}
    (hfits : Fits known run) (hnot : run.id ∉ rows.map (·.id)) :
    Spills (insert run.id known.keys) rows ↔ Spills known.keys (run :: rows) := by
  have hrest : fresh (insert run.id known.keys) rows = fresh known.keys rows := by
    refine List.countP_congr fun other hother => ?_
    have hne : other.id ≠ run.id := fun he => hnot (List.mem_map.mpr ⟨other, hother, he⟩)
    simp only [decide_eq_true_eq, Finset.mem_insert, hne, false_or]
  unfold Spills
  rw [hrest]
  unfold fresh
  rw [List.countP_cons]
  by_cases hmem : run.id ∈ known.keys
  · rw [Finset.insert_eq_of_mem hmem, if_neg (by simpa using hmem), Nat.add_zero]
  · have hlt := (fits_iff.mp hfits).resolve_left hmem
    rw [Finset.card_insert_of_notMem hmem, if_pos (decide_eq_true hmem)]
    omega

section
variable {fromList : Bool} {m m' : Merging}

theorem keys_mergeRow {run : CiRunObservation} (hfits : Fits m.state.known run) :
    (mergeRow fromList m run).state.known.keys = insert run.id m.state.known.keys := by
  rw [(mergeRow_state fromList m run).1, Effect.known]
  cases hobservation : (effect fromList m.state.known run).observation with
  | some observation => exact keys_insert run.id observation m.state.known
  | none =>
    refine (Finset.insert_eq_of_mem ?_).symm
    by_contra hmem
    change run.id ∉ m.state.known.keys at hmem
    have hroom := (fits_iff.mp hfits).resolve_left hmem
    rw [Finmap.mem_keys] at hmem
    unfold effect at hobservation
    rw [Finmap.lookup_eq_none.mpr hmem] at hobservation
    dsimp only at hobservation
    rw [if_neg (Nat.not_le.mpr hroom)] at hobservation
    cases hobservation

/-- Whether something did not fit is known beforehand. -/
theorem foldl_overflow {rows : List CiRunObservation} (hdistinct : (rows.map (·.id)).Nodup) :
    (rows.foldl (mergeRow fromList) m).state.overflow = true ↔
      m.state.overflow = true ∨ Spills m.state.known.keys rows := by
  induction rows generalizing m with
  | nil => exact (or_iff_left fun h => absurd h.1 (lt_irrefl 0)).symm
  | cons run rows ih =>
    obtain ⟨hnot, hdistinct⟩ := List.nodup_cons.mp hdistinct
    rw [List.foldl_cons, ih hdistinct]
    by_cases hfits : Fits m.state.known run
    · rw [(mergeRow_error fromList m run hfits).2, keys_mergeRow hfits, spills_insert hfits hnot]
    · rw [mergeRow_full fromList m run hfits]
      exact iff_of_true (Or.inl rfl) (Or.inr (Classical.not_not.mp (mt fits_of_not_spills hfits)))

/-! The order of the rows. -/

/-- Nothing differs but the active runs and the overflow. -/
structure Same (m m' : Merging) : Prop where
  known : m.state.known = m'.state.known
  proofs : m.state.proofs = m'.state.proofs
  closingReady : m.state.closingReady = m'.state.closingReady
  error : m.error = m'.error

theorem Same.refl (m : Merging) : Same m m := ⟨rfl, rfl, rfl, rfl⟩

theorem Same.trans {a b c : Merging} (h : Same a b) (h' : Same b c) : Same a c :=
  ⟨h.known.trans h'.known, h.proofs.trans h'.proofs, h.closingReady.trans h'.closingReady,
    h.error.trans h'.error⟩

theorem mergeRow_same (h : Same m m') {run : CiRunObservation} (hfits : Fits m.state.known run) :
    Same (mergeRow fromList m run) (mergeRow fromList m' run) := by
  have hfits' : Fits m'.state.known run := h.known ▸ hfits
  obtain ⟨hknown, hproofs, hready⟩ := mergeRow_state fromList m run
  obtain ⟨hknown', hproofs', hready'⟩ := mergeRow_state fromList m' run
  refine ⟨?_, ?_, ?_, ?_⟩
  · rw [hknown, hknown', h.known]
  · rw [hproofs, hproofs', h.known, h.proofs]
  · rw [hready, hready', h.known, h.closingReady]
  · rw [(mergeRow_error fromList m run hfits).1, (mergeRow_error fromList m' run hfits').1, h.known,
      h.error]

theorem foldl_same {rows : List CiRunObservation} (h : Same m m')
    (hdistinct : (rows.map (·.id)).Nodup) (hroom : ¬ Spills m.state.known.keys rows) :
    Same (rows.foldl (mergeRow fromList) m) (rows.foldl (mergeRow fromList) m') := by
  induction rows generalizing m m' with
  | nil => exact h
  | cons run rows ih =>
    obtain ⟨hnot, hdistinct⟩ := List.nodup_cons.mp hdistinct
    have hfits := fits_of_not_spills hroom
    refine ih (mergeRow_same h hfits) hdistinct ?_
    rwa [keys_mergeRow hfits, spills_insert hfits hnot]

theorem effect_congr {known known' : KnownRuns} {run : CiRunObservation}
    (hlookup : known'.lookup run.id = known.lookup run.id) (hfits : Fits known run)
    (hfits' : Fits known' run) : effect fromList known' run = effect fromList known run := by
  unfold effect
  rw [hlookup]
  cases hold : known.lookup run.id with
  | some old => rfl
  | none =>
    have hmem := Finmap.lookup_eq_none.mp hold
    have hmem' := Finmap.lookup_eq_none.mp (hlookup.trans hold)
    dsimp only
    rw [if_neg (Nat.not_le.mpr (hfits.resolve_left hmem)),
      if_neg (Nat.not_le.mpr (hfits'.resolve_left hmem'))]

theorem Effect.lookup_known {a : Effect} {id key : ℕ} (hne : key ≠ id) (known : KnownRuns) :
    (a.known id known).lookup key = known.lookup key := by
  unfold Effect.known
  cases a.observation with
  | none => rfl
  | some observation => exact Finmap.lookup_insert_of_ne known hne

theorem Effect.known_comm (a b : Effect) {id key : ℕ} (hne : id ≠ key) (known : KnownRuns) :
    b.known key (a.known id known) = a.known id (b.known key known) := by
  unfold Effect.known
  cases a.observation with
  | none => rfl
  | some observation =>
    cases b.observation with
    | none => rfl
    | some other => exact Finmap.insert_insert_of_ne known hne

theorem Cancelled.proofs_comm (a b : Cancelled) (id key : ℕ) (proofs : Proofs) :
    b.proofs key (a.proofs id proofs) = a.proofs id (b.proofs key proofs) := by
  have hempty : ∀ key, (∅ : Proofs).erase key = ∅ := fun _ => rfl
  cases a <;> cases b <;> simp only [Cancelled.proofs, hempty]
  exact Finmap.erase_erase

theorem joined_comm (error a b : Option FailureKind) :
    joined (joined error a) b = joined (joined error b) a := by
  cases a with
  | none => rfl
  | some a =>
    cases b with
    | none => rfl
    | some b =>
      simp only [joined, Option.elim_some, worse, Option.some_inj]
      grind

/-- Two rows of different runs, in either order. -/
theorem mergeRow_comm {a b : CiRunObservation} (hne : a.id ≠ b.id)
    (hroom : ¬ Spills m.state.known.keys [a, b]) :
    Same (mergeRow fromList (mergeRow fromList m a) b)
      (mergeRow fromList (mergeRow fromList m b) a) := by
  have hswap : ¬ Spills m.state.known.keys [b, a] := by
    rwa [Spills.perm (List.Perm.swap a b [])]
  have ha := fits_of_not_spills hroom
  have hb := fits_of_not_spills hswap
  have hnot : a.id ∉ [b].map (·.id) := fun hmem => hne (List.mem_singleton.mp hmem)
  have hnot' : b.id ∉ [a].map (·.id) := fun hmem => hne (List.mem_singleton.mp hmem).symm
  have hab : Fits (mergeRow fromList m a).state.known b := by
    rw [← spills_insert ha hnot, ← @keys_mergeRow fromList m a ha] at hroom
    exact fits_of_not_spills hroom
  have hba : Fits (mergeRow fromList m b).state.known a := by
    rw [← spills_insert hb hnot', ← @keys_mergeRow fromList m b hb] at hswap
    exact fits_of_not_spills hswap
  obtain ⟨hknown, hproofs, hready⟩ := mergeRow_state fromList m a
  obtain ⟨hknown', hproofs', hready'⟩ := mergeRow_state fromList m b
  obtain ⟨hlast, hlastProofs, hlastReady⟩ := mergeRow_state fromList (mergeRow fromList m a) b
  obtain ⟨hlast', hlastProofs', hlastReady'⟩ := mergeRow_state fromList (mergeRow fromList m b) a
  have heffect : effect fromList (mergeRow fromList m a).state.known b =
      effect fromList m.state.known b := by
    refine effect_congr ?_ hb hab
    rw [hknown, Effect.lookup_known hne.symm]
  have heffect' : effect fromList (mergeRow fromList m b).state.known a =
      effect fromList m.state.known a := by
    refine effect_congr ?_ ha hba
    rw [hknown', Effect.lookup_known hne]
  refine ⟨?_, ?_, ?_, ?_⟩
  · rw [hlast, hlast', heffect, heffect', hknown, hknown', Effect.known_comm _ _ hne]
  · rw [hlastProofs, hlastProofs', heffect, heffect', hproofs, hproofs', Cancelled.proofs_comm]
  · rw [hlastReady, hlastReady', heffect, heffect', hready, hready', Bool.and_right_comm]
  · rw [(mergeRow_error fromList _ b hab).1, (mergeRow_error fromList _ a hba).1, heffect, heffect',
      (mergeRow_error fromList m a ha).1, (mergeRow_error fromList m b hb).1, joined_comm]

theorem foldl_perm {rows rows' : List CiRunObservation} (h : rows.Perm rows')
    (hdistinct : (rows.map (·.id)).Nodup) (hroom : ¬ Spills m.state.known.keys rows) :
    Same (rows.foldl (mergeRow fromList) m) (rows'.foldl (mergeRow fromList) m) := by
  induction h generalizing m with
  | nil => exact .refl m
  | cons run _ ih =>
    obtain ⟨hnot, hdistinct⟩ := List.nodup_cons.mp hdistinct
    have hfits := fits_of_not_spills hroom
    refine ih hdistinct ?_
    rwa [keys_mergeRow hfits, spills_insert hfits hnot]
  | swap a b rows =>
    obtain ⟨hnot, hrest⟩ := List.nodup_cons.mp hdistinct
    obtain ⟨hnot', hrest⟩ := List.nodup_cons.mp hrest
    have hne : b.id ≠ a.id := fun he =>
      hnot (List.mem_map.mpr ⟨a, List.mem_cons_self, he.symm⟩)
    have hsub : [b, a].Sublist (b :: a :: rows) :=
      ((List.nil_sublist rows).cons_cons a).cons_cons b
    have hb := fits_of_not_spills hroom
    have hrest' : ¬ Spills (mergeRow fromList m b).state.known.keys (a :: rows) := by
      rwa [keys_mergeRow hb, spills_insert hb hnot]
    have ha := fits_of_not_spills hrest'
    refine foldl_same (mergeRow_comm hne (mt (Spills.mono hsub) hroom)) hrest ?_
    rwa [keys_mergeRow ha, spills_insert ha hnot']
  | trans hab hbc ihab ihbc =>
    have hmid := (hab.map (·.id)).nodup_iff.mp hdistinct
    exact (ihab hdistinct hroom).trans (ihbc hmid (mt (Spills.perm hab).mpr hroom))

end

/-- What a merge keeps; and while there is room, whatever the order of the rows, what is known and
proven, whether the runs may close, and the error. -/
theorem merge_law (state : CiCompletionState) {rows : List CiRunObservation}
    (hdistinct : (rows.map (·.id)).Nodup) (fromList : Bool) :
    (Carried state (mergeCiObservations state rows fromList).1 ∧
      (state.Sound → (mergeCiObservations state rows fromList).1.Sound)) ∧
      ∀ rows', rows.Perm rows' →
        (mergeCiObservations { state with overflow := false } rows fromList).1.overflow = false →
          let (a, result) := mergeCiObservations state rows fromList
          let (b, result') := mergeCiObservations state rows' fromList
          a.known = b.known ∧ a.proofs = b.proofs ∧ a.closingReady = b.closingReady ∧
            result = result' := by
  obtain ⟨start, hstart⟩ : ∃ start : Merging,
    start = ⟨state, false, if state.overflow then some .incomplete else none⟩ := ⟨_, rfl⟩
  have hcarried : Carried state (mergeCiObservations state rows fromList).1 := by
    have hall := foldl_carried fromList rows start
    rw [hstart] at hall
    exact hall
  refine ⟨⟨hcarried, hcarried.sound⟩, ?_⟩
  intro rows' hperm hroom
  have hfits : ¬ Spills state.known.keys rows := by
    intro hspills
    have htrue : (mergeCiObservations { state with overflow := false } rows fromList).1.overflow =
        true := (foldl_overflow hdistinct).mpr (Or.inr hspills)
    exact Bool.false_ne_true (hroom.symm.trans htrue)
  have hkeys : start.state.known.keys = state.known.keys := by rw [hstart]
  have hsame : Same (rows.foldl (mergeRow fromList) start)
      (rows'.foldl (mergeRow fromList) start) := foldl_perm hperm hdistinct (hkeys ▸ hfits)
  rw [hstart] at hsame
  refine ⟨hsame.known, hsame.proofs, hsame.closingReady, ?_⟩
  rw [hsame.error]

def firstRun : CiRunObservation where
  id := 7
  workflowId := 1
  runAttempt := 1
  headSha := "a1"
  headBranch := "main"
  status := some "completed"
  conclusion := some "success"
  updatedAt := "2026-10-20T10:00:00Z"
  pullRequests := [12]

def secondRun : CiRunObservation := { firstRun with id := 8, status := some "queued" }

theorem merge_law_rows :
    CiCompletionState.Sound (mergeCiObservations ⟨∅, ∅, false, false, [], []⟩
        [firstRun, secondRun] true).1 ∧
      (mergeCiObservations ⟨∅, ∅, false, false, [], []⟩ [firstRun, secondRun] true).1.known =
        (mergeCiObservations ⟨∅, ∅, false, false, [], []⟩ [secondRun, firstRun] true).1.known := by
  have hdistinct : ([firstRun, secondRun].map (·.id)).Nodup := by decide
  have hsound : CiCompletionState.Sound ⟨∅, ∅, false, false, [], []⟩ := ⟨by decide, nofun⟩
  obtain ⟨⟨-, hkeeps⟩, hsame⟩ := merge_law ⟨∅, ∅, false, false, [], []⟩ hdistinct true
  exact ⟨hkeeps hsound, (hsame _ (List.Perm.swap secondRun firstRun []) (by decide)).1⟩

end AgentsCommander.RemoteWatcher
