import AgentsCommander.RemoteWatcher.Staleness

/-! The notices of a branch that has fallen behind depend on the last answer for the branch,
whatever commits were made since. -/
namespace AgentsCommander.RemoteWatcher
open Foundation

/-- What is remembered of a branch after an answer. -/
def remembered (memory : Option StalenessState) : Option CompareAnswer → Option StalenessState
  | some (.ok answer) => some (if answer.aheadBy = some 0 then .current else answer.state)
  | _ => memory

/-- The answer is that a branch with commits of its own has fallen behind, and it had not. -/
def Noticed (memory : Option StalenessState) : Option CompareAnswer → Prop
  | some (.ok answer) =>
    answer.state = .stale ∧ answer.aheadBy ≠ some 0 ∧ memory = some .current
  | _ => False

instance (memory : Option StalenessState) (answer : Option CompareAnswer) :
    Decidable (Noticed memory answer) :=
  match answer with
  | some (.ok _) => inferInstanceAs (Decidable (_ ∧ _ ∧ _))
  | some (.error _) => inferInstanceAs (Decidable False)
  | none => inferInstanceAs (Decidable False)

def answerIn (nwo branch : String) (outcomes : List (QueryKey × Option CompareAnswer)) :
    Option CompareAnswer :=
  (outcomes.find? fun outcome => outcome.1.On nwo branch).bind (·.2)

def ofBranch (nwo branch : String) (sent : List RemoteTransition) : List RemoteTransition :=
  sent.filter fun t => t.nwo = nwo ∧ t.branch = branch

section
variable {r : Round} {state : SweeperState} {key : QueryKey} {result : Option CompareAnswer}
  {nwo branch : String}

theorem of_mem_fanOut {behindBy : Option ℕ} {label : String} {last : Option ℕ}
    {t : RemoteTransition} (h : t ∈ fanOut r key behindBy label last) :
    t.nwo = key.nwo ∧ t.branch = key.branch := by
  unfold fanOut at h
  obtain ⟨fact, hfact, ht⟩ := List.mem_flatMap.mp h
  obtain ⟨roomDir, -, rfl⟩ := List.mem_map.mp ht
  have hkey : fact.queryKey = some key := of_decide_eq_true (List.mem_filter.mp hfact).2
  refine ⟨rfl, ?_⟩
  unfold PathFacts.queryKey at hkey
  obtain ⟨_, _, hkey⟩ := Option.bind_eq_some_iff.mp hkey
  obtain ⟨_, _, hkey⟩ := Option.bind_eq_some_iff.mp hkey
  obtain ⟨name, hname, hkey⟩ := Option.bind_eq_some_iff.mp hkey
  cases hkey
  exact congrArg (·.getD "") hname

/-- An answer changes the entry of its key only, and its notices are of that key's branch. -/
theorem applyStaleness_frame :
    (applyStaleness r state key result).1.baseBranches = state.baseBranches ∧
      (∀ other, other ≠ key →
        (applyStaleness r state key result).1.keys.lookup other = state.keys.lookup other) ∧
      ∀ t ∈ (applyStaleness r state key result).2, t.nwo = key.nwo ∧ t.branch = key.branch := by
  unfold applyStaleness
  match result with
  | none => exact ⟨rfl, fun _ _ => rfl, fun _ h => absurd h List.not_mem_nil⟩
  | some (.error kind) =>
    exact ⟨rfl, fun _ h => AList.lookup_insert_ne h, fun _ h => absurd h List.not_mem_nil⟩
  | some (.ok answer) =>
    refine ⟨rfl, fun _ h => AList.lookup_insert_ne h, fun t ht => ?_⟩
    dsimp only at ht
    split_ifs at ht
    · exact of_mem_fanOut ht
    · exact absurd ht List.not_mem_nil

theorem applyStaleness_default
    (h : onDefaultBranch state.baseBranches key.nwo key.branch = true) :
    (applyStaleness r state key result).2 = [] := by
  unfold applyStaleness
  match result with
  | none => rfl
  | some (.error kind) => rfl
  | some (.ok answer) =>
    dsimp only
    rw [h]
    exact if_neg fun hand => Bool.false_ne_true hand.2.1

/-- Off the default branch, what is remembered and noticed. -/
theorem applyStaleness_own
    (h : onDefaultBranch state.baseBranches key.nwo key.branch = false) :
    confirmedAt (applyStaleness r state key result).1.keys key =
        remembered (confirmedAt state.keys key) result ∧
      ∃ behindBy label last, (applyStaleness r state key result).2 =
        if Noticed (confirmedAt state.keys key) result then fanOut r key behindBy label last
        else [] := by
  have hconfirmed : ((state.keys.lookup key).getD {}).confirmed = confirmedAt state.keys key := by
    unfold confirmedAt
    cases state.keys.lookup key <;> rfl
  unfold applyStaleness
  match result with
  | none => exact ⟨rfl, none, "", none, (if_neg id).symm⟩
  | some (.error kind) =>
    refine ⟨?_, none, "", none, (if_neg id).symm⟩
    dsimp only
    unfold confirmedAt
    rw [AList.lookup_insert]
    exact hconfirmed
  | some (.ok answer) =>
    dsimp only
    rw [h, hconfirmed]
    constructor
    · unfold confirmedAt
      rw [AList.lookup_insert]
      simp [remembered]
    · refine ⟨_, _, _, if_congr ?_ rfl rfl⟩
      simp only [Noticed]
      grind

theorem ofBranch_nil {sent : List RemoteTransition}
    (h : ∀ t ∈ sent, ¬ (t.nwo = nwo ∧ t.branch = branch)) : ofBranch nwo branch sent = [] :=
  List.filter_eq_nil_iff.mpr fun t ht => by simpa using h t ht

theorem ofBranch_append (a b : List RemoteTransition) :
    ofBranch nwo branch (a ++ b) = ofBranch nwo branch a ++ ofBranch nwo branch b :=
  List.filter_append ..

theorem applyOutcomes_cons (key : QueryKey) (result : Option CompareAnswer)
    (outcomes : List (QueryKey × Option CompareAnswer)) (state : SweeperState) :
    applyOutcomes r ((key, result) :: outcomes) state =
      ((applyOutcomes r outcomes (applyStaleness r state key result).1).1,
        (applyStaleness r state key result).2 ++
          (applyOutcomes r outcomes (applyStaleness r state key result).1).2) := rfl

/-- Answers for other branches say nothing about this one. -/
theorem applyOutcomes_other {outcomes : List (QueryKey × Option CompareAnswer)}
    (h : ∀ outcome ∈ outcomes, ¬ outcome.1.On nwo branch) (state : SweeperState) :
    (applyOutcomes r outcomes state).1.baseBranches = state.baseBranches ∧
      (∀ key, key.On nwo branch →
        (applyOutcomes r outcomes state).1.keys.lookup key = state.keys.lookup key) ∧
      ofBranch nwo branch (applyOutcomes r outcomes state).2 = [] := by
  induction outcomes generalizing state with
  | nil => exact ⟨rfl, fun _ _ => rfl, rfl⟩
  | cons outcome outcomes ih =>
    obtain ⟨other, result⟩ := outcome
    obtain ⟨hother, hrest⟩ := List.forall_mem_cons.mp h
    obtain ⟨hbase, hkeys, hsent⟩ := @applyStaleness_frame r state other result
    obtain ⟨hbase', hkeys', hsent'⟩ := ih hrest (applyStaleness r state other result).1
    rw [applyOutcomes_cons]
    refine ⟨hbase'.trans hbase, fun key hkey => ?_, ?_⟩
    · have hne : key ≠ other := fun he => hother (he ▸ hkey)
      exact (hkeys' key hkey).trans (hkeys key hne)
    · have hnone : ofBranch nwo branch (applyStaleness r state other result).2 = [] :=
        ofBranch_nil fun t ht hof =>
          hother ⟨(hsent t ht).1.symm.trans hof.1, (hsent t ht).2.symm.trans hof.2⟩
      rw [ofBranch_append, hnone, hsent', List.append_nil]

theorem applyOutcomes_append (a b : List (QueryKey × Option CompareAnswer)) (state : SweeperState) :
    applyOutcomes r (a ++ b) state =
      ((applyOutcomes r b (applyOutcomes r a state).1).1,
        (applyOutcomes r a state).2 ++ (applyOutcomes r b (applyOutcomes r a state).1).2) := by
  induction a generalizing state with
  | nil => rfl
  | cons outcome a ih =>
    obtain ⟨key, result⟩ := outcome
    rw [List.cons_append, applyOutcomes_cons, ih, applyOutcomes_cons, List.append_assoc]

/-- The answers of one round, where one key is on the branch. -/
theorem applyOutcomes_law {outcomes : List (QueryKey × Option CompareAnswer)} {live : QueryKey}
    (hdistinct : (outcomes.map Prod.fst).Nodup) (hlive : live.On nwo branch)
    (halone : ∀ outcome ∈ outcomes, outcome.1.On nwo branch → outcome.1 = live)
    (state : SweeperState) :
    (applyOutcomes r outcomes state).1.baseBranches = state.baseBranches ∧
      (∀ key, key.On nwo branch → key ≠ live →
        (applyOutcomes r outcomes state).1.keys.lookup key = state.keys.lookup key) ∧
      (onDefaultBranch state.baseBranches nwo branch = true →
        ofBranch nwo branch (applyOutcomes r outcomes state).2 = []) ∧
      (onDefaultBranch state.baseBranches nwo branch = false →
        confirmedAt (applyOutcomes r outcomes state).1.keys live =
            remembered (confirmedAt state.keys live) (answerIn nwo branch outcomes) ∧
          ∃ behindBy label last, ofBranch nwo branch (applyOutcomes r outcomes state).2 =
            if Noticed (confirmedAt state.keys live) (answerIn nwo branch outcomes) then
              fanOut r live behindBy label last
            else []) := by
  by_cases hasked : ∃ result, (live, result) ∈ outcomes
  · obtain ⟨result, hmem⟩ := hasked
    obtain ⟨before, after, rfl⟩ := List.append_of_mem hmem
    rw [List.map_append, List.map_cons, List.nodup_middle, List.nodup_cons] at hdistinct
    have hother : ∀ outcome ∈ before ++ after, ¬ outcome.1.On nwo branch := by
      intro outcome houtcome hon
      have hall : outcome ∈ before ++ (live, result) :: after :=
        List.perm_middle.mem_iff.mpr (List.mem_cons_of_mem _ houtcome)
      refine hdistinct.1 ?_
      rw [← List.map_append, List.mem_map]
      exact ⟨outcome, houtcome, halone outcome hall hon⟩
    have hbefore : ∀ outcome ∈ before, ¬ outcome.1.On nwo branch := fun o ho =>
      hother o (List.mem_append_left _ ho)
    have hafter : ∀ outcome ∈ after, ¬ outcome.1.On nwo branch := fun o ho =>
      hother o (List.mem_append_right _ ho)
    have hanswer : answerIn nwo branch (before ++ (live, result) :: after) = result := by
      have hnone : (before.find? fun outcome => outcome.1.On nwo branch) = none :=
        List.find?_eq_none.mpr fun o ho => by simpa using hbefore o ho
      have hfound : (((live, result) :: after).find? fun outcome => outcome.1.On nwo branch) =
          some (live, result) := List.find?_cons_of_pos (decide_eq_true hlive)
      unfold answerIn
      rw [List.find?_append, hnone, Option.none_or, hfound]
      rfl
    rw [hanswer, applyOutcomes_append, applyOutcomes_cons]
    obtain ⟨hbase, hkeys, hsent⟩ := applyOutcomes_other (r := r) hbefore state
    generalize applyOutcomes r before state = first at hbase hkeys hsent ⊢
    obtain ⟨hbase', hkeys', hsent'⟩ := @applyStaleness_frame r first.1 live result
    have hdefault := @applyStaleness_default r first.1 live result
    have hown := @applyStaleness_own r first.1 live result
    have hofLive : ofBranch nwo branch (applyStaleness r first.1 live result).2 =
        (applyStaleness r first.1 live result).2 :=
      List.filter_eq_self.mpr fun t ht => decide_eq_true
        ⟨(hsent' t ht).1.trans hlive.1, (hsent' t ht).2.trans hlive.2⟩
    rw [hlive.1, hlive.2, hbase] at hdefault hown
    generalize applyStaleness r first.1 live result = mid at hbase' hkeys' hofLive hdefault hown ⊢
    obtain ⟨hbase'', hkeys'', hsent''⟩ := applyOutcomes_other (r := r) hafter mid.1
    generalize applyOutcomes r after mid.1 = third at hbase'' hkeys'' hsent'' ⊢
    have hsame : confirmedAt first.1.keys live = confirmedAt state.keys live := by
      unfold confirmedAt
      rw [hkeys live hlive]
    have hsame' : confirmedAt third.1.keys live = confirmedAt mid.1.keys live := by
      unfold confirmedAt
      rw [hkeys'' live hlive]
    rw [ofBranch_append, ofBranch_append, hsent, hsent'', hofLive, List.nil_append, List.append_nil,
      hsame']
    rw [hsame] at hown
    refine ⟨hbase''.trans (hbase'.trans hbase), fun key hkey hne => ?_, hdefault, hown⟩
    exact (hkeys'' key hkey).trans ((hkeys' key hne).trans (hkeys key hkey))
  · have hother : ∀ outcome ∈ outcomes, ¬ outcome.1.On nwo branch := by
      intro outcome houtcome hon
      exact hasked ⟨outcome.2, halone outcome houtcome hon ▸ houtcome⟩
    have hanswer : answerIn nwo branch outcomes = none := by
      have hnone : (outcomes.find? fun outcome => outcome.1.On nwo branch) = none :=
        List.find?_eq_none.mpr fun o ho => by simpa using hother o ho
      unfold answerIn
      rw [hnone]
      rfl
    obtain ⟨hbase, hkeys, hsent⟩ := applyOutcomes_other (r := r) hother state
    rw [hanswer, hsent]
    refine ⟨hbase, fun key hkey _ => hkeys key hkey, fun _ => rfl,
      fun _ => ⟨?_, none, "", none, ?_⟩⟩
    · unfold confirmedAt
      rw [hkeys live hlive]
      rfl
    · exact (if_neg id).symm

end

/-! Rounds. -/

/-- The path is on the branch, and none is on it at another commit. -/
structure Stays (path nwo branch : String) (r : Round) : Prop where
  here : ∃ fact ∈ r.facts, fact.path = path ∧
    ∃ headSha, fact.queryKey = some ⟨nwo, headSha, branch⟩
  alone : ∀ a ∈ queryGroups r.facts, ∀ b ∈ queryGroups r.facts,
    a.On nwo branch → b.On nwo branch → a = b

def answerOf (nwo branch : String) (r : Round) : Option CompareAnswer :=
  answerIn nwo branch r.outcomes

/-- The last answer for the branch, under any commit. -/
def memoryOf (nwo branch : String) (rounds : List Round) : Option StalenessState :=
  rounds.foldl (fun memory r => remembered memory (answerOf nwo branch r)) none

/-- The rooms of the paths on the branch. -/
def roomsOf (nwo branch : String) (r : Round) : List (String × String) :=
  (r.facts.filter fun fact => fact.queryKey.any fun key => key.On nwo branch).flatMap fun fact =>
    fact.roomDirs.map fun roomDir => (fact.path, roomDir)

def sentTo (nwo branch : String) (sent : List RemoteTransition) : List (String × String) :=
  (ofBranch nwo branch sent).map fun t => (t.repoPath, t.roomDir)

theorem lookup_resolveBaseBranch {labels : String → String} {baseBranches : BaseBranches}
    {key : QueryKey} {nwo label : String} (h : baseBranches.lookup nwo = some label) :
    (resolveBaseBranch labels baseBranches key).lookup nwo = some label := by
  unfold resolveBaseBranch
  split_ifs with hknown
  · exact h
  · by_cases hsame : nwo = key.nwo
    · subst hsame
      rw [h] at hknown
      exact absurd rfl hknown
    · rw [AList.lookup_insert_ne hsame]
      exact h

/-- A label that was found stays. -/
theorem lookup_foldl_resolve {labels : String → String} {keys : List QueryKey}
    {baseBranches : BaseBranches} {nwo label : String}
    (h : baseBranches.lookup nwo = some label) :
    (keys.foldl (resolveBaseBranch labels) baseBranches).lookup nwo = some label := by
  induction keys generalizing baseBranches with
  | nil => exact h
  | cons key keys ih => exact ih (lookup_resolveBaseBranch h)

theorem onDefaultBranch_foldl {labels : String → String} {keys : List QueryKey}
    {baseBranches : BaseBranches} {nwo branch : String}
    (h : onDefaultBranch baseBranches nwo branch = true) :
    onDefaultBranch (keys.foldl (resolveBaseBranch labels) baseBranches) nwo branch = true := by
  unfold onDefaultBranch baseLabel at h ⊢
  cases hlabel : baseBranches.lookup nwo with
  | none =>
    rw [hlabel] at h
    exact absurd h (by simp)
  | some label =>
    rw [hlabel] at h
    rw [lookup_foldl_resolve hlabel]
    exact h

/-- What holds between rounds: the default branch is never noticed, any other is remembered. -/
def Tracked (nwo branch : String) (memory : Option StalenessState) (state : SweeperState) : Prop :=
  onDefaultBranch state.baseBranches nwo branch = true ∨ Remembers state.keys nwo branch memory

theorem Remembers.of_one {keys : Keys} {nwo branch : String} {memory : Option StalenessState}
    {live : QueryKey} (hlive : live.On nwo branch)
    (honly : ∀ key ∈ keys, key.On nwo branch → key = live)
    (hconfirmed : confirmedAt keys live = memory) : Remembers keys nwo branch memory where
  single a b ha hb haOn hbOn := (honly a ha haOn).trans (honly b hb hbOn).symm
  confirmed key hkey hon := honly key hkey hon ▸ hconfirmed
  held hne := by
    refine ⟨live, ?_, hlive⟩
    by_contra hmem
    unfold confirmedAt at hconfirmed
    rw [AList.lookup_eq_none.mpr hmem] at hconfirmed
    exact hne hconfirmed.symm

section
variable {path nwo branch : String} {r : Round}

theorem Stays.live (h : Stays path nwo branch r) :
    ∃ live ∈ queryGroups r.facts, live.On nwo branch ∧
      ∀ key ∈ queryGroups r.facts, key.On nwo branch → key = live := by
  obtain ⟨fact, hfact, -, headSha, hkey⟩ := h.here
  have hmem : ⟨nwo, headSha, branch⟩ ∈ queryGroups r.facts :=
    List.mem_dedup.mpr (List.mem_filterMap.mpr ⟨fact, hfact, hkey⟩)
  exact ⟨_, hmem, ⟨rfl, rfl⟩, fun key hkey hon => h.alone key hkey _ hmem hon ⟨rfl, rfl⟩⟩

theorem map_fanOut (live : QueryKey) (behindBy : Option ℕ) (label : String) (last : Option ℕ) :
    (fanOut r live behindBy label last).map (fun t => (t.repoPath, t.roomDir)) =
      (r.facts.filter (·.queryKey = some live)).flatMap fun fact =>
        fact.roomDirs.map fun roomDir => (fact.path, roomDir) := by
  unfold fanOut
  rw [List.map_flatMap]
  simp only [List.map_map, Function.comp_def]

theorem roomsOf_eq {live : QueryKey} (hlive : live.On nwo branch)
    (halone : ∀ key ∈ queryGroups r.facts, key.On nwo branch → key = live) :
    roomsOf nwo branch r = (r.facts.filter (·.queryKey = some live)).flatMap fun fact =>
      fact.roomDirs.map fun roomDir => (fact.path, roomDir) := by
  unfold roomsOf
  refine congrArg (List.flatMap _) (List.filter_congr fun fact hfact => ?_)
  cases hkey : fact.queryKey with
  | none => rfl
  | some key =>
    have hmem : key ∈ queryGroups r.facts :=
      List.mem_dedup.mpr (List.mem_filterMap.mpr ⟨fact, hfact, hkey⟩)
    have hiff : key.On nwo branch ↔ key = live :=
      ⟨halone key hmem, fun he => he ▸ hlive⟩
    simp [hiff]

/-- One round remembers its answer, and notices what is to be noticed. -/
theorem runRound_law {state : SweeperState} {memory : Option StalenessState}
    (h : Tracked nwo branch memory state) (hstays : Stays path nwo branch r) :
    Tracked nwo branch (remembered memory (answerOf nwo branch r)) (runRound state r).1 ∧
      sentTo nwo branch (runRound state r).2 =
        if onDefaultBranch (runRound state r).1.baseBranches nwo branch = false ∧
            Noticed memory (answerOf nwo branch r) then
          roomsOf nwo branch r
        else [] := by
  obtain ⟨live, hlive, hon, halone⟩ := hstays.live
  have hgroups : (queryGroups r.facts).Nodup := List.nodup_dedup _
  have hasked : ∀ outcome ∈ r.outcomes, outcome.1.On nwo branch → outcome.1 = live :=
    fun outcome ho => halone _ (r.asked outcome ho)
  unfold runRound
  dsimp only
  generalize hbase : (r.outcomes.map Prod.fst).foldl (resolveBaseBranch r.labels)
    state.baseBranches = baseBranches
  obtain ⟨hsame, hothers, hdefault, hown⟩ := applyOutcomes_law (r := r) r.distinct hon hasked
    ⟨carryStaleness (queryGroups r.facts) state.keys, baseBranches⟩
  unfold sentTo
  rw [hsame]
  cases hsomewhere : onDefaultBranch baseBranches nwo branch with
  | true =>
    rw [hdefault hsomewhere, if_neg fun hand => Bool.false_ne_true hand.1.symm]
    exact ⟨Or.inl (hsame ▸ hsomewhere), rfl⟩
  | false =>
    have hremembers : Remembers state.keys nwo branch memory := by
      refine h.resolve_left fun htrue => ?_
      have hstill := @onDefaultBranch_foldl r.labels (r.outcomes.map Prod.fst) _ _ _ htrue
      rw [hbase, hsomewhere] at hstill
      exact Bool.false_ne_true hstill
    obtain ⟨hcarried, honly⟩ := hremembers.carry hgroups hlive hon halone
    obtain ⟨hconfirmed, behindBy, label, last, hsent⟩ := hown hsomewhere
    dsimp only at hconfirmed hsent hothers
    rw [hcarried] at hconfirmed hsent
    rw [hsent]
    constructor
    · refine Or.inr (.of_one hon (fun key hkey hkeyOn => ?_) hconfirmed)
      by_contra hne
      have hlookup := hothers key hkeyOn hne
      refine hne (honly key ?_ hkeyOn)
      by_contra hmem
      exact AList.lookup_eq_none.mp (hlookup.trans (AList.lookup_eq_none.mpr hmem)) hkey
    · rw [roomsOf_eq hon halone, ← map_fanOut live behindBy label last]
      by_cases hnoticed : Noticed memory (answerIn nwo branch r.outcomes)
      · rw [if_pos hnoticed]
        exact (if_pos ⟨rfl, hnoticed⟩).symm
      · rw [if_neg hnoticed]
        exact (if_neg fun hand => hnoticed hand.2).symm

/-- What a run of such rounds tracks. -/
theorem runRounds_tracked {rounds : List Round} (hstays : ∀ r ∈ rounds, Stays path nwo branch r)
    {state : SweeperState} {memory : Option StalenessState} (h : Tracked nwo branch memory state) :
    Tracked nwo branch
      (rounds.foldl (fun memory r => remembered memory (answerOf nwo branch r)) memory)
      (runRounds state rounds) := by
  induction rounds generalizing state memory with
  | nil => exact h
  | cons r rounds ih =>
    obtain ⟨hr, hrest⟩ := List.forall_mem_cons.mp hstays
    exact ih hrest (runRound_law h hr).1

end

/-- While a path stays on a branch, each of its rooms is told exactly in the rounds where the branch
has fallen behind, is not the default one and has commits of its own, and the last answer for it
was that it had not. -/
theorem staleness_law {path nwo branch : String} {state : SweeperState}
    (hstart : ∀ key ∈ state.keys, ¬ key.On nwo branch) {before : List Round} {r : Round}
    (hstays : ∀ r' ∈ before ++ [r], Stays path nwo branch r') :
    let (state', sent) := runRound (runRounds state before) r
    sentTo nwo branch sent =
      if onDefaultBranch state'.baseBranches nwo branch = false ∧
          Noticed (memoryOf nwo branch before) (answerOf nwo branch r) then
        roomsOf nwo branch r
      else [] := by
  have hnone : Tracked nwo branch none state := by
    refine Or.inr ⟨fun a _ ha _ hon => absurd hon (hstart a ha), fun key hkey hon => ?_, ?_⟩
    · exact absurd hon (hstart key hkey)
    · exact fun hne => absurd rfl hne
  have hbefore := runRounds_tracked (fun r' hr' => hstays r' (List.mem_append_left _ hr')) hnone
  exact (runRound_law hbefore (hstays r (List.mem_append_right _ List.mem_cons_self))).2

/-! A commit between two answers. -/

def featurePath (headSha : String) : PathFacts where
  path := "/work/app"
  roomDirs := ["room-1-dev"]
  branch := some "feature"
  headSha := some headSha
  nwo := some "acme/app"

def featureRound (headSha : String) (state : StalenessState) : Round where
  facts := [featurePath headSha]
  labels := fun _ => "main"
  outcomes := [(⟨"acme/app", headSha, "feature"⟩, some (.ok ⟨state, some 1, some 2, false⟩))]
  now := 0
  wall := 0
  stalenessDial := 300
  distinct := List.nodup_singleton _
  asked outcome h := by
    rw [List.mem_singleton.mp h]
    exact List.mem_cons_self

theorem featureRound_stays (headSha : String) (state : StalenessState) :
    Stays "/work/app" "acme/app" "feature" (featureRound headSha state) where
  here := ⟨featurePath headSha, List.mem_cons_self, rfl, headSha, rfl⟩
  alone _ ha _ hb _ _ := (List.mem_singleton.mp ha).trans (List.mem_singleton.mp hb).symm

theorem staleness_law_commit :
    sentTo "acme/app" "feature" (runRound (runRounds ⟨∅, ∅⟩ [featureRound "a1" .current])
      (featureRound "b2" .stale)).2 = [("/work/app", "room-1-dev")] := by
  have hlaw : sentTo "acme/app" "feature" (runRound (runRounds ⟨∅, ∅⟩ [featureRound "a1" .current])
      (featureRound "b2" .stale)).2 = _ :=
    @staleness_law "/work/app" _ _ _ (fun _ h => absurd h (AList.notMem_empty _)) _ _ fun r hr => by
      obtain rfl | hr := List.mem_cons.mp hr
      · exact featureRound_stays _ _
      · exact List.mem_singleton.mp hr ▸ featureRound_stays _ _
  exact hlaw.trans (if_pos (by decide))

end AgentsCommander.RemoteWatcher
