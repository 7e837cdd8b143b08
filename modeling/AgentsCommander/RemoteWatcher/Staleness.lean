import AgentsCommander.Foundation.Assoc
import AgentsCommander.RemoteWatcher.CiMerge

/-! Whether a branch has fallen behind: what is remembered for each commit asked about, carried to
the next commit on its branch, and the notices that are sent. What is remembered of a branch is
carried from the commit that was asked about to the next. -/
namespace AgentsCommander.RemoteWatcher
open Foundation

def defaultBranchLabel : String := "the default branch"

/-- In seconds, like all times here. -/
def backoffCap : ℕ := 15 * 60

def secondaryBackoffBase : ℕ := 60

structure QueryKey where
  nwo : String
  sha40 : String
  branch : String
  deriving DecidableEq

inductive StalenessState where
  | unknown
  | current
  | stale
  deriving DecidableEq

structure Comparison where
  state : StalenessState
  behindBy : Option ℕ
  aheadBy : Option ℕ
  identical : Bool

abbrev CompareAnswer := Except FailureKind Comparison

structure StalenessAxis where
  chip : StalenessState := .unknown
  confirmed : Option StalenessState := none
  behindBy : Option ℕ := none
  lastConfirmedAt : Option ℕ := none
  nextDue : Option ℕ := none
  failureInterval : Option ℕ := none

structure StalenessCarry where
  confirmed : StalenessState
  lastConfirmedAt : Option ℕ

abbrev Keys := AList fun _ : QueryKey => StalenessAxis

abbrev Donors := AList fun _ : String × String => QueryKey × StalenessCarry

abbrev BaseBranches := AList fun _ : String => String

structure SweeperState where
  keys : Keys
  baseBranches : BaseBranches

structure PathFacts where
  path : String
  roomDirs : List String
  branch : Option String
  headSha : Option String
  nwo : Option String

structure RemoteTransition where
  repoPath : String
  roomDir : String
  nwo : String
  branch : String
  headSha : String
  behindBy : Option ℕ
  baseBranch : String
  observedAt : ℕ
  lastConfirmedAt : Option ℕ

def failureInterval (kind : FailureKind) (base : ℕ) (current : Option ℕ) : ℕ :=
  match kind with
  | .rateLimited | .notAuthenticated => max backoffCap base
  | .secondaryRateLimited => max (min (current.getD (secondaryBackoffBase / 2) * 2) backoffCap) base
  | .timeout | .incomplete | .other => max (min (current.getD base * 2) backoffCap) base

namespace PathFacts

def queryKey (fact : PathFacts) : Option QueryKey := do
  let nwo ← fact.nwo
  let headSha ← fact.headSha
  let branch ← fact.branch
  some ⟨nwo, headSha, branch⟩

end PathFacts

def queryGroups (facts : List PathFacts) : List QueryKey := (facts.filterMap (·.queryKey)).dedup

/-- The most recently confirmed donor is held; among equals the one of the greater commit. -/
def heldWins (heldKey : QueryKey) (held : StalenessCarry) (key : QueryKey)
    (carry : StalenessCarry) : Bool :=
  if held.lastConfirmedAt = carry.lastConfirmedAt then key.sha40 ≤ heldKey.sha40
  else
    match held.lastConfirmedAt, carry.lastConfirmedAt with
    | some last, some other => other ≤ last
    | some _, none => true
    | none, _ => false

def offer (donors : Donors) (key : QueryKey) (carry : StalenessCarry) : Donors :=
  match donors.lookup (key.nwo, key.branch) with
  | some (heldKey, held) =>
    if heldWins heldKey held key carry then donors
    else donors.insert (key.nwo, key.branch) (key, carry)
  | none => donors.insert (key.nwo, key.branch) (key, carry)

/-- What a retired key has to give. -/
def donate (groups : List QueryKey) (donors : Donors) (key : QueryKey) (entry : StalenessAxis) :
    Donors :=
  if key ∈ groups then donors
  else
    match entry.confirmed with
    | none => donors
    | some confirmed => offer donors key ⟨confirmed, entry.lastConfirmedAt⟩

def donorsOf (groups : List QueryKey) (keys : Keys) : Donors :=
  keys.entries.foldl (fun donors e => donate groups donors e.1 e.2) ∅

def seed (donors : Donors) (keys : Keys) (key : QueryKey) : Keys :=
  match donors.lookup (key.nwo, key.branch) with
  | none => keys
  | some (_, carry) =>
    let entry := (keys.lookup key).getD {}
    if entry.confirmed = none then
      keys.insert key
        { entry with confirmed := some carry.confirmed, lastConfirmedAt := carry.lastConfirmedAt }
    else keys.insert key entry

def carryStaleness (groups : List QueryKey) (keys : Keys) : Keys :=
  groups.foldl (seed (donorsOf groups keys)) (Assoc.keep keys fun key _ => key ∈ groups)

/-- One round: what is read of the paths, and what the forge answers to what is asked. -/
structure Round where
  facts : List PathFacts
  /-- What the default branch of a repository is found to be. -/
  labels : String → String
  outcomes : List (QueryKey × Option CompareAnswer)
  now : ℕ
  wall : ℕ
  stalenessDial : ℕ
  distinct : (outcomes.map Prod.fst).Nodup
  asked : ∀ outcome ∈ outcomes, outcome.1 ∈ queryGroups facts

/-- A label is found once. -/
def resolveBaseBranch (labels : String → String) (baseBranches : BaseBranches) (key : QueryKey) :
    BaseBranches :=
  if (baseBranches.lookup key.nwo).isSome then baseBranches
  else baseBranches.insert key.nwo (labels key.nwo)

def baseLabel (baseBranches : BaseBranches) (nwo : String) : String :=
  (baseBranches.lookup nwo).getD defaultBranchLabel

def onDefaultBranch (baseBranches : BaseBranches) (nwo branch : String) : Bool :=
  let label := baseLabel baseBranches nwo
  label ≠ defaultBranchLabel && branch = label

def fanOut (r : Round) (key : QueryKey) (behindBy : Option ℕ) (baseBranch : String)
    (lastConfirmedAt : Option ℕ) : List RemoteTransition :=
  (r.facts.filter (·.queryKey = some key)).flatMap fun fact =>
    fact.roomDirs.map fun roomDir =>
      { repoPath := fact.path
        roomDir
        nwo := key.nwo
        branch := fact.branch.getD ""
        headSha := key.sha40
        behindBy
        baseBranch
        observedAt := r.wall
        lastConfirmedAt }

def applyStaleness (r : Round) (state : SweeperState) (key : QueryKey)
    (result : Option CompareAnswer) : SweeperState × List RemoteTransition :=
  match result with
  | none => (state, [])
  | some result =>
    let label := baseLabel state.baseBranches key.nwo
    let onDefault := onDefaultBranch state.baseBranches key.nwo key.branch
    let entry := (state.keys.lookup key).getD {}
    match result with
    | .ok answer =>
      let noOwnCommits := !onDefault && answer.aheadBy = some 0
      let recorded := if noOwnCommits then StalenessState.current else answer.state
      let entry' :=
        { entry with
          chip := answer.state
          confirmed := some recorded
          behindBy := answer.behindBy
          lastConfirmedAt := some r.wall
          failureInterval := none
          nextDue := some (r.now + r.stalenessDial) }
      let stale := entry.confirmed = some .current ∧ answer.state = .stale
      ({ state with keys := state.keys.insert key entry' },
        if stale ∧ !onDefault ∧ !noOwnCommits then
          fanOut r key answer.behindBy label entry.lastConfirmedAt
        else [])
    | .error kind =>
      let next := failureInterval kind r.stalenessDial entry.failureInterval
      let entry' :=
        { entry with
          chip := .unknown
          failureInterval := some next
          nextDue := some (r.now + next) }
      ({ state with keys := state.keys.insert key entry' }, [])

/-- The answers applied one after another. -/
def applyOutcomes (r : Round) : List (QueryKey × Option CompareAnswer) → SweeperState →
    SweeperState × List RemoteTransition
  | [], state => (state, [])
  | (key, result) :: outcomes, state =>
    let (state, sent) := applyStaleness r state key result
    let (state, more) := applyOutcomes r outcomes state
    (state, sent ++ more)

def runRound (state : SweeperState) (r : Round) : SweeperState × List RemoteTransition :=
  let keys := carryStaleness (queryGroups r.facts) state.keys
  let baseBranches :=
    (r.outcomes.map Prod.fst).foldl (resolveBaseBranch r.labels) state.baseBranches
  applyOutcomes r r.outcomes { keys, baseBranches }

def runRounds (state : SweeperState) (rounds : List Round) : SweeperState :=
  rounds.foldl (fun state r => (runRound state r).1) state

def QueryKey.On (key : QueryKey) (nwo branch : String) : Prop :=
  key.nwo = nwo ∧ key.branch = branch

instance (key : QueryKey) (nwo branch : String) : Decidable (key.On nwo branch) :=
  inferInstanceAs (Decidable (_ ∧ _))

def confirmedAt (keys : Keys) (key : QueryKey) : Option StalenessState :=
  (keys.lookup key).bind (·.confirmed)

/-- One key of the branch is held at most, and its answer is the one remembered. -/
structure Remembers (keys : Keys) (nwo branch : String) (memory : Option StalenessState) :
    Prop where
  single : ∀ a b, a ∈ keys → b ∈ keys → a.On nwo branch → b.On nwo branch → a = b
  confirmed : ∀ key ∈ keys, key.On nwo branch → confirmedAt keys key = memory
  held : memory ≠ none → ∃ key ∈ keys, key.On nwo branch

section
variable {nwo branch : String} {groups : List QueryKey} {keys : Keys}

theorem lookup_offer {donors : Donors} {key : QueryKey} (carry : StalenessCarry)
    (hkey : ¬ key.On nwo branch) :
    (offer donors key carry).lookup (nwo, branch) = donors.lookup (nwo, branch) := by
  have hne : (nwo, branch) ≠ (key.nwo, key.branch) := by
    intro heq
    obtain ⟨rfl, rfl⟩ := Prod.mk.inj heq
    exact hkey ⟨rfl, rfl⟩
  unfold offer
  cases donors.lookup (key.nwo, key.branch) with
  | none => exact AList.lookup_insert_ne hne
  | some held =>
    dsimp only
    split_ifs
    · rfl
    · exact AList.lookup_insert_ne hne

theorem lookup_donate_other {donors : Donors} {key : QueryKey} {entry : StalenessAxis}
    (h : key.On nwo branch → key ∈ groups ∨ entry.confirmed = none) :
    (donate groups donors key entry).lookup (nwo, branch) = donors.lookup (nwo, branch) := by
  unfold donate
  by_cases hkey : key.On nwo branch
  · obtain hlive | hnone := h hkey
    · rw [if_pos hlive]
    · rw [hnone]
      split_ifs <;> rfl
  · split_ifs with hlive
    · rfl
    · cases entry.confirmed with
      | none => rfl
      | some confirmed => exact lookup_offer _ hkey

theorem lookup_foldl_donate {entries : List (Sigma fun _ : QueryKey => StalenessAxis)}
    (h : ∀ e ∈ entries, e.1.On nwo branch → e.1 ∈ groups ∨ e.2.confirmed = none) (donors : Donors) :
    (entries.foldl (fun donors e => donate groups donors e.1 e.2) donors).lookup (nwo, branch) =
      donors.lookup (nwo, branch) := by
  induction entries generalizing donors with
  | nil => rfl
  | cons e entries ih =>
    rw [List.foldl_cons, ih fun e' he' => h e' (List.mem_cons_of_mem e he'),
      lookup_donate_other (h e List.mem_cons_self)]

/-- The one retired key of the branch gives its answer. -/
theorem lookup_donors {old : QueryKey} {entry : StalenessAxis} {confirmed : StalenessState}
    (hsingle : ∀ key ∈ keys, key.On nwo branch → key = old) (hold : old.On nwo branch)
    (hretired : old ∉ groups) (hentry : keys.lookup old = some entry)
    (hconfirmed : entry.confirmed = some confirmed) :
    (donorsOf groups keys).lookup (nwo, branch) =
      some (old, ⟨confirmed, entry.lastConfirmedAt⟩) := by
  obtain ⟨before, after, hsplit⟩ := List.append_of_mem (AList.mem_lookup_iff.mp hentry)
  have hnodup : (keys.entries.map (·.1)).Nodup := keys.nodupKeys
  rw [hsplit, List.map_append, List.map_cons, List.nodup_middle] at hnodup
  have hother : ∀ e ∈ before ++ after, ¬ e.1.On nwo branch := by
    intro e he hon
    have hmem : e ∈ keys.entries := by
      rw [hsplit]
      exact List.perm_middle.mem_iff.mpr (List.mem_cons_of_mem _ he)
    have hsame := hsingle e.1 (List.mem_map_of_mem hmem) hon
    refine (List.nodup_cons.mp hnodup).1 ?_
    rw [← List.map_append, List.mem_map]
    exact ⟨e, he, hsame⟩
  have hnone := @lookup_foldl_donate nwo branch groups before
    (fun e he hon => absurd hon (hother e (List.mem_append_left _ he))) ∅
  unfold donorsOf
  rw [hsplit, List.foldl_append, List.foldl_cons,
    lookup_foldl_donate fun e he hon => absurd hon (hother e (List.mem_append_right _ he))]
  generalize before.foldl (fun donors e => donate groups donors e.1 e.2) ∅ = donors at hnone ⊢
  obtain ⟨rfl, rfl⟩ := hold
  unfold donate
  rw [if_neg hretired, hconfirmed]
  unfold offer
  dsimp only
  rw [hnone, AList.lookup_empty]
  exact AList.lookup_insert _

theorem lookup_donors_none (h : ∀ key ∈ keys, key.On nwo branch →
    key ∈ groups ∨ confirmedAt keys key = none) :
    (donorsOf groups keys).lookup (nwo, branch) = none := by
  refine lookup_foldl_donate (fun e he hon => ?_) ∅
  have hentry : keys.lookup e.1 = some e.2 := AList.mem_lookup_iff.mpr he
  obtain hlive | hnone := h e.1 (List.mem_map_of_mem he) hon
  · exact Or.inl hlive
  · unfold confirmedAt at hnone
    rw [hentry] at hnone
    exact Or.inr hnone

/-! The carry. -/

def seeded (donors : Donors) (key : QueryKey) (entry : Option StalenessAxis) :
    Option StalenessAxis :=
  match donors.lookup (key.nwo, key.branch) with
  | none => entry
  | some (_, carry) =>
    if (entry.getD {}).confirmed = none then
      some { entry.getD {} with
        confirmed := some carry.confirmed
        lastConfirmedAt := carry.lastConfirmedAt }
    else some (entry.getD {})

theorem lookup_seed (donors : Donors) (keys : Keys) (b key : QueryKey) :
    (seed donors keys b).lookup key =
      if key = b then seeded donors b (keys.lookup key) else keys.lookup key := by
  unfold seed seeded
  cases hdonor : donors.lookup (b.nwo, b.branch) with
  | none => exact (ite_self _).symm
  | some donor =>
    dsimp only
    by_cases hkey : key = b
    · subst hkey
      rw [if_pos rfl]
      split_ifs
      · exact AList.lookup_insert _
      · exact AList.lookup_insert _
    · rw [if_neg hkey]
      split_ifs
      · exact AList.lookup_insert_ne hkey
      · exact AList.lookup_insert_ne hkey

theorem lookup_carry (hgroups : groups.Nodup) (key : QueryKey) :
    (carryStaleness groups keys).lookup key =
      if key ∈ groups then seeded (donorsOf groups keys) key (keys.lookup key) else none := by
  have hfold := @Assoc.foldl_at QueryKey (Option StalenessAxis) _ Keys QueryKey
    (fun keys key => keys.lookup key) (seed (donorsOf groups keys)) id
    (seeded (donorsOf groups keys)) (lookup_seed _) groups (by rwa [List.map_id])
    (Assoc.keep keys fun key _ => key ∈ groups) key
  unfold carryStaleness
  rw [hfold, Assoc.lookup_keep]
  by_cases hkey : key ∈ groups
  · have hsome : (groups.find? fun b => decide (id b = key)).isSome = true :=
      List.find?_isSome.mpr ⟨key, hkey, decide_eq_true rfl⟩
    obtain ⟨b, hb⟩ := Option.isSome_iff_exists.mp hsome
    have hfound := List.find?_some hb
    have hsame : b = key := of_decide_eq_true hfound
    have hkept : (keys.lookup key).filter (fun _ => decide (key ∈ groups)) = keys.lookup key := by
      cases keys.lookup key with
      | none => rfl
      | some entry => exact if_pos (decide_eq_true hkey)
    rw [hb, hsame, if_pos hkey, Option.elim_some, hkept]
  · have hnone : (groups.find? fun b => decide (id b = key)) = none :=
      List.find?_eq_none.mpr fun b hb hsame => hkey (of_decide_eq_true hsame ▸ hb)
    rw [hnone, if_neg hkey, Option.elim_none]
    exact Option.filter_eq_none_iff.mpr fun _ _ => by simpa using hkey

theorem confirmedAt_carry (hgroups : groups.Nodup) {key : QueryKey} (hkey : key ∈ groups) :
    confirmedAt (carryStaleness groups keys) key =
      (confirmedAt keys key).or
        (((donorsOf groups keys).lookup (key.nwo, key.branch)).map (·.2.confirmed)) := by
  unfold confirmedAt
  rw [lookup_carry hgroups, if_pos hkey]
  unfold seeded
  cases (donorsOf groups keys).lookup (key.nwo, key.branch) with
  | none => exact Option.or_none.symm
  | some donor =>
    dsimp only
    cases keys.lookup key with
    | none => rfl
    | some entry =>
      cases hconfirmed : entry.confirmed with
      | none => simp [hconfirmed]
      | some confirmed => simp [hconfirmed]

theorem mem_groups_of_carry (hgroups : groups.Nodup) {key : QueryKey}
    (h : key ∈ carryStaleness groups keys) : key ∈ groups := by
  by_contra hkey
  have hnone := @lookup_carry groups keys hgroups key
  rw [if_neg hkey] at hnone
  exact AList.lookup_eq_none.mp hnone h

/-- The one live key of the branch has the answer remembered. -/
theorem Remembers.carry {memory : Option StalenessState} (h : Remembers keys nwo branch memory)
    (hgroups : groups.Nodup) {live : QueryKey} (hlive : live ∈ groups) (hon : live.On nwo branch)
    (halone : ∀ key ∈ groups, key.On nwo branch → key = live) :
    confirmedAt (carryStaleness groups keys) live = memory ∧
      ∀ key ∈ carryStaleness groups keys, key.On nwo branch → key = live := by
  refine ⟨?_, fun key hkey => halone key (mem_groups_of_carry hgroups hkey)⟩
  rw [confirmedAt_carry hgroups hlive]
  obtain ⟨hnwo, hbranch⟩ := hon
  rw [hnwo, hbranch]
  have habsent : live ∉ keys → confirmedAt keys live = none := by
    intro hmem
    unfold confirmedAt
    rw [AList.lookup_eq_none.mpr hmem]
    rfl
  cases hmemory : memory with
  | none =>
    have hall : ∀ key ∈ keys, key.On nwo branch → confirmedAt keys key = none :=
      fun key hkey hkeyOn => (h.confirmed key hkey hkeyOn).trans hmemory
    rw [lookup_donors_none fun key hkey hkeyOn => Or.inr (hall key hkey hkeyOn)]
    by_cases hmem : live ∈ keys
    · rw [hall live hmem ⟨hnwo, hbranch⟩]
      rfl
    · rw [habsent hmem]
      rfl
  | some confirmed =>
    obtain ⟨old, hold, holdOn⟩ := h.held (hmemory ▸ Option.some_ne_none confirmed)
    have hsome := (h.confirmed old hold holdOn).trans hmemory
    by_cases hsame : old = live
    · rw [← hsame, hsome]
      rfl
    · have hretired : old ∉ groups := fun hmem => hsame (halone old hmem holdOn)
      have hmem : live ∉ keys := fun hmem =>
        hsame (h.single old live hold hmem holdOn ⟨hnwo, hbranch⟩)
      have honly : ∀ key ∈ keys, key.On nwo branch → key = old := fun key hkey hkeyOn =>
        h.single key old hkey hold hkeyOn holdOn
      obtain ⟨entry, hentry, hconfirmed⟩ := Option.bind_eq_some_iff.mp hsome
      rw [habsent hmem, lookup_donors honly holdOn hretired hentry hconfirmed]
      rfl

end
end AgentsCommander.RemoteWatcher
