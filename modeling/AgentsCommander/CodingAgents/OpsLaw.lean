import AgentsCommander.CodingAgents.Ops
import Mathlib.Data.List.InsertIdx
import Mathlib.Data.List.Nodup
import Mathlib.Data.List.Perm.Basic

/-! What the operations do to the order of the registered agents. -/
namespace AgentsCommander.CodingAgents
open Foundation
open Transcript (eqIgnoreAsciiCase)

section
variable {α β : Type}

theorem map_swap (f : α → β) (l : List α) (i j : ℕ) : (swap l i j).map f = swap (l.map f) i j := by
  unfold swap
  rw [List.getElem?_map, List.getElem?_map]
  cases l[i]? with
  | none => rfl
  | some a =>
    cases l[j]? with
    | none => rfl
    | some b => rw [List.map_set, List.map_set]; rfl

theorem length_swap (l : List α) (i j : ℕ) : (swap l i j).length = l.length := by
  unfold swap
  split
  · rw [List.length_set, List.length_set]
  · rfl

theorem getElem?_swap {l : List α} {i j : ℕ} (hi : i < l.length) (hj : j < l.length) (k : ℕ) :
    (swap l i j)[k]? = if k = j then l[i]? else if k = i then l[j]? else l[k]? := by
  unfold swap
  rw [List.getElem?_eq_getElem hi, List.getElem?_eq_getElem hj]
  dsimp only
  rw [List.getElem?_set, List.length_set, List.getElem?_set]
  by_cases hkj : k = j
  · rw [if_pos hkj.symm, if_pos hj, if_pos hkj]
  · rw [if_neg (Ne.symm hkj), if_neg hkj]
    by_cases hki : k = i
    · rw [if_pos hki.symm, if_pos hi, if_pos hki]
    · rw [if_neg (Ne.symm hki), if_neg hki]

theorem perm_swap (l : List α) (i j : ℕ) : (swap l i j).Perm l := by
  unfold swap
  cases hi : l[i]? with
  | none => exact List.Perm.refl l
  | some a =>
    cases hj : l[j]? with
    | none => exact List.Perm.refl l
    | some b =>
      obtain ⟨hilt, rfl⟩ := List.getElem?_eq_some_iff.mp hi
      obtain ⟨hjlt, rfl⟩ := List.getElem?_eq_some_iff.mp hj
      exact List.set_set_perm hilt hjlt

/-- The opposite swap restores the list. -/
theorem swap_swap {l : List α} {i j : ℕ} (hi : i < l.length) (hj : j < l.length) :
    swap (swap l i j) j i = l := by
  refine List.ext_getElem? fun k => ?_
  rw [getElem?_swap (by rwa [length_swap]) (by rwa [length_swap]), getElem?_swap hi hj,
    getElem?_swap hi hj, getElem?_swap hi hj, if_pos rfl]
  by_cases hki : k = i
  · rw [if_pos hki, hki]
  · rw [if_neg hki, if_neg hki]
    by_cases hkj : k = j
    · rw [if_pos hkj, hkj]
      by_cases hij : i = j
      · rw [if_pos hij, hij]
      · rw [if_neg hij, if_pos rfl]
    · rw [if_neg hkj, if_neg hkj]

end

section
variable {ρ : Type} {agents : List (AgentConfig ρ)} {id : String}

theorem uniqueIndexFrom_some {index found : ℕ} {r : Option ℕ}
    (h : uniqueIndexFrom id agents index (some found) = .ok r) : r = some found := by
  induction agents generalizing index with
  | nil => exact (Except.ok.inj h).symm
  | cons agent rest ih =>
    unfold uniqueIndexFrom at h
    split_ifs at h with hid hfound
    · exact absurd rfl hfound
    · exact ih h

theorem uniqueIndexFrom_sound {index i : ℕ}
    (h : uniqueIndexFrom id agents index none = .ok (some i)) :
    ∃ k, i = index + k ∧ (ids agents)[k]? = some id := by
  induction agents generalizing index with
  | nil => cases h
  | cons agent rest ih =>
    unfold uniqueIndexFrom at h
    split_ifs at h with hid hfound
    · obtain rfl := Option.some.inj (uniqueIndexFrom_some h)
      exact ⟨0, rfl, congrArg some hid⟩
    · obtain ⟨k, rfl, hk⟩ := ih h
      exact ⟨k + 1, by omega, hk⟩

theorem uniqueIndexFrom_of_not_mem {found : Option ℕ} {index : ℕ} (h : id ∉ ids agents) :
    uniqueIndexFrom id agents index found = .ok found := by
  induction agents generalizing index with
  | nil => rfl
  | cons agent rest ih =>
    obtain ⟨hne, hrest⟩ := not_or.mp (List.mem_cons.not.mp h)
    rw [uniqueIndexFrom, if_neg (Ne.symm hne)]
    exact ih hrest

theorem uniqueIndexFrom_complete (hnodup : (ids agents).Nodup) {index k : ℕ}
    (h : (ids agents)[k]? = some id) :
    uniqueIndexFrom id agents index none = .ok (some (index + k)) := by
  induction agents generalizing index k with
  | nil => cases h
  | cons agent rest ih =>
    obtain ⟨hne, hrest⟩ := List.nodup_cons.mp hnodup
    rw [uniqueIndexFrom]
    cases k with
    | zero =>
      obtain rfl : agent.id = id := Option.some.inj h
      rw [if_pos rfl, if_neg nofun]
      exact uniqueIndexFrom_of_not_mem hne
    | succ k =>
      have hk : (ids rest)[k]? = some id := h
      have hother : agent.id ≠ id := by
        rintro rfl
        exact hne (List.mem_of_getElem? hk)
      rw [if_neg hother, ih hrest hk]
      congr 2
      omega

theorem uniqueAgentIndex_eq_ok (hnodup : (ids agents).Nodup) {i : ℕ} :
    uniqueAgentIndex agents id = .ok i ↔ (ids agents)[i]? = some id := by
  unfold uniqueAgentIndex
  rw [bind_eq_ok]
  constructor
  · rintro ⟨found, hfound, hrequire⟩
    rw [require_eq_ok] at hrequire
    subst hrequire
    obtain ⟨k, rfl, hk⟩ := uniqueIndexFrom_sound hfound
    rwa [Nat.zero_add]
  · intro h
    refine ⟨some i, ?_, rfl⟩
    rw [uniqueIndexFrom_complete hnodup h, Nat.zero_add]

end

/-- The order is the vector order, and no two agents have the same id. -/
structure Ordered {ρ : Type} (agents : List (AgentConfig ρ)) : Prop where
  aligned : Aligned agents
  nodup : (ids agents).Nodup

section
variable {ρ : Type} {agents : List (AgentConfig ρ)} {id : String}

theorem Aligned.length_le (h : Aligned agents) : agents.length ≤ 2 ^ 32 := by
  by_contra hlt
  have hi : 2 ^ 32 < agents.length := not_le.mp hlt
  have horder := h.order (List.getElem?_eq_getElem hi)
  obtain ⟨ordinal, -, hordinal⟩ := Option.map_eq_some_iff.mp horder
  have hbound := ordinal.toNat_lt
  omega

/-- A change of the order of the records, renumbered. -/
theorem Ordered.normalize (h : Ordered agents) {agents' : List (AgentConfig ρ)}
    (hperm : (agents'.map AgentConfig.record).Perm (agents.map AgentConfig.record)) :
    Ordered (normalizeAgentOrder agents') := by
  have hlength : agents'.length = agents.length := by simpa using hperm.length_eq
  refine ⟨aligned_normalizeAgentOrder (hlength ▸ h.aligned.length_le), ?_⟩
  rw [ids_normalizeAgentOrder]
  have hids : (ids agents').Perm (ids agents) := by
    have hmap := hperm.map (·.id)
    rw [List.map_map, List.map_map] at hmap
    exact hmap
  exact hids.nodup_iff.mpr h.nodup

/-- Records that are in order again are what they were. -/
theorem Ordered.restored (h : Ordered agents) {agents' : List (AgentConfig ρ)}
    (hrecords : agents'.map AgentConfig.record = agents.map AgentConfig.record) :
    normalizeAgentOrder agents' = agents := by
  rw [normalizeAgentOrder_congr hrecords, h.aligned.normalize]

theorem movedAgents_eq_ok (h : Ordered agents) {neighborId : String}
    {direction : AgentMoveDirection} {moved : List (AgentConfig ρ)} :
    movedAgents agents id neighborId direction = .ok moved ↔
      ∃ i j, (ids agents)[i]? = some id ∧ (ids agents)[j]? = some neighborId ∧
        moveTarget agents.length i direction = some j ∧
        moved = normalizeAgentOrder (swap agents i j) := by
  unfold movedAgents
  dsimp only
  rw [h.aligned.finalize]
  simp only [bind_eq_ok, uniqueAgentIndex_eq_ok h.nodup]
  constructor
  · rintro ⟨i, hi, j, hj, hmoved⟩
    split_ifs at hmoved with htarget
    exact ⟨i, j, hi, hj, htarget, (Except.ok.inj hmoved).symm⟩
  · rintro ⟨i, j, hi, hj, htarget, rfl⟩
    refine ⟨i, hi, j, hj, ?_⟩
    rw [if_pos htarget]
    rfl

theorem getElem?_ids {i : ℕ} (h : (ids agents)[i]? = some id) :
    ∃ agent, agents[i]? = some agent ∧ agent.id = id :=
  Option.map_eq_some_iff.mp ((List.getElem?_map).symm.trans h)

theorem lt_of_getElem?_ids {i : ℕ} (h : (ids agents)[i]? = some id) : i < agents.length := by
  obtain ⟨agent, hagent, -⟩ := getElem?_ids h
  exact (List.getElem?_eq_some_iff.mp hagent).1

theorem ids_swap (i j : ℕ) :
    ids (normalizeAgentOrder (swap agents i j)) = swap (ids agents) i j := by
  rw [ids_normalizeAgentOrder, ids, map_swap]
  rfl

def AgentMoveDirection.opposite : AgentMoveDirection → AgentMoveDirection
  | .up => .down
  | .down => .up

theorem moveTarget_opposite {length i j : ℕ} {direction : AgentMoveDirection} (hi : i < length)
    (h : moveTarget length i direction = some j) :
    moveTarget length j direction.opposite = some i := by
  cases direction with
  | up =>
    simp only [moveTarget] at h
    split_ifs at h with hzero
    obtain rfl := Option.some.inj h
    simp only [AgentMoveDirection.opposite, moveTarget]
    rw [if_pos (by omega)]
    exact congrArg some (by omega)
  | down =>
    simp only [moveTarget] at h
    split_ifs at h with hlt
    obtain rfl := Option.some.inj h
    simp only [AgentMoveDirection.opposite, moveTarget]
    rw [if_neg (Nat.succ_ne_zero i)]
    rfl

theorem Ordered.moved (h : Ordered agents) {neighborId : String} {direction : AgentMoveDirection}
    {moved : List (AgentConfig ρ)}
    (hmoved : movedAgents agents id neighborId direction = .ok moved) : Ordered moved := by
  obtain ⟨i, j, -, -, -, rfl⟩ := (movedAgents_eq_ok h).mp hmoved
  refine h.normalize ?_
  rw [map_swap]
  exact perm_swap _ i j

/-- A move is undone by the opposite move of the same pair. -/
theorem movedAgents_opposite (h : Ordered agents) {neighborId : String}
    {direction : AgentMoveDirection} {moved : List (AgentConfig ρ)}
    (hmoved : movedAgents agents id neighborId direction = .ok moved) :
    movedAgents moved id neighborId direction.opposite = .ok agents := by
  have hordered := h.moved hmoved
  obtain ⟨i, j, hi, hj, htarget, rfl⟩ := (movedAgents_eq_ok h).mp hmoved
  have hilt := lt_of_getElem?_ids hi
  have hjlt := lt_of_getElem?_ids hj
  have hlt : i < (ids agents).length ∧ j < (ids agents).length := by
    simpa [ids] using And.intro hilt hjlt
  refine (movedAgents_eq_ok hordered).mpr ⟨j, i, ?_, ?_, ?_, (h.restored ?_).symm⟩
  · rw [ids_swap, getElem?_swap hlt.1 hlt.2, if_pos rfl, hi]
  · rw [ids_swap, getElem?_swap hlt.1 hlt.2, if_pos rfl, hj]
    split_ifs with hij
    · rw [hij, hj]
    · rfl
  · rw [length_normalizeAgentOrder, length_swap]
    exact moveTarget_opposite hilt htarget
  · rw [map_swap, records_normalizeAgentOrder, map_swap]
    exact swap_swap (by rwa [List.length_map]) (by rwa [List.length_map])

theorem reorderedAgents_eq_ok (h : Ordered agents) {expectedIds : List String} {targetIndex : ℕ}
    {reordered : List (AgentConfig ρ)} :
    reorderedAgents agents id expectedIds targetIndex = .ok reordered ↔
      ids agents = expectedIds ∧ targetIndex < agents.length ∧
        ∃ i agent, agents[i]? = some agent ∧ agent.id = id ∧ targetIndex ≠ i ∧
          reordered = normalizeAgentOrder ((agents.eraseIdx i).insertIdx targetIndex agent) := by
  unfold reorderedAgents
  dsimp only
  rw [h.aligned.finalize]
  simp only [bind_eq_ok, uniqueAgentIndex_eq_ok h.nodup, ensure_eq_ok, require_eq_ok,
    decide_eq_true_eq]
  constructor
  · rintro ⟨_, hids, i, hi, _, hlt, _, hne, agent, hagent, hreordered⟩
    obtain ⟨agent', hagent', hid⟩ := getElem?_ids hi
    obtain rfl := Option.some.inj (hagent.symm.trans hagent')
    exact ⟨hids, hlt, i, agent, hagent, hid, hne, (Except.ok.inj hreordered).symm⟩
  · rintro ⟨hids, hlt, i, agent, hagent, hid, hne, rfl⟩
    have hi : (ids agents)[i]? = some id := by
      rw [ids, List.getElem?_map, hagent]
      exact congrArg some hid
    exact ⟨(), hids, i, hi, (), hlt, (), hne, agent, hagent, rfl⟩

theorem Ordered.reordered (h : Ordered agents) {expectedIds : List String} {targetIndex : ℕ}
    {reordered : List (AgentConfig ρ)}
    (hreordered : reorderedAgents agents id expectedIds targetIndex = .ok reordered) :
    Ordered reordered := by
  obtain ⟨-, htarget, i, agent, hagent, -, -, rfl⟩ := (reorderedAgents_eq_ok h).mp hreordered
  obtain ⟨hi, rfl⟩ := List.getElem?_eq_some_iff.mp hagent
  refine h.normalize (List.Perm.map _ ?_)
  refine (List.perm_insertIdx _ _ ?_).trans (List.getElem_cons_eraseIdx_perm hi)
  rw [List.length_eraseIdx_of_lt hi]
  omega

/-- A reorder is undone by the reorder back, from what was read after it. -/
theorem reorderedAgents_back (h : Ordered agents) {expectedIds : List String} {targetIndex i : ℕ}
    {reordered : List (AgentConfig ρ)} (hi : (ids agents)[i]? = some id)
    (hreordered : reorderedAgents agents id expectedIds targetIndex = .ok reordered) :
    reorderedAgents reordered id (ids reordered) i = .ok agents := by
  have hordered := h.reordered hreordered
  obtain ⟨-, htarget, k, agent, hagent, hid, hne, rfl⟩ := (reorderedAgents_eq_ok h).mp hreordered
  obtain ⟨hk, rfl⟩ := List.getElem?_eq_some_iff.mp hagent
  obtain rfl : i = k := by
    have hkid : (ids agents)[k]? = some id := by
      rw [ids, List.getElem?_map, hagent]
      exact congrArg some hid
    exact (List.getElem?_inj (by simpa [ids] using lt_of_getElem?_ids hi) h.nodup).mp
      (hi.trans hkid.symm)
  have hlength : targetIndex ≤ (agents.eraseIdx i).length := by
    rw [List.length_eraseIdx_of_lt hk]
    omega
  refine (reorderedAgents_eq_ok hordered).mpr ⟨rfl, ?_, targetIndex,
    agents[i].withOrder (some (UInt32.ofNat targetIndex)), ?_, hid, hne.symm, (h.restored ?_).symm⟩
  · rw [length_normalizeAgentOrder, List.length_insertIdx_of_le_length hlength,
      List.length_eraseIdx_of_lt hk]
    omega
  · rw [getElem?_normalizeAgentOrder, List.getElem?_insertIdx_self, if_pos hlength]
    rfl
  · rw [List.map_insertIdx, ← List.eraseIdx_map, records_normalizeAgentOrder, List.map_insertIdx,
      List.eraseIdx_insertIdx_self, record_withOrder, ← List.map_insertIdx,
      List.insertIdx_eraseIdx_getElem hk]

end

section
variable {ρ : Type} {agents edited : List (AgentConfig ρ)} {outcome : CodingAgentOpOutcome ρ}

theorem exceptMap_eq_ok {ε α β : Type} {f : α → β} {x : Except ε α} {b : β}
    (h : x.map f = .ok b) : ∃ a, x = .ok a ∧ f a = b := by
  cases x with
  | error e => cases h
  | ok a => exact ⟨a, rfl, Except.ok.inj h⟩

theorem id_ensureBackendConsistent {agent agent' : AgentConfig ρ}
    (h : ensureBackendConsistent agent = .ok agent') : agent'.id = agent.id := by
  obtain ⟨image, -, rfl⟩ := exceptMap_eq_ok h
  rfl

theorem id_patchLabel {agent agent' : AgentConfig ρ} {patch : AgentPatch}
    (h : patchLabel agent patch = .ok agent') : agent'.id = agent.id := by
  unfold patchLabel at h
  cases hlabel : patch.label with
  | none =>
    rw [hlabel] at h
    cases h
    rfl
  | some label =>
    simp only [hlabel] at h
    split_ifs at h
    cases h
    rfl

theorem id_patchSeed {agent agent' : AgentConfig ρ} {patch : AgentPatch}
    (h : patchSeed agent patch = .ok agent') : agent'.id = agent.id := by
  unfold patchSeed at h
  split_ifs at h
  · cases h
    rfl
  · obtain ⟨_, -, rfl⟩ := exceptMap_eq_ok h
    rfl
  · cases h
    rfl

theorem id_patchImage {agent agent' : AgentConfig ρ} {patch : AgentPatch}
    (h : patchImage agent patch = .ok agent') : agent'.id = agent.id := by
  unfold patchImage at h
  split_ifs at h
  · cases h
    rfl
  · cases himage : patch.containerImage with
    | none =>
      rw [himage] at h
      cases h
      rfl
    | some image =>
      simp only [himage] at h
      obtain ⟨_, -, rfl⟩ := exceptMap_eq_ok h
      rfl

theorem id_applyPatch {agent agent' : AgentConfig ρ} {patch : AgentPatch}
    (h : applyPatch agent patch = .ok agent') : agent'.id = agent.id := by
  simp only [applyPatch, bind_eq_ok] at h
  obtain ⟨labelled, hlabel, seeded, hseed, imaged, himage, hbackend⟩ := h
  rw [id_ensureBackendConsistent hbackend, id_patchImage himage]
  have hseeded := id_patchSeed hseed
  have hlabelled := id_patchLabel hlabel
  exact hseeded.trans hlabelled

/-- The first agent with an id, as the list of ids has it. -/
theorem findIdx?_id {id : String} {index : ℕ} (h : agents.findIdx? (·.id = id) = some index) :
    (ids agents)[index]? = some id ∧ (ids agents).erase id = (ids agents).eraseIdx index := by
  have hindex : (ids agents).idxOf? id = some index := by
    rw [ids, List.idxOf?, List.findIdx?_map]
    exact h
  obtain ⟨hlt, hid, -⟩ := List.idxOf?_eq_some_iff.mp hindex
  refine ⟨List.getElem?_eq_some_iff.mpr ⟨hlt, hid⟩, ?_⟩
  rw [List.erase_eq_eraseIdx, hindex]

/-- What an edit does to the ids. -/
theorem editAgents_ids {op : CodingAgentOp ρ} (h : editAgents agents op = .ok (edited, outcome)) :
    match op with
    | .add agent => ids edited = ids agents ++ [agent.id] ∧ agent.id ∉ ids agents
    | .update _ _ => ids edited = ids agents
    | .remove id => ids edited = (ids agents).erase id := by
  cases op with
  | add agent =>
    simp only [editAgents, bind_eq_ok, ensure_eq_ok] at h
    obtain ⟨-, -, -, hfree, -, -, -, -, added, hadded, h⟩ := h
    cases h
    refine ⟨?_, fun hmem => ?_⟩
    · have hid := id_ensureBackendConsistent hadded
      rw [ids, List.map_append, List.map_singleton, AgentConfig.withOrder, hid]
      rfl
    · obtain ⟨other, hother, hid⟩ := List.mem_map.mp hmem
      rw [Bool.not_eq_true', List.any_eq_false] at hfree
      refine hfree other hother ?_
      rw [hid, eqIgnoreAsciiCase]
      exact decide_eq_true rfl
  | update id patch =>
    simp only [editAgents, bind_eq_ok, require_eq_ok] at h
    obtain ⟨index, hindex, agent, hagent, updated, hupdated, h⟩ := h
    cases h
    obtain ⟨hlt, hget⟩ := List.getElem?_eq_some_iff.mp (findIdx?_id hindex).1
    have hid : agent.id = (ids agents)[index] := by
      have hids : (ids agents)[index]? = some agent.id := by
        rw [ids, List.getElem?_map, hagent]
        rfl
      exact (List.getElem?_eq_some_iff.mp hids).2.symm
    have hkept := id_applyPatch hupdated
    rw [ids, List.map_set]
    show (ids agents).set index updated.id = ids agents
    rw [hkept, hid, List.set_getElem_self]
  | remove id =>
    simp only [editAgents, bind_eq_ok, require_eq_ok] at h
    obtain ⟨index, hindex, h⟩ := h
    cases h
    show ids (agents.eraseIdx index) = _
    rw [(findIdx?_id hindex).2, ids, ids, List.eraseIdx_map]

end

/-- A repair leaves every agent its place, as far as it succeeds. -/
def KeepsPlaces {ρ σ : Type} (repair : AppSettings ρ σ → AppSettings ρ σ × Except String Unit) :
    Prop :=
  ∀ settings, (repair settings).2 = .ok () →
    (repair settings).1.agents.map (fun agent => (agent.id, agent.order)) =
      settings.agents.map fun agent => (agent.id, agent.order)

/-- What an operation that succeeds does to the order. -/
def OrderKept {ρ σ : Type} (repair : AppSettings ρ σ → AppSettings ρ σ × Except String Unit)
    (settings settings' : AppSettings ρ σ) : ToolEvent ρ → Prop
  | .op (.add agent) => ids settings'.agents = ids settings.agents ++ [agent.id]
  | .op (.update _ _) => ids settings'.agents = ids settings.agents
  | .op (.remove id) => ids settings'.agents = (ids settings.agents).erase id
  | .move id neighborId direction =>
    (tools repair).step settings' (.move id neighborId direction.opposite) =
      (settings, .ok (.ordered (ids settings.agents)))
  | .reorder id _ _ => ∀ i : ℕ, (ids settings.agents)[i]? = some id →
    (tools repair).step settings' (.reorder id (ids settings'.agents) i) =
      (settings, .ok (.ordered (ids settings.agents)))

section
variable {ρ σ : Type} {repair : AppSettings ρ σ → AppSettings ρ σ × Except String Unit}
  {settings settings' : AppSettings ρ σ}

theorem aligned_of_places {agents agents' : List (AgentConfig ρ)}
    (h : agents'.map (fun agent => (agent.id, agent.order)) =
      agents.map fun agent => (agent.id, agent.order)) :
    ids agents' = ids agents ∧ (Aligned agents → Aligned agents') := by
  have hids := congrArg (List.map Prod.fst) h
  have horders := congrArg (List.map fun place : String × Option UInt32 =>
    place.2.map UInt32.toNat) h
  have hlength := congrArg List.length h
  rw [List.map_map, List.map_map] at hids horders
  rw [List.length_map, List.length_map] at hlength
  refine ⟨hids, fun haligned => ?_⟩
  unfold Aligned at haligned ⊢
  rw [hlength, ← haligned]
  exact horders

/-- An operation that succeeds: an edit, renumbered and repaired. -/
theorem applyCodingAgentOp_eq_ok {op : CodingAgentOp ρ} {outcome : CodingAgentOpOutcome ρ}
    (h : applyCodingAgentOp repair settings op = (settings', .ok outcome)) :
    ∃ edited edit, editAgents settings.agents op = .ok (edited, edit) ∧
      repair { settings with agents := normalizeAgentOrder edited } = (settings', .ok ()) := by
  unfold applyCodingAgentOp at h
  cases hedit : editAgents settings.agents op with
  | error e =>
    rw [hedit] at h
    cases h
  | ok edit =>
    refine ⟨edit.1, edit.2, rfl, ?_⟩
    simp only [hedit] at h
    generalize repair { settings with agents := normalizeAgentOrder edit.1 } = repaired at h ⊢
    obtain ⟨written, result⟩ := repaired
    obtain ⟨rfl, hresult⟩ := Prod.mk.inj h
    cases result with
    | error e => cases hresult
    | ok _ => rfl

theorem transition_eq_ok {agents : Except String (List (AgentConfig ρ))} {order : List String}
    (h : transition settings agents = (settings', .ok order)) :
    agents = .ok settings'.agents ∧ settings' = { settings with agents := settings'.agents } := by
  cases agents with
  | error e => cases h
  | ok agents =>
    cases h
    exact ⟨rfl, rfl⟩

theorem answered_ok {α β ω : Type} {f : β → ω} {x : α × Except String β} {a : α} {r : ω}
    (h : x.map id (Except.map f) = (a, .ok r)) : ∃ b, x = (a, .ok b) ∧ f b = r := by
  obtain ⟨first, second⟩ := x
  obtain ⟨rfl, hsecond⟩ := Prod.mk.inj h
  obtain ⟨b, rfl, hb⟩ := exceptMap_eq_ok hsecond
  exact ⟨b, rfl, hb⟩

theorem ordered_op (hrepair : KeepsPlaces repair) (h : Ordered settings.agents)
    {op : CodingAgentOp ρ} {outcome : CodingAgentOpOutcome ρ}
    (happly : applyCodingAgentOp repair settings op = (settings', .ok outcome))
    (hlength : settings'.agents.length ≤ 2 ^ 32) :
    Ordered settings'.agents ∧ OrderKept repair settings settings' (.op op) := by
  obtain ⟨edited, edit, hedit, hrepaired⟩ := applyCodingAgentOp_eq_ok happly
  have hplaces := hrepair { settings with agents := normalizeAgentOrder edited } (by rw [hrepaired])
  rw [hrepaired] at hplaces
  obtain ⟨hids, haligned⟩ := aligned_of_places hplaces
  rw [ids_normalizeAgentOrder] at hids
  have hsame : edited.length = settings'.agents.length := by
    simpa [ids] using (congrArg List.length hids).symm
  have hnumbered := haligned (aligned_normalizeAgentOrder (hsame ▸ hlength))
  have heffect := editAgents_ids hedit
  cases op with
  | add agent =>
    rw [heffect.1] at hids
    refine ⟨⟨hnumbered, ?_⟩, hids⟩
    rw [hids]
    exact h.nodup.append (List.nodup_singleton _) (List.disjoint_singleton.mpr heffect.2)
  | update id patch =>
    rw [heffect] at hids
    exact ⟨⟨hnumbered, hids ▸ h.nodup⟩, hids⟩
  | remove id =>
    rw [heffect] at hids
    exact ⟨⟨hnumbered, hids ▸ h.nodup.erase id⟩, hids⟩

/-- A step that succeeds keeps the agents in order, and does with it what it should. -/
theorem ordered_step (hrepair : KeepsPlaces repair) (h : Ordered settings.agents)
    {e : ToolEvent ρ} {reply : ToolReply ρ}
    (hstep : (tools repair).step settings e = (settings', .ok reply))
    (hlength : settings'.agents.length ≤ 2 ^ 32) :
    Ordered settings'.agents ∧ OrderKept repair settings settings' e := by
  cases e with
  | op op =>
    obtain ⟨outcome, happly, -⟩ := answered_ok hstep
    exact ordered_op hrepair h happly hlength
  | move id neighborId direction =>
    obtain ⟨order, hmove, -⟩ := answered_ok hstep
    obtain ⟨hmoved, hsettings⟩ := transition_eq_ok hmove
    refine ⟨h.moved hmoved, ?_⟩
    have hback := movedAgents_opposite h hmoved
    simp only [OrderKept, tools, moveRegisteredAgent, hback, transition]
    rw [hsettings]
    rfl
  | reorder id expectedIds targetIndex =>
    obtain ⟨order, hreorder, -⟩ := answered_ok hstep
    obtain ⟨hreordered, hsettings⟩ := transition_eq_ok hreorder
    refine ⟨h.reordered hreordered, fun i hi => ?_⟩
    have hback := reorderedAgents_back h hi hreordered
    simp only [tools, reorderRegisteredAgent, hback, transition]
    rw [hsettings]
    rfl

/-- A rejected move or reorder. -/
theorem rejected_step {e : ToolEvent ρ} (he : ∀ op, e ≠ .op op) {error : String}
    (h : (tools repair).answer settings e = .error error) :
    (tools repair).next settings e = settings := by
  have htransition : ∀ agents : Except String (List (AgentConfig ρ)),
      (transition settings agents).2.map (@ToolReply.ordered ρ) = .error error →
        (transition settings agents).1 = settings := by
    intro agents hagents
    cases agents with
    | error e => rfl
    | ok agents => cases hagents
  cases e with
  | op op => exact absurd rfl (he op)
  | move id neighborId direction => exact htransition _ h
  | reorder id expectedIds targetIndex => exact htransition _ h

end

/-- By the effective ordinals, and by the positions where these are equal. -/
def Precedes {ρ : Type} (p q : AgentConfig ρ × ℕ) : Prop :=
  effectiveOrdinal p.1 p.2 < effectiveOrdinal q.1 q.2 ∨
    effectiveOrdinal p.1 p.2 = effectiveOrdinal q.1 q.2 ∧ p.2 < q.2

theorem precedes_of_rank {ρ : Type} {p q : AgentConfig ρ × ℕ}
    (h : Ranking.rank effectiveOrdinal p < Ranking.rank effectiveOrdinal q) : Precedes p q :=
  Prod.Lex.toLex_lt_toLex.mp h

/-- The step succeeds, with no more agents after it than there are ordinals. -/
def Succeeds {ρ σ : Type} (repair : AppSettings ρ σ → AppSettings ρ σ × Except String Unit)
    (settings : AppSettings ρ σ) (e : ToolEvent ρ) : Prop :=
  ((tools repair).answer settings e).isOk = true ∧
    ((tools repair).next settings e).agents.length ≤ 2 ^ 32

theorem step_of_succeeds {ρ σ : Type}
    {repair : AppSettings ρ σ → AppSettings ρ σ × Except String Unit}
    {settings : AppSettings ρ σ} {e : ToolEvent ρ} (h : Succeeds repair settings e) :
    ∃ reply, (tools repair).step settings e = ((tools repair).next settings e, .ok reply) := by
  obtain ⟨hok, -⟩ := h
  cases hanswer : (tools repair).answer settings e with
  | error error =>
    rw [hanswer] at hok
    cases hok
  | ok reply => exact ⟨reply, Prod.ext rfl hanswer⟩

section
variable {ρ : Type} {n : ℕ} {agents : List (AgentConfig ρ)}

/-- Where none has an ordinal they stay in place. -/
theorem finalize_of_unordered (h : ∀ agent ∈ agents, agent.order = none) :
    finalizeAgentOrder agents = normalizeAgentOrder agents := by
  have hranked : Ranking.ranked effectiveOrdinal agents = agents.zipIdx := by
    refine Ranking.ranked_eq_of_key fun p hp => ?_
    rw [effectiveOrdinal, h p.1 (List.fst_mem_of_mem_zipIdx hp)]
    rfl
  rw [finalizeAgentOrder_eq, hranked, List.zipIdx_map_fst]

/-- The records of a list whose last element is another. -/
theorem record_crowded {a b : AgentConfig ρ} {i : ℕ} {agent : AgentConfig ρ}
    (h : (normalizeAgentOrder (List.replicate n a ++ [b]))[i]? = some agent) :
    if i < n then agent.record = a.record
    else i = n ∧ agent.record = b.record ∧ agent.order = some (UInt32.ofNat i) := by
  rw [getElem?_normalizeAgentOrder] at h
  obtain ⟨source, hsource, rfl⟩ := Option.map_eq_some_iff.mp h
  by_cases hi : i < n
  · rw [if_pos hi]
    rw [List.getElem?_append_left (by rwa [List.length_replicate]),
      List.getElem?_replicate_of_lt hi] at hsource
    cases hsource
    rfl
  · rw [if_neg hi]
    rw [List.getElem?_append_right (by rw [List.length_replicate]; exact not_lt.mp hi),
      List.length_replicate] at hsource
    obtain ⟨hlt, hget⟩ := List.getElem?_eq_some_iff.mp hsource
    have hin : i = n := by
      rw [List.length_singleton] at hlt
      omega
    subst hin
    rw [List.getElem_singleton] at hget
    rw [← hget]
    exact ⟨rfl, rfl, rfl⟩

/-- With one agent more than there are ordinals the last gets the first ordinal again, and is moved
when the order is finalized again. -/
theorem finalize_crowded {a b : AgentConfig ρ} (hn : n = 2 ^ 32) (ha : a.order = none)
    (hb : b.order = none) (hab : a.record ≠ b.record) :
    finalizeAgentOrder (finalizeAgentOrder (List.replicate n a ++ [b])) ≠
      finalizeAgentOrder (List.replicate n a ++ [b]) := by
  have hunordered : ∀ agent ∈ List.replicate n a ++ [b], agent.order = none := by
    intro agent hagent
    rcases List.mem_append.mp hagent with hagent | hagent
    · rw [(List.mem_replicate.mp hagent).2, ha]
    · rw [List.mem_singleton.mp hagent, hb]
  rw [finalize_of_unordered hunordered, finalizeAgentOrder_eq]
  have hcrowded := @record_crowded ρ n a b
  have hcount : (normalizeAgentOrder (List.replicate n a ++ [b])).length = n + 1 := by
    rw [length_normalizeAgentOrder, List.length_append, List.length_replicate,
      List.length_singleton]
  have hmember : (normalizeAgentOrder (List.replicate n a ++ [b]))[n - 1]?.map (·.order) =
      some (some (UInt32.ofNat (n - 1))) := by
    rw [getElem?_normalizeAgentOrder, Option.map_map,
      List.getElem?_eq_getElem (by rw [List.length_append, List.length_replicate]; omega)]
    rfl
  generalize normalizeAgentOrder (List.replicate n a ++ [b]) = crowd at hcrowded hcount hmember ⊢
  intro hsame
  have hlength : (Ranking.ranked effectiveOrdinal crowd).length = n + 1 := by
    rw [(Ranking.perm_ranked crowd).length_eq, List.length_zipIdx, hcount]
  have hmem : ∀ p ∈ Ranking.ranked effectiveOrdinal crowd, crowd[p.2]? = some p.1 := fun p hp =>
    List.mem_zipIdx_iff_getElem?.mp ((Ranking.perm_ranked crowd).mem_iff.mp hp)
  obtain ⟨last, hlast⟩ : ∃ last, (Ranking.ranked effectiveOrdinal crowd)[n]? = some last :=
    ⟨_, List.getElem?_eq_getElem (by omega)⟩
  have hplace : crowd[n]? = some (last.1.withOrder (some (UInt32.ofNat n))) := by
    rw [← hsame, getElem?_normalizeAgentOrder, List.getElem?_map, hlast]
    rfl
  have hother := hcrowded hplace
  rw [if_neg (lt_irrefl n)] at hother
  have hrecord : last.1.record = b.record := hother.2.1
  have hfrom := hcrowded (hmem last (List.mem_of_getElem? hlast))
  have hposition : ¬ last.2 < n := fun hlt => by
    rw [if_pos hlt] at hfrom
    exact hab (hfrom.symm.trans hrecord)
  rw [if_neg hposition] at hfrom
  obtain ⟨hsecond, -, horder⟩ := hfrom
  have hzero : effectiveOrdinal last.1 last.2 = 0 := by
    rw [effectiveOrdinal, horder, hsecond, hn]
    rfl
  obtain ⟨before, hbefore, hordinal⟩ := Option.map_eq_some_iff.mp hmember
  have hin : (before, n - 1) ∈ Ranking.ranked effectiveOrdinal crowd :=
    (Ranking.perm_ranked crowd).mem_iff.mpr (List.mem_zipIdx_iff_getElem?.mpr hbefore)
  obtain ⟨k, hk⟩ := List.mem_iff_getElem?.mp hin
  have hkn : k < n := by
    have hlt := (List.getElem?_eq_some_iff.mp hk).1
    have hne : k ≠ n := fun heq => by
      rw [heq, hlast] at hk
      have hpositions := congrArg Prod.snd (Option.some.inj hk)
      dsimp only at hpositions
      omega
    omega
  obtain ⟨hklt, hkget⟩ := List.getElem?_eq_some_iff.mp hk
  obtain ⟨hnlt, hnget⟩ := List.getElem?_eq_some_iff.mp hlast
  have hrank := List.pairwise_iff_getElem.mp (Ranking.pairwise_ranked crowd) k n hklt hnlt hkn
  rw [hkget, hnget] at hrank
  have hlow : effectiveOrdinal before (n - 1) ≤ 0 := by
    rcases precedes_of_rank hrank with hlt | ⟨heq, -⟩
    · exact absurd hlt (by rw [hzero]; exact Nat.not_lt_zero _)
    · exact le_of_eq (heq.trans hzero)
  rw [effectiveOrdinal, hordinal] at hlow
  have hvalue : (UInt32.ofNat (n - 1)).toNat = n - 1 := by
    rw [UInt32.toNat_ofNat', Nat.mod_eq_of_lt (by omega)]
  have hpositive : n - 1 ≤ 0 := hvalue ▸ hlow
  omega

end

def plainAgent (id : String) : AgentConfig Unit :=
  ⟨id, id, "run", "#808080", [], false, none, none, none, ⟨.localProcess, none⟩, ()⟩

theorem record_plainAgent : (plainAgent "a").record ≠ (plainAgent "b").record := fun h =>
  absurd (congrArg AgentConfig.id h) (by decide)

end AgentsCommander.CodingAgents
