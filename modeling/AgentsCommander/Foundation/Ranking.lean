import Mathlib.Data.List.Sort
import Mathlib.Data.Prod.Lex
import Mathlib.Order.Lattice.Nat
import Mathlib.Data.List.Range

/-! Lists ordered by a key of their elements and positions, where the position decides between equal
keys; and elements taken out of their slots in a given order. -/
namespace AgentsCommander.Foundation.Ranking
variable {α β : Type*} (key : α → ℕ → ℕ)

/-- What an element at a position is compared by. -/
def rank (p : α × ℕ) : ℕ ×ₗ ℕ := toLex (key p.1 p.2, p.2)

/-- The positions, in the order of their keys. -/
def positions (l : List α) : List ℕ :=
  ((l.zipIdx.map (rank key)).insertionSort (· ≤ ·)).map fun r => (ofLex r).2

/-- The elements with their positions, in that order. -/
def ranked (l : List α) : List (α × ℕ) :=
  l.zipIdx.insertionSort fun p q => rank key p ≤ rank key q

/-- Take the elements out of their slots; an empty slot gives none. -/
def takeSlots : List (Option α) → List ℕ → List α
  | _, [] => []
  | slots, i :: is =>
    match slots[i]?.join with
    | some a => a :: takeSlots (slots.set i none) is
    | none => takeSlots slots is

variable {key}

theorem rank_injective {p q : α × ℕ} (h : rank key p = rank key q) : p.2 = q.2 :=
  congrArg (fun r : ℕ ×ₗ ℕ => (ofLex r).2) h

theorem perm_ranked (l : List α) : (ranked key l).Perm l.zipIdx := List.perm_insertionSort _ _

theorem map_positions (l : List α) : positions key l = (ranked key l).map (·.2) := by
  unfold positions ranked
  rw [← List.map_insertionSort _ _ (rank key) l.zipIdx fun _ _ _ _ => Iff.rfl, List.map_map]
  rfl

/-- By their keys, and by their positions where these are equal. -/
theorem pairwise_ranked (l : List α) :
    (ranked key l).Pairwise fun p q => rank key p < rank key q := by
  have hle : (ranked key l).Pairwise fun p q => rank key p ≤ rank key q :=
    List.pairwise_insertionSort _ _
  have hnodup : ((ranked key l).map (·.2)).Nodup := by
    refine ((perm_ranked l).map (·.2)).nodup_iff.mpr ?_
    rw [List.zipIdx_map_snd]
    exact List.nodup_range'
  refine (hle.and (List.pairwise_map.mp hnodup)).imp fun h => lt_of_le_of_ne h.1 fun heq => ?_
  exact h.2 (rank_injective heq)

/-- Where the keys are the positions, everything is in order. -/
theorem ranked_eq_of_key {l : List α} (h : ∀ p ∈ l.zipIdx, key p.1 p.2 = p.2) :
    ranked key l = l.zipIdx := by
  have hpositions : l.zipIdx.Pairwise fun p q => p.2 < q.2 := by
    rw [← List.pairwise_map, List.zipIdx_map_snd]
    exact List.pairwise_lt_range'
  refine List.Pairwise.insertionSort_eq (hpositions.imp_of_mem fun {p q} hp hq hlt => ?_)
  rw [rank, rank, Prod.Lex.toLex_le_toLex, h p hp, h q hq]
  exact Or.inl hlt

/-- An order of positions that is the identity leaves the list as it is. -/
theorem map_fst_ranked_of_identity {l : List α}
    (h : (positions key l).zipIdx.all (fun p => p.2 = p.1) = true) :
    (ranked key l).map (·.1) = l := by
  refine List.ext_getElem? fun i => ?_
  rw [List.getElem?_map]
  cases hi : (ranked key l)[i]? with
  | none =>
    have hlength : l.length ≤ i := by
      rw [← List.length_zipIdx (l := l) (i := 0), ← (perm_ranked l).length_eq]
      exact List.getElem?_eq_none_iff.mp hi
    exact (List.getElem?_eq_none hlength).symm
  | some p =>
    have hposition : (positions key l)[i]? = some p.2 := by
      rw [map_positions, List.getElem?_map, hi]
      rfl
    have hmem : (p.2, i) ∈ (positions key l).zipIdx := List.mk_mem_zipIdx_iff_getElem?.mpr hposition
    have hsame : i = p.2 := of_decide_eq_true (List.all_eq_true.mp h _ hmem)
    have hget : l[p.2]? = some p.1 := List.mem_zipIdx_iff_getElem?.mp
      ((perm_ranked l).mem_iff.mp (List.mem_of_getElem? hi))
    rw [hsame, hget]
    rfl

theorem filterMap_positions (l : List α) :
    (positions key l).filterMap (l[·]?) = (ranked key l).map (·.1) := by
  rw [map_positions, List.filterMap_map]
  have hget : ∀ p ∈ ranked key l, ((l[·]?) ∘ (·.2)) p = (some ∘ (·.1)) p := fun p hp =>
    List.mem_zipIdx_iff_getElem?.mp ((perm_ranked l).mem_iff.mp hp)
  rw [List.filterMap_congr hget, List.filterMap_eq_map]

theorem takeSlots_eq (l : List α) {is : List ℕ} (his : is.Nodup) {slots : List (Option α)}
    (hslots : ∀ i ∈ is, slots[i]?.join = l[i]?) :
    takeSlots slots is = is.filterMap (l[·]?) := by
  induction is generalizing slots with
  | nil => rfl
  | cons i is ih =>
    obtain ⟨hi, his⟩ := List.nodup_cons.mp his
    have hrest : ∀ j ∈ is, slots[j]?.join = l[j]? :=
      fun j hj => hslots j (List.mem_cons_of_mem i hj)
    rw [takeSlots, hslots i List.mem_cons_self, List.filterMap_cons]
    cases l[i]? with
    | none => exact ih his hrest
    | some a =>
      refine congrArg (a :: ·) (ih his fun j hj => ?_)
      have hne : i ≠ j := fun heq => hi (heq ▸ hj)
      rw [List.getElem?_set_ne hne, hrest j hj]

/-- Taken out of full slots in the order of their keys. -/
theorem takeSlots_positions (l : List α) :
    takeSlots (l.map some) (positions key l) = (ranked key l).map (·.1) := by
  have hnodup : (positions key l).Nodup := by
    rw [map_positions]
    refine ((perm_ranked l).map (·.2)).nodup_iff.mpr ?_
    rw [List.zipIdx_map_snd]
    exact List.nodup_range'
  rw [takeSlots_eq l hnodup fun i _ => ?_, filterMap_positions]
  rw [List.getElem?_map]
  cases l[i]? <;> rfl

end AgentsCommander.Foundation.Ranking
