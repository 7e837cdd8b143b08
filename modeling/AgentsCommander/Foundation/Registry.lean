import Mathlib.Data.Set.Insert

/-! Registries: sets that only gain entries, each one clashing with nothing in them. -/
namespace AgentsCommander.Foundation.Registry
variable {ι : Type*} (clash : ι → ι → Prop)

/-- No two entries clash. -/
def Apart (S : Set ι) : Prop := ∀ i ∈ S, ∀ j ∈ S, clash i j → i = j

def Fresh (S : Set ι) (i : ι) : Prop := ∀ j ∈ S, ¬ clash i j ∧ ¬ clash j i

/-- Nothing new, or one fresh entry. -/
def Grows (S T : Set ι) : Prop := T = S ∨ ∃ i, Fresh clash S i ∧ T = insert i S

variable {clash}

theorem apart_empty : Apart clash (∅ : Set ι) := fun _ hi => nomatch hi

theorem Grows.subset {S T : Set ι} (h : Grows clash S T) : S ⊆ T := by
  rcases h with rfl | ⟨i, -, rfl⟩
  · exact Set.Subset.rfl
  · exact Set.subset_insert i S

theorem Apart.grows {S T : Set ι} (hS : Apart clash S) (h : Grows clash S T) : Apart clash T := by
  rcases h with rfl | ⟨n, hn, rfl⟩
  · exact hS
  intro i hi j hj hij
  rcases Set.mem_insert_iff.mp hi with hin | hiS
  · rcases Set.mem_insert_iff.mp hj with hjn | hjS
    · exact hin.trans hjn.symm
    · exact absurd (hin ▸ hij) (hn j hjS).1
  · rcases Set.mem_insert_iff.mp hj with hjn | hjS
    · exact absurd (hjn ▸ hij) (hn i hiS).2
    · exact hS i hiS j hjS hij

/-- An entry keeps what it claimed for as long as the registry lives. -/
theorem Apart.eq_of_subset {S T : Set ι} (hT : Apart clash T) (hST : S ⊆ T) {i j : ι} (hi : i ∈ S)
    (hj : j ∈ T) (hij : clash i j) : i = j := hT i (hST hi) j hj hij

end AgentsCommander.Foundation.Registry
