import Mathlib.Algebra.Order.Ring.Int
import Mathlib.Data.List.AList

/-! Finite maps: the change of one entry, selection of entries, and passes of changes. -/
namespace AgentsCommander.Foundation.Assoc
universe u v
variable {κ : Type u} {α : Type v} [DecidableEq κ]

/-- Rewrite the value under a key, if there is one. -/
def adjust (m : AList fun _ : κ => α) (k : κ) (f : α → α) : AList fun _ : κ => α :=
  match m.lookup k with
  | some a => m.insert k (f a)
  | none => m

/-- The entries that satisfy a condition. -/
def keep (m : AList fun _ : κ => α) (p : κ → α → Bool) : AList fun _ : κ => α where
  entries := m.entries.filter fun e => p e.1 e.2
  nodupKeys := m.nodupKeys.sublist List.filter_sublist

def values (m : AList fun _ : κ => α) : List α := m.entries.map (·.2)

/-- Rewrite every value. -/
def mapValues (m : AList fun _ : κ => α) (f : κ → α → α) : AList fun _ : κ => α where
  entries := m.entries.map fun e => ⟨e.1, f e.1 e.2⟩
  nodupKeys := by
    have hkeys : (m.entries.map fun e => (⟨e.1, f e.1 e.2⟩ : Sigma fun _ : κ => α)).keys =
        m.entries.keys := by simp [List.keys, List.map_map, Function.comp_def]
    unfold List.NodupKeys
    rw [hkeys]
    exact m.nodupKeys

/-- How many keys there are. -/
def size (m : AList fun _ : κ => α) : ℕ := m.keys.length

omit [DecidableEq κ] in
theorem size_eq_zero {m : AList fun _ : κ => α} : size m = 0 ↔ m = ∅ := by
  unfold size AList.keys List.keys
  rw [List.length_map, List.length_eq_zero_iff]
  exact ⟨fun h => AList.ext h, fun h => h ▸ rfl⟩

theorem size_erase {m : AList fun _ : κ => α} {k : κ} (h : (m.lookup k).isSome) :
    size (m.erase k) + 1 = size m := by
  have hmem : k ∈ m.keys := AList.mem_keys.mp (AList.lookup_isSome.mp h)
  rw [size, AList.keys_erase, List.length_erase_of_mem hmem]
  exact Nat.sub_add_cancel (List.length_pos_of_mem hmem)

theorem size_insert {m : AList fun _ : κ => α} {k : κ} (h : m.lookup k = none) (a : α) :
    size (m.insert k a) = size m + 1 := by
  have hmem : k ∉ m.keys := fun hk => AList.lookup_eq_none.mp h (AList.mem_keys.mpr hk)
  rw [size, AList.keys_insert, List.erase_of_not_mem hmem]
  rfl

theorem size_adjust (m : AList fun _ : κ => α) (k : κ) (f : α → α) :
    size (adjust m k f) = size m := by
  unfold adjust
  cases hk : m.lookup k with
  | none => rfl
  | some a =>
    have hsize := size_erase (Option.isSome_of_eq_some hk)
    rw [size, AList.keys_insert, List.length_cons, ← AList.keys_erase]
    exact hsize

theorem lookup_insert_eq (m : AList fun _ : κ => α) (k : κ) (a : α) (j : κ) :
    (m.insert k a).lookup j = if j = k then some a else m.lookup j := by
  split_ifs with hj
  · subst hj
    exact AList.lookup_insert m
  · exact AList.lookup_insert_ne hj

theorem lookup_erase_eq (m : AList fun _ : κ => α) (k j : κ) :
    (m.erase k).lookup j = if j = k then none else m.lookup j := by
  split_ifs with hj
  · subst hj
    exact AList.lookup_erase j m
  · exact AList.lookup_erase_ne hj

theorem lookup_adjust (m : AList fun _ : κ => α) (k : κ) (f : α → α) (j : κ) :
    (adjust m k f).lookup j = if j = k then (m.lookup j).map f else m.lookup j := by
  unfold adjust
  cases hk : m.lookup k with
  | none =>
    split_ifs with hj
    · rw [hj, hk]
      rfl
    · rfl
  | some a =>
    rw [lookup_insert_eq]
    split_ifs with hj
    · rw [hj, hk]
      rfl
    · rfl

theorem lookup_mapValues (m : AList fun _ : κ => α) (f : κ → α → α) (k : κ) :
    (mapValues m f).lookup k = (m.lookup k).map (f k) := by
  have hentries : ∀ l : List (Sigma fun _ : κ => α),
      (l.map fun e => (⟨e.1, f e.1 e.2⟩ : Sigma fun _ : κ => α)).dlookup k =
        (l.dlookup k).map (f k) := by
    intro l
    induction l with
    | nil => rfl
    | cons e l ih =>
      obtain ⟨j, a⟩ := e
      by_cases hj : j = k
      · subst hj
        simp
      · rw [List.map_cons, List.dlookup_cons_ne _ _ (Ne.symm hj),
          List.dlookup_cons_ne _ _ (Ne.symm hj), ih]
  exact hentries m.entries

theorem mem_values {m : AList fun _ : κ => α} {a : α} : a ∈ values m ↔ ∃ k, m.lookup k = some a := by
  unfold values
  rw [List.mem_map]
  constructor
  · rintro ⟨e, he, rfl⟩
    exact ⟨e.1, AList.mem_lookup_iff.mpr he⟩
  · rintro ⟨k, hk⟩
    exact ⟨⟨k, a⟩, AList.mem_lookup_iff.mp hk, rfl⟩

theorem of_lookup_keep {m : AList fun _ : κ => α} {p : κ → α → Bool} {k : κ} {a : α}
    (h : (keep m p).lookup k = some a) : m.lookup k = some a ∧ p k a = true := by
  have hmem := List.mem_filter.mp (AList.mem_lookup_iff.mp h)
  exact ⟨AList.mem_lookup_iff.mpr hmem.1, hmem.2⟩

theorem lookup_keep (m : AList fun _ : κ => α) (p : κ → α → Bool) (k : κ) :
    (keep m p).lookup k = (m.lookup k).filter (p k) := by
  ext a
  rw [Option.filter_eq_some_iff]
  refine ⟨of_lookup_keep, fun h => AList.mem_lookup_iff.mpr (List.mem_filter.mpr ?_)⟩
  exact ⟨AList.mem_lookup_iff.mp h.1, h.2⟩

theorem lookup_foldl_insert (l : List κ) (f : κ → α) (m : AList fun _ : κ => α) (j : κ) :
    (l.foldl (fun m k => m.insert k (f k)) m).lookup j =
      if j ∈ l then some (f j) else m.lookup j := by
  induction l generalizing m with
  | nil => rfl
  | cons k l ih =>
    rw [List.foldl_cons, ih, lookup_insert_eq]
    by_cases hl : j ∈ l
    · rw [if_pos hl, if_pos (List.mem_cons_of_mem k hl)]
    · rw [if_neg hl]
      simp only [List.mem_cons, hl, or_false]
      split_ifs with hj
      · rw [hj]
      · rfl

/-- A value under two keys counts twice. -/
theorem one_lt_countP_values [DecidableEq α] {m : AList fun _ : κ => α} {i j : κ} {a : α}
    (hij : i ≠ j) (hi : m.lookup i = some a) (hj : m.lookup j = some a) :
    1 < (values m).countP (· = a) := by
  have hmem : ∀ k, m.lookup k = some a →
      (⟨k, a⟩ : Sigma fun _ : κ => α) ∈ m.entries.filter fun e => e.2 = a := by
    intro k hk
    rw [List.mem_filter]
    exact ⟨AList.mem_lookup_iff.mp hk, decide_eq_true rfl⟩
  unfold values
  rw [List.countP_map, List.countP_eq_length_filter]
  by_contra hle
  have hone : ∀ l : List (Sigma fun _ : κ => α), l.length ≤ 1 → ∀ x ∈ l, ∀ y ∈ l, x = y := by
    intro l hl x hx y hy
    match l, hl with
    | [e], _ => rw [List.mem_singleton.mp hx, List.mem_singleton.mp hy]
  have heq := hone _ (Nat.le_of_not_lt hle) _ (hmem i hi) _ (hmem j hj)
  exact hij (Sigma.mk.inj heq).1

/-- A pass of changes, each meant for its own key: every key sees the one change meant for it. -/
theorem foldl_at {σ β : Type*} {g : σ → κ → α} {step : σ → β → σ} {key : β → κ} {f : β → α → α}
    (hstep : ∀ s b k, g (step s b) k = if k = key b then f b (g s k) else g s k)
    {l : List β} (hl : (l.map key).Nodup) (s : σ) (k : κ) :
    g (l.foldl step s) k = (l.find? (key · = k)).elim (g s k) fun b => f b (g s k) := by
  induction l generalizing s with
  | nil => rfl
  | cons b l ih =>
    rw [List.map_cons, List.nodup_cons] at hl
    rw [List.foldl_cons, ih hl.2, List.find?_cons]
    by_cases hb : key b = k
    · have hnone : l.find? (key · = k) = none := by
        rw [List.find?_eq_none]
        intro c hc hck
        have hck' : key c = k := of_decide_eq_true hck
        exact hl.1 (List.mem_map.mpr ⟨c, hc, hck'.trans hb.symm⟩)
      simp only [hb, decide_true, hnone, hstep, if_pos, Option.elim_none, Option.elim_some]
    · have hk : ¬ k = key b := fun h => hb h.symm
      simp only [hb, decide_false, hstep, if_neg hk]

/-- A pass that changes nothing in what is read of the state. -/
theorem foldl_frame {σ β ρ : Type*} (r : σ → ρ) (step : σ → β → σ)
    (hstep : ∀ s b, r (step s b) = r s) (l : List β) (s : σ) : r (l.foldl step s) = r s := by
  induction l generalizing s with
  | nil => rfl
  | cons b l ih => exact (ih _).trans (hstep s b)

/-- A pass that never lowers what is read of the state. -/
theorem le_foldl {σ β : Type*} (r : σ → ℕ) (step : σ → β → σ)
    (hstep : ∀ s b, r s ≤ r (step s b)) (l : List β) (s : σ) : r s ≤ r (l.foldl step s) := by
  induction l generalizing s with
  | nil => exact le_rfl
  | cons b l ih => exact Nat.le_trans (hstep s b) (ih _)

/-- A pass that never lowers what is read, and raises it at one of its changes. -/
theorem lt_foldl_of_mem {σ β : Type*} {P : σ → Prop} {r : σ → ℕ} {step : σ → β → σ}
    (hstep : ∀ s b, r s ≤ r (step s b)) (hP : ∀ s b, P s → P (step s b)) {n : ℕ} {l : List β}
    {b : β} (hb : b ∈ l) (hraise : ∀ s, P s → n ≤ r s → n < r (step s b)) {s : σ} (hs : P s)
    (hn : n ≤ r s) : n < r (l.foldl step s) := by
  induction l generalizing s with
  | nil => cases hb
  | cons c l ih =>
    rw [List.foldl_cons]
    rcases List.mem_cons.mp hb with rfl | hb
    · exact Nat.lt_of_lt_of_le (hraise s hs hn) (le_foldl r step hstep l _)
    · exact ih hb (hP s c hs) (Nat.le_trans hn (hstep s c))

end AgentsCommander.Foundation.Assoc
