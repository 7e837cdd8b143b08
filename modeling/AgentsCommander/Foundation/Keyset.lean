import Mathlib.Data.List.Sort

/-! Keyset pagination: the next rows beyond a cursor, in key order. -/
namespace AgentsCommander.Foundation.Keyset
variable {α κ : Type*} [LinearOrder κ] (key : α → κ)

/-- At most `limit` of the rows that lie beyond the cursor, from the smallest key on. -/
def page (rows : List α) (cursor : Option κ) (limit : ℕ) : List α :=
  ((rows.filter fun a => cursor.all (· < key a)).insertionSort (key · ≤ key ·)).take limit

/-- The next page; past the end it starts over. -/
def wrappedPage (rows : List α) (cursor : Option κ) (limit : ℕ) : List α :=
  if page key rows cursor limit = [] ∧ cursor.isSome then page key rows none limit
  else page key rows cursor limit

/-- Where the cursor stands after a page. -/
def cursorAfter (l : List α) : Option κ := l.getLast?.map key

variable {key}

theorem mem_of_mem_page {rows : List α} {cursor : Option κ} {limit : ℕ} {a : α}
    (h : a ∈ page key rows cursor limit) : a ∈ rows := by
  have hs := List.mem_of_mem_take h
  rw [List.mem_insertionSort] at hs
  exact (List.mem_filter.mp hs).1

theorem mem_of_mem_wrappedPage {rows : List α} {cursor : Option κ} {limit : ℕ} {a : α}
    (h : a ∈ wrappedPage key rows cursor limit) : a ∈ rows := by
  unfold wrappedPage at h
  split_ifs at h
  · exact mem_of_mem_page h
  · exact mem_of_mem_page h

theorem page_nodup {rows : List α} (h : rows.Nodup) (cursor : Option κ) (limit : ℕ) :
    (page key rows cursor limit).Nodup := by
  have hs : ((rows.filter fun a => cursor.all (· < key a)).insertionSort (key · ≤ key ·)).Nodup :=
    (List.perm_insertionSort _ _).nodup_iff.mpr (h.filter _)
  exact (List.take_sublist limit _).nodup hs

theorem wrappedPage_nodup {rows : List α} (h : rows.Nodup) (cursor : Option κ) (limit : ℕ) :
    (wrappedPage key rows cursor limit).Nodup := by
  unfold wrappedPage
  split_ifs
  · exact page_nodup h none limit
  · exact page_nodup h cursor limit

section
variable {rows : List α} {cursor : Option κ} {limit : ℕ} {a : α}

theorem mem_sorted (ha : a ∈ rows) (hbeyond : cursor.all (· < key a) = true) :
    a ∈ (rows.filter fun a => cursor.all (· < key a)).insertionSort (key · ≤ key ·) := by
  rw [List.mem_insertionSort]
  exact List.mem_filter.mpr ⟨ha, hbeyond⟩

/-- A page that is not full has all that lies beyond the cursor. -/
theorem mem_page_of_short (hshort : (page key rows cursor limit).length < limit) (ha : a ∈ rows)
    (hbeyond : cursor.all (· < key a) = true) : a ∈ page key rows cursor limit := by
  unfold page at hshort ⊢
  rw [List.length_take] at hshort
  rw [List.take_of_length_le (by omega)]
  exact mem_sorted ha hbeyond

/-- What a page leaves out comes after it. -/
theorem key_le_of_not_mem_page (ha : a ∈ rows) (hbeyond : cursor.all (· < key a) = true)
    (hout : a ∉ page key rows cursor limit) {b : α} (hb : b ∈ page key rows cursor limit) :
    key b ≤ key a := by
  have hmem := mem_sorted ha hbeyond
  have hsorted : ((rows.filter fun a => cursor.all (· < key a)).insertionSort
      (key · ≤ key ·)).Pairwise (key · ≤ key ·) := by
    have : Std.Total fun a b : α => key a ≤ key b := ⟨fun a b => le_total (key a) (key b)⟩
    have : IsTrans α fun a b => key a ≤ key b := ⟨fun _ _ _ hab hbc => le_trans hab hbc⟩
    exact List.pairwise_insertionSort _ _
  unfold page at hout hb
  rw [← List.take_append_drop limit ((rows.filter fun a => cursor.all (· < key a)).insertionSort
    (key · ≤ key ·))] at hmem hsorted
  obtain h | h := List.mem_append.mp hmem
  · exact absurd h hout
  · exact (List.pairwise_append.mp hsorted).2.2 b hb a h

omit [LinearOrder κ] in
theorem mem_of_cursorAfter {l : List α} {c : κ} (h : cursorAfter key l = some c) :
    ∃ b ∈ l, key b = c := by
  obtain ⟨b, hb, rfl⟩ := Option.map_eq_some_iff.mp h
  exact ⟨b, List.mem_of_getLast? hb, rfl⟩

end
end AgentsCommander.Foundation.Keyset
