import Mathlib.Algebra.Order.Ring.Int
import Mathlib.Data.List.DropRight

/-! Lists cut at their separators, and quoting that doubles the quote. -/
namespace AgentsCommander.Foundation.Lines
variable {α : Type*} [DecidableEq α]

/-- The pieces, each with the separator that ends it. The last may lack one. -/
def splitInclusive (sep : α) : List α → List (List α)
  | [] => []
  | c :: rest =>
    if c = sep then [c] :: splitInclusive sep rest
    else match splitInclusive sep rest with
      | [] => [[c]]
      | line :: lines => (c :: line) :: lines

/-- What stands before the first separator and what stands after it. -/
def splitOnce (sep : α) (s : List α) : Option (List α × List α) :=
  match s.dropWhile (· ≠ sep) with
  | [] => none
  | _ :: value => some (s.takeWhile (· ≠ sep), value)

/-- Where the last separator stands. -/
def rposition (sep : α) (s : List α) : Option ℕ :=
  (s.reverse.idxOf? sep).map fun i => s.length - 1 - i

/-- Every quote written twice. -/
def double (quote : α) (s : List α) : List α :=
  s.flatMap fun c => if c = quote then [quote, quote] else [c]

/-- Every pair of quotes read as one, from the left. -/
def undouble (quote : α) : List α → List α
  | [] => []
  | [c] => [c]
  | c :: d :: rest =>
    if c = quote ∧ d = quote then quote :: undouble quote rest else c :: undouble quote (d :: rest)

variable {sep quote : α}

theorem flatten_splitInclusive (s : List α) : (splitInclusive sep s).flatten = s := by
  induction s with
  | nil => rfl
  | cons c rest ih =>
    unfold splitInclusive
    by_cases hc : c = sep
    · rw [if_pos hc, List.flatten_cons, ih]
      rfl
    · rw [if_neg hc]
      cases hrest : splitInclusive sep rest with
      | nil =>
        rw [hrest] at ih
        simp [← ih]
      | cons line lines =>
        rw [hrest] at ih
        simp [← ih]

theorem splitInclusive_line {line : List α} (h : sep ∉ line) (rest : List α) :
    splitInclusive sep (line ++ sep :: rest) = (line ++ [sep]) :: splitInclusive sep rest := by
  induction line with
  | nil => simp [splitInclusive]
  | cons c line ih =>
    have hc : c ≠ sep := fun heq => h (heq ▸ List.mem_cons_self)
    have hline : sep ∉ line := fun hmem => h (List.mem_cons_of_mem c hmem)
    simp [splitInclusive, hc, ih hline]

/-- A piece holds the separator at its end or not at all. -/
theorem exists_of_mem_splitInclusive {s line : List α} (h : line ∈ splitInclusive sep s) :
    ∃ front, sep ∉ front ∧ (line = front ++ [sep] ∨ line = front) := by
  induction s generalizing line with
  | nil => cases h
  | cons c rest ih =>
    unfold splitInclusive at h
    by_cases hc : c = sep
    · rw [if_pos hc] at h
      rcases List.mem_cons.mp h with rfl | hmem
      · exact ⟨[], List.not_mem_nil, .inl (by rw [hc]; rfl)⟩
      · exact ih hmem
    · rw [if_neg hc] at h
      have hfront : ∀ front, sep ∉ front → sep ∉ c :: front := by
        intro front hmem
        simp [Ne.symm hc, hmem]
      cases hrest : splitInclusive sep rest with
      | nil =>
        rw [hrest] at h
        have hline : line = [c] := by simpa using h
        exact ⟨[c], hfront [] List.not_mem_nil, .inr hline⟩
      | cons first lines =>
        rw [hrest] at h ih
        rcases List.mem_cons.mp h with rfl | hmem
        · obtain ⟨front, hsep, hfirst⟩ := ih List.mem_cons_self
          refine ⟨c :: front, hfront front hsep, ?_⟩
          rcases hfirst with rfl | rfl
          · exact .inl rfl
          · exact .inr rfl
        · exact ih (List.mem_cons_of_mem first hmem)

theorem splitOnce_append {key : List α} (h : sep ∉ key) (value : List α) :
    splitOnce sep (key ++ sep :: value) = some (key, value) := by
  have hall : ∀ c ∈ key, decide (c ≠ sep) = true := by
    intro c hc
    simpa using fun heq : c = sep => h (heq ▸ hc)
  have hdrop : (key ++ sep :: value).dropWhile (· ≠ sep) = sep :: value := by
    rw [List.dropWhile_append_of_pos hall]
    simp
  have htake : (key ++ sep :: value).takeWhile (· ≠ sep) = key := by
    rw [List.takeWhile_append_of_pos hall]
    simp
  unfold splitOnce
  rw [hdrop, htake]

theorem rposition_eq_none {s : List α} (h : sep ∉ s) : rposition sep s = none := by
  have hreverse : sep ∉ s.reverse := by rwa [List.mem_reverse]
  rw [rposition, List.idxOf?_eq_none_iff.mpr hreverse, Option.map_none]

theorem rposition_append {tail : List α} (h : sep ∉ tail) (front : List α) :
    rposition sep (front ++ sep :: tail) = some front.length := by
  have hreverse : (front ++ sep :: tail).reverse = tail.reverse ++ sep :: front.reverse := by simp
  have hindex : (tail.reverse ++ sep :: front.reverse).idxOf? sep = some tail.length := by
    have hmem : sep ∉ tail.reverse := by rwa [List.mem_reverse]
    rw [List.idxOf?_eq_some_iff]
    refine ⟨by simp, by simp, ?_⟩
    intro j hj
    rw [List.getElem_append_left (by simpa using hj)]
    exact fun heq => hmem (heq ▸ List.getElem_mem _)
  rw [rposition, hreverse, hindex, Option.map_some]
  congr 1
  simp only [List.length_append, List.length_cons]
  omega

theorem undouble_double (s : List α) : undouble quote (double quote s) = s := by
  induction s with
  | nil => rfl
  | cons c s ih =>
    by_cases hc : c = quote
    · have hcons : double quote (c :: s) = quote :: quote :: double quote s := by
        simp [double, hc]
      rw [hcons, undouble, if_pos ⟨rfl, rfl⟩, ih, hc]
    · have hcons : double quote (c :: s) = c :: double quote s := by simp [double, hc]
      rw [hcons]
      cases hs : double quote s with
      | nil =>
        rw [hs] at ih
        rw [← ih]
        rfl
      | cons d rest =>
        rw [hs] at ih
        rw [undouble, if_neg (fun h => hc h.1), ih]

theorem mem_double {c : α} {s : List α} : c ∈ double quote s ↔ c ∈ s := by
  unfold double
  rw [List.mem_flatMap]
  constructor
  · rintro ⟨d, hd, hc⟩
    by_cases hq : d = quote
    · rw [if_pos hq] at hc
      have : c = d := by simpa [hq] using hc
      exact this ▸ hd
    · rw [if_neg hq, List.mem_singleton] at hc
      exact hc ▸ hd
  · intro hc
    refine ⟨c, hc, ?_⟩
    by_cases hq : c = quote <;> simp [hq]

end AgentsCommander.Foundation.Lines
