import AgentsCommander.Transcript.Text
import Mathlib.Tactic.Common

/-! Lines of a byte sequence, with where they start. -/
namespace AgentsCommander.Transcript

def newline : UInt8 := 10

/-- The complete lines from `start` on, where `line` has been read already, and the tail. -/
def linesFrom (start : ℕ) (line : Bytes) : Bytes → List (ℕ × Bytes) × (ℕ × Bytes)
  | [] => ([], (start, line))
  | b :: rest =>
    if b = newline then
      let (lines, tail) := linesFrom (start + line.length + 1) [] rest
      ((start, line) :: lines, tail)
    else linesFrom start (line ++ [b]) rest

/-- A newline stands in between. -/
def Before (content : Bytes) (a b : ℕ) : Prop := ∃ i, a ≤ i ∧ i < b ∧ content[i]? = some newline

/-- Where the line of this position starts. -/
def lineStart (content : Bytes) : ℕ → ℕ
  | 0 => 0
  | i + 1 => if content[i]? = some newline then i + 1 else lineStart content i

theorem lineStart_le (content : Bytes) (i : ℕ) : lineStart content i ≤ i := by
  induction i with
  | zero => exact le_rfl
  | succ i ih =>
    rw [lineStart]
    split_ifs
    · exact le_rfl
    · exact ih.trans (Nat.le_succ i)

theorem lt_lineStart {content : Bytes} {i b : ℕ} (hi : i < b)
    (hn : content[i]? = some newline) : i < lineStart content b := by
  induction b with
  | zero => cases hi
  | succ b ih =>
    rw [lineStart]
    split_ifs with hb
    · exact hi
    · rcases Nat.lt_succ_iff_lt_or_eq.mp hi with hlt | rfl
      · exact ih hlt
      · exact absurd hn hb

theorem Before.lineStart_lt {content : Bytes} {a b : ℕ} (h : Before content a b) :
    lineStart content a < lineStart content b := by
  obtain ⟨i, hai, hib, hn⟩ := h
  exact Nat.lt_of_le_of_lt ((lineStart_le content a).trans hai) (lt_lineStart hib hn)

theorem Before.grow {content : Bytes} {a b : ℕ} (h : Before content a b) (more : Bytes) :
    Before (content ++ more) a b := by
  obtain ⟨i, hai, hib, hn⟩ := h
  have hlt : i < content.length := (List.getElem?_eq_some_iff.mp hn).1
  exact ⟨i, hai, hib, by rw [List.getElem?_append_left hlt, hn]⟩

theorem Before.mono {content : Bytes} {a a' b b' : ℕ} (h : Before content a b) (ha : a' ≤ a)
    (hb : b ≤ b') : Before content a' b' := by
  obtain ⟨i, hai, hib, hn⟩ := h
  exact ⟨i, ha.trans hai, Nat.lt_of_lt_of_le hib hb, hn⟩

theorem Before.le {content : Bytes} {a b : ℕ} (h : Before content a b) : a ≤ b := by
  obtain ⟨i, hai, hib, -⟩ := h
  exact hai.trans hib.le

/-- The lines found, one after another, and what is left over. -/
theorem linesFrom_join (start : ℕ) (line bytes : Bytes) :
    (linesFrom start line bytes).1.flatMap (fun l => l.2 ++ [newline]) ++
      (linesFrom start line bytes).2.2 = line ++ bytes := by
  induction bytes generalizing start line with
  | nil => exact (List.append_nil line).symm
  | cons b rest ih =>
    rw [linesFrom]
    split_ifs with hb
    · have h := ih (start + line.length + 1) []
      rw [List.flatMap_cons, List.append_assoc, h, hb]
      simp
    · rw [ih]
      simp

/-- The starts lie between where the reading began and where the tail starts, a newline apart. -/
theorem linesFrom_spec {content : Bytes} (start : ℕ) (line bytes : Bytes)
    (h : content.drop start = line ++ bytes) :
    (∀ l ∈ (linesFrom start line bytes).1, start ≤ l.1 ∧
      Before content l.1 (linesFrom start line bytes).2.1) ∧
    (linesFrom start line bytes).1.Pairwise (fun l l' => Before content l.1 l'.1) ∧
    start ≤ (linesFrom start line bytes).2.1 ∧
    content.drop (linesFrom start line bytes).2.1 = (linesFrom start line bytes).2.2 := by
  induction bytes generalizing start line with
  | nil => exact ⟨nofun, .nil, le_rfl, h.trans (List.append_nil line)⟩
  | cons b rest ih =>
    rw [linesFrom]
    split_ifs with hb
    · have hat : content[start + line.length]? = some newline := by
        rw [← List.getElem?_drop, h, List.getElem?_append_right le_rfl, Nat.sub_self, hb]
        rfl
      have hdrop : content.drop (start + line.length + 1) = [] ++ rest := by
        rw [Nat.add_assoc, ← List.drop_drop, h]
        simp
      obtain ⟨hmem, hpair, hle, htail⟩ := ih (start + line.length + 1) [] hdrop
      have hbefore : ∀ i, start + line.length + 1 ≤ i → Before content start i :=
        fun i hi => ⟨start + line.length, Nat.le_add_right _ _, hi, hat⟩
      refine ⟨fun l hl => ?_, ?_, ?_, htail⟩
      · rcases List.mem_cons.mp hl with rfl | hl
        · exact ⟨le_rfl, hbefore _ hle⟩
        · exact ⟨le_trans (by omega) (hmem l hl).1, (hmem l hl).2⟩
      · exact List.pairwise_cons.mpr ⟨fun l hl => hbefore _ (hmem l hl).1, hpair⟩
      · exact le_trans (by omega : start ≤ start + line.length + 1) hle
    · exact ih start (line ++ [b]) (by rw [h]; simp)

/-- A line with its terminator. -/
structure CompleteLine (content : Bytes) (start : ℕ) (line : Bytes) : Prop where
  first : lineStart content start = start
  drop : ∃ rest, content.drop start = line ++ newline :: rest
  clean : newline ∉ line

theorem takeWhile_clean {line : Bytes} (h : newline ∉ line) (rest : Bytes) :
    (line ++ newline :: rest).takeWhile (fun b => b ≠ newline) = line := by
  have hline : ∀ b ∈ line, decide (b ≠ newline) = true := by
    intro b hb
    exact decide_eq_true fun he => h (he ▸ hb)
  rw [List.takeWhile_append_of_pos hline]
  simp

theorem lineStart_succ {content : Bytes} {i : ℕ} (h : content[i]? = some newline) :
    lineStart content (i + 1) = i + 1 := if_pos h

/-- A line that starts later starts behind a newline. -/
theorem newline_of_lineStart {content : Bytes} {i : ℕ} (h : lineStart content (i + 1) = i + 1) :
    content[i]? = some newline := by
  by_contra hn
  rw [lineStart, if_neg hn] at h
  have := lineStart_le content i
  omega

theorem getElem?_of_drop {content line rest : Bytes} {start : ℕ}
    (h : content.drop start = line ++ newline :: rest) :
    content[start + line.length]? = some newline := by
  rw [← List.getElem?_drop, h, List.getElem?_append_right le_rfl, Nat.sub_self]
  rfl

theorem newline_ne_of_drop {content complete rest : Bytes} {start i : ℕ}
    (h : content.drop start = complete ++ rest) (hclean : newline ∉ complete) (hs : start ≤ i)
    (hi : content[i]? = some newline) : start + complete.length ≤ i := by
  by_contra hlt
  have hget : complete[i - start]? = some newline := by
    have hsame : (complete ++ rest)[i - start]? = complete[i - start]? :=
      List.getElem?_append_left (by omega)
    rw [← hsame, ← h, List.getElem?_drop, Nat.add_sub_cancel' hs, hi]
  exact hclean (List.mem_of_getElem? hget)

/-- Every complete line from the start on is found. -/
theorem mem_linesFrom {content : Bytes} {s : ℕ} {l : Bytes} (hl : CompleteLine content s l)
    (start : ℕ) (line bytes : Bytes) (h : content.drop start = line ++ bytes)
    (hclean : newline ∉ line) (hs : start ≤ s) : (s, l) ∈ (linesFrom start line bytes).1 := by
  obtain ⟨rest', hdrop⟩ := hl.drop
  induction bytes generalizing start line with
  | nil =>
    have hi := newline_ne_of_drop h hclean (hs.trans (Nat.le_add_right s l.length))
      (getElem?_of_drop hdrop)
    have hlen : content.length ≤ start + line.length := by
      have := congrArg List.length h
      simp only [List.length_drop, List.append_nil] at this
      omega
    have hnone := List.getElem?_eq_none (hlen.trans hi)
    cases hnone.symm.trans (getElem?_of_drop hdrop)
  | cons b rest ih =>
    rw [linesFrom]
    split_ifs with hb
    · subst hb
      have hnext : content.drop (start + line.length + 1) = [] ++ rest := by
        rw [Nat.add_assoc, ← List.drop_drop, h]
        simp
      rcases Nat.eq_or_lt_of_le hs with rfl | hlt
      · have heq : l = line := by
          rw [← takeWhile_clean hl.clean rest', ← hdrop, h, takeWhile_clean hclean]
        rw [heq]
        exact List.mem_cons_self
      · refine List.mem_cons_of_mem _ (ih _ [] hnext nofun ?_)
        obtain ⟨i, rfl⟩ : ∃ i, s = i + 1 := ⟨s - 1, by omega⟩
        have := newline_ne_of_drop h hclean (Nat.le_of_lt_succ hlt)
          (newline_of_lineStart hl.first)
        omega
    · refine ih start (line ++ [b]) (by rw [h]; simp) ?_ hs
      rw [List.mem_append, List.mem_singleton]
      exact fun hm => hm.elim hclean fun he => hb he.symm

theorem linesFrom_tail {content : Bytes} (start : ℕ) (line bytes : Bytes)
    (h : content.drop start = line ++ bytes) (hfirst : lineStart content start = start)
    (hclean : newline ∉ line) :
    lineStart content (linesFrom start line bytes).2.1 = (linesFrom start line bytes).2.1 ∧
      newline ∉ (linesFrom start line bytes).2.2 := by
  induction bytes generalizing start line with
  | nil => exact ⟨hfirst, hclean⟩
  | cons b rest ih =>
    rw [linesFrom]
    split_ifs with hb
    · subst hb
      have hnext : content.drop (start + line.length + 1) = [] ++ rest := by
        rw [Nat.add_assoc, ← List.drop_drop, h]
        simp
      exact ih _ [] hnext (lineStart_succ (getElem?_of_drop h)) nofun
    · refine ih start (line ++ [b]) (by rw [h]; simp) hfirst ?_
      rw [List.mem_append, List.mem_singleton]
      exact fun hm => hm.elim hclean fun he => hb he.symm

end AgentsCommander.Transcript
