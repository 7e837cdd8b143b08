import AgentsCommander.Output.Attachments
import Mathlib.Data.List.Infix
import Mathlib.Tactic.Common

/-! The bounded history of raw output: what it keeps of the stream, and when its front is known
to be a place a replay may start from. -/
namespace AgentsCommander.Output

def uiHistoryLimitBytes : ℕ := 65536

/-- How far into the ring the trim to a line looks for a newline. -/
def uiHistoryLineScanBytes : ℕ := 4096

def newline : Byte := 10

/-- `VecDeque::drain(..count)` panics beyond the end. -/
def drain (count : ℕ) (ring : List Byte) : Option (List Byte) :=
  if count ≤ ring.length then some (ring.drop count) else none

structure HistoryRing where
  history : List Byte
  aligned : Bool
  deriving DecidableEq

namespace HistoryRing

def empty : HistoryRing := ⟨[], true⟩

/-- Trims for so much space, and then to the next line when one begins within the scan. -/
def trim (r : HistoryRing) (excess : ℕ) : Option HistoryRing := do
  let drained ← drain (min excess r.history.length) r.history
  match (drained.take uiHistoryLineScanBytes).findIdx? (· == newline) with
  | some found => do
    let rest ← drain (found + 1) drained
    some ⟨rest, true⟩
  | none => some ⟨drained, false⟩

def makeRoom (r : HistoryRing) (excess : ℕ) : Option HistoryRing :=
  if 0 < excess then r.trim excess else some r

/-- A chunk larger than the whole ring keeps only its tail. -/
def appendHistory (r : HistoryRing) (data : List Byte) : Option HistoryRing := do
  let tail := data.drop (data.length - uiHistoryLimitBytes)
  let excess := r.history.length + tail.length - uiHistoryLimitBytes
  let trimmed ← r.makeRoom excess
  let aligned := if trimmed.history = [] ∧ tail.length < data.length then false
    else trimmed.aligned
  some ⟨trimmed.history ++ tail, aligned⟩

/-- The ring behind its first newline, as two slices. -/
def historyFromFirstLine (front back : List Byte) : Option (List Byte × List Byte) :=
  match front.findIdx? (· == newline) with
  | some found =>
    let alignedFront := front.drop (found + 1)
    if alignedFront = [] ∧ back = [] then none else some (alignedFront, back)
  | none => do
    let found ← back.findIdx? (· == newline)
    let alignedBack := back.drop (found + 1)
    if alignedBack = [] then none else some ([], alignedBack)

/-- A replay may start here: at the beginning of the stream, at a chunk that fits the ring, or
behind a newline. -/
def Starts (chunks : List (List Byte)) (p : ℕ) : Prop :=
  p = 0 ∨
    (∃ before chunk after, chunks = before ++ chunk :: after ∧ before.flatten.length = p ∧
      chunk.length ≤ uiHistoryLimitBytes) ∨
    ∃ i, p = i + 1 ∧ chunks.flatten[i]? = some newline

/-- What the ring has of the chunks appended so far. -/
structure Holds (chunks : List (List Byte)) (r : HistoryRing) : Prop where
  bounded : r.history.length ≤ uiHistoryLimitBytes
  suffix : r.history <:+ chunks.flatten
  starts : r.aligned = true → Starts chunks (chunks.flatten.length - r.history.length)

theorem Starts.append {chunks : List (List Byte)} {p : ℕ} (h : Starts chunks p)
    (data : List Byte) : Starts (chunks ++ [data]) p := by
  rcases h with h | ⟨before, chunk, after, rfl, hp, hchunk⟩ | ⟨i, hp, hi⟩
  · exact Or.inl h
  · refine Or.inr (Or.inl ⟨before, chunk, after ++ [data], ?_, hp, hchunk⟩)
    rw [List.append_assoc, List.cons_append]
  · refine Or.inr (Or.inr ⟨i, hp, ?_⟩)
    have hlt : i < chunks.flatten.length := (List.getElem?_eq_some_iff.mp hi).1
    rw [List.flatten_append, List.getElem?_append_left hlt, hi]

theorem drain_eq_some {count : ℕ} {ring : List Byte} (h : count ≤ ring.length) :
    drain count ring = some (ring.drop count) := if_pos h

/-- What a trim leaves: its rest, which is behind a newline when the flag says so. -/
theorem trim_eq (r : HistoryRing) (excess : ℕ) :
    ∃ cut aligned, r.trim excess = some ⟨r.history.drop cut, aligned⟩ ∧ cut ≤ r.history.length ∧
      min excess r.history.length ≤ cut ∧
      (aligned = true → ∃ i, cut = i + 1 ∧ r.history[i]? = some newline) := by
  unfold trim
  rw [drain_eq_some (min_le_right excess r.history.length), Option.bind_eq_bind, Option.bind_some]
  generalize hcount : min excess r.history.length = count
  have hcut : count ≤ r.history.length := hcount ▸ min_le_right _ _
  cases hfound : ((r.history.drop count).take uiHistoryLineScanBytes).findIdx? (· == newline) with
  | none => exact ⟨count, false, rfl, hcut, le_rfl, fun h => nomatch h⟩
  | some found =>
    obtain ⟨hlt, hnewline, -⟩ := List.findIdx?_eq_some_iff_getElem.mp hfound
    have hlen : found < (r.history.drop count).length :=
      Nat.lt_of_lt_of_le hlt (List.length_take_le' _ _)
    have hat : r.history[count + found]? = some newline := by
      rw [List.getElem_take, beq_iff_eq] at hnewline
      rw [← List.getElem?_drop, List.getElem?_eq_getElem hlen, hnewline]
    refine ⟨count + (found + 1), true, ?_, ?_, Nat.le_add_right _ _, fun _ =>
      ⟨count + found, rfl, hat⟩⟩
    · dsimp only
      rw [drain_eq_some hlen, Option.bind_some, List.drop_drop]
    · rw [List.length_drop] at hlen
      omega

/-- The space made for a chunk: nothing where there was enough. -/
theorem makeRoom_eq (r : HistoryRing) (excess : ℕ) :
    ∃ cut aligned, r.makeRoom excess = some ⟨r.history.drop cut, aligned⟩ ∧ cut ≤ r.history.length ∧
      min excess r.history.length ≤ cut ∧
      (aligned = true → (cut = 0 ∧ r.aligned = true) ∨
        ∃ i, cut = i + 1 ∧ r.history[i]? = some newline) := by
  unfold makeRoom
  split_ifs with hover
  · obtain ⟨cut, aligned, htrim, hle, hmin, hnewline⟩ := trim_eq r excess
    exact ⟨cut, aligned, htrim, hle, hmin, fun h => Or.inr (hnewline h)⟩
  · exact ⟨0, r.aligned, rfl, Nat.zero_le _, by omega, fun h => Or.inl ⟨rfl, h⟩⟩

theorem Holds.append {chunks : List (List Byte)} {r : HistoryRing} (h : Holds chunks r)
    (data : List Byte) :
    ∃ r', r.appendHistory data = some r' ∧ Holds (chunks ++ [data]) r' := by
  obtain ⟨tail, hdata⟩ : ∃ tail, tail = data.drop (data.length - uiHistoryLimitBytes) := ⟨_, rfl⟩
  have htail : tail.length = min data.length uiHistoryLimitBytes := by
    rw [hdata, List.length_drop]
    omega
  obtain ⟨cut, aligned, htrim, hcut, hmin, hnewline⟩ :=
    makeRoom_eq r (r.history.length + tail.length - uiHistoryLimitBytes)
  have hbounded := h.bounded
  have hlen := List.length_drop (i := cut) (l := r.history)
  have hflat : (chunks ++ [data]).flatten = chunks.flatten ++ data := by
    rw [List.flatten_append, List.flatten_singleton]
  have hwhole : r.history.drop cut ≠ [] → tail = data := by
    intro hne
    have hpos := List.length_pos_of_ne_nil hne
    have hzero : data.length - uiHistoryLimitBytes = 0 := by omega
    rw [hdata, hzero, List.drop_zero]
  have happend : r.appendHistory data = some ⟨r.history.drop cut ++ tail,
      if r.history.drop cut = [] ∧ tail.length < data.length then false else aligned⟩ := by
    unfold appendHistory
    dsimp only
    rw [← hdata, htrim, Option.bind_eq_bind, Option.bind_some]
  refine ⟨_, happend, ?_, ?_, ?_⟩
  · dsimp only
    rw [List.length_append]
    omega
  · rw [hflat]
    dsimp only
    by_cases hnil : r.history.drop cut = []
    · rw [hnil, List.nil_append, hdata]
      exact (List.drop_suffix _ data).trans (List.suffix_append _ data)
    · rw [hwhole hnil]
      obtain ⟨before, hbefore⟩ := (List.drop_suffix cut r.history).trans h.suffix
      exact ⟨before, by rw [← List.append_assoc, hbefore]⟩
  · intro haligned
    dsimp only at haligned ⊢
    rw [hflat, List.length_append, List.length_append]
    by_cases hnil : r.history.drop cut = []
    · have hfits : ¬ tail.length < data.length := by
        intro hlt
        rw [if_pos ⟨hnil, hlt⟩] at haligned
        cases haligned
      refine Or.inr (Or.inl ⟨chunks, data, [], rfl, ?_, by omega⟩)
      rw [hnil, List.length_nil]
      omega
    · rw [if_neg fun h => hnil h.1] at haligned
      rw [hwhole hnil]
      obtain ⟨before, hbefore⟩ := h.suffix
      have hflatlen := congrArg List.length hbefore
      rw [List.length_append] at hflatlen
      rcases hnewline haligned with ⟨rfl, hstart⟩ | ⟨i, rfl, hi⟩
      · have hsame : chunks.flatten.length + data.length -
            ((r.history.drop 0).length + data.length) =
              chunks.flatten.length - r.history.length := by
          rw [List.drop_zero]
          omega
        rw [hsame]
        exact (h.starts hstart).append data
      · refine Or.inr (Or.inr ⟨before.length + i, by omega, ?_⟩)
        have hlt : i < r.history.length := (List.getElem?_eq_some_iff.mp hi).1
        rw [hflat, List.getElem?_append_left (by omega), ← hbefore,
          List.getElem?_append_right (Nat.le_add_right _ _), Nat.add_sub_cancel_left]
        exact hi

theorem holds_empty : Holds [] empty where
  bounded := Nat.zero_le _
  suffix := List.suffix_rfl
  starts _ := Or.inl rfl

theorem holds_run (chunks : List (List Byte)) :
    ∃ r, chunks.foldlM appendHistory empty = some r ∧ Holds chunks r := by
  induction chunks using List.reverseRecOn with
  | nil => exact ⟨empty, rfl, holds_empty⟩
  | append_singleton chunks data ih =>
    obtain ⟨r, hrun, hr⟩ := ih
    obtain ⟨r', happend, hr'⟩ := hr.append data
    refine ⟨r', ?_, hr'⟩
    rw [List.foldlM_append, hrun, Option.bind_eq_bind, Option.bind_some, List.foldlM_cons, happend]
    rfl

/-- The part behind the first newline, where there is any. -/
def afterFirstLine (ring : List Byte) : Option (List Byte) := do
  let found ← ring.findIdx? (· == newline)
  let rest := ring.drop (found + 1)
  if rest = [] then none else some rest

/-- The two slices the ring is read as do not matter. -/
theorem historyFromFirstLine_eq (front back : List Byte) :
    (historyFromFirstLine front back).map (fun slices => slices.1 ++ slices.2) =
      afterFirstLine (front ++ back) := by
  unfold historyFromFirstLine afterFirstLine
  rw [List.findIdx?_append]
  cases hfront : front.findIdx? (· == newline) with
  | some found =>
    obtain ⟨hlt, -⟩ := List.findIdx?_eq_some_iff_getElem.mp hfront
    simp only [Option.some_or, Option.bind_eq_bind, Option.bind_some,
      List.drop_append_of_le_length hlt, List.append_eq_nil_iff]
    split_ifs <;> rfl
  | none =>
    simp only [Option.none_or]
    cases hback : back.findIdx? (· == newline) with
    | none => rfl
    | some found =>
      have hdrop : (front ++ back).drop (found + front.length + 1) = back.drop (found + 1) := by
        rw [List.drop_append, List.drop_eq_nil_of_le (by omega), List.nil_append]
        congr 1
        omega
      simp only [Option.map_some, Option.bind_eq_bind, Option.bind_some, hdrop]
      split_ifs <;> rfl

/-- No chunks panic the ring; it stays bounded, keeps an end of the stream, and its flag is
truthful. A cold attach reads what is behind the first newline, however the ring wraps. -/
theorem history_law :
    (∀ chunks : List (List Byte), ∃ r, chunks.foldlM appendHistory empty = some r ∧
        Holds chunks r) ∧
      ∀ front back : List Byte,
        (historyFromFirstLine front back).map (fun slices => slices.1 ++ slices.2) =
          afterFirstLine (front ++ back) :=
  ⟨holds_run, historyFromFirstLine_eq⟩

end HistoryRing
end AgentsCommander.Output
