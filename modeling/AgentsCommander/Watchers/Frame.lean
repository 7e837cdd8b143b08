import AgentsCommander.Foundation.Machine
import Mathlib.Order.Basic
import Mathlib.Tactic.Common

/-! What the watcher engine makes of one frame: which physical rows became evaluable. Each line
followed through the shifts: it is evaluated when it arrives complete, or one tick after it was
written, and never twice for one writing. -/
namespace AgentsCommander.Watchers
open Foundation

/-- The size a backend reports; its sequence number is not read here. -/
structure FrameStamp where
  rows : UInt16
  cols : UInt16
  deriving DecidableEq

structure ScreenFrame where
  rows : List String
  cursorRow : UInt16
  stamp : Option FrameStamp

/-- How well the previous frame lines up with the current one at a shift of `k`. -/
structure Alignment where
  k : ℕ
  agree : ℕ
  overlap : ℕ

def Alignment.lostTheScreen (a : Alignment) : Bool := 2 * a.agree < a.overlap

def alignmentAt (prev curr : List UInt64) (rows k : ℕ) : Alignment :=
  let overlap := rows - k
  ⟨k, ((List.range overlap).filter fun i => prev[i + k]? == curr[i]?).length, overlap⟩

/-- The shift that best explains the current frame; ties go to the smallest. -/
def bestShift (prev curr : List UInt64) : Alignment :=
  let rows := min curr.length prev.length
  (List.range rows).foldl (fun best k =>
    let here := alignmentAt prev curr rows k
    if best.agree < here.agree then here else best) ⟨0, 0, rows⟩

/-- The flags move up by `k`; the rows that just arrived have none. -/
def shiftDirty (dirty : List Bool) (k : ℕ) : List Bool :=
  if k = 0 then dirty
  else if dirty.length ≤ k then List.replicate dirty.length false
  else dirty.drop k ++ List.replicate k false

structure FrameDiffState where
  prevHashes : List UInt64
  dirty : List Bool
  size : Option (UInt16 × UInt16)
  evaluatedSinceReseed : Bool
  possiblyMissedFrames : ℕ

namespace FrameDiffState

def default : FrameDiffState := ⟨[], [], none, false, 0⟩

/-- What becomes of one row: whether it is evaluated, and its flag. -/
def judgeRow (prevHashes : List UInt64) (k rows cursorRow row : ℕ) (hash : UInt64)
    (dirty : Bool) : Bool × Bool :=
  let arrivedByScroll : Bool := 1 ≤ k ∧ rows - k ≤ row
  if arrivedByScroll ∧ row ≠ cursorRow then (true, false)
  else
    let previous := if arrivedByScroll then none else prevHashes[row + k]?
    if previous = some hash then (dirty, false) else (false, true)

/-- The rows from `row` on. A row without a flag is passed over. -/
def judgeRows (judge : ℕ → UInt64 → Bool → Bool × Bool) :
    ℕ → List UInt64 → List Bool → List ℕ × List Bool
  | row, hash :: curr, flag :: dirty =>
    let verdict := judge row hash flag
    let (evaluate, rest) := judgeRows judge (row + 1) curr dirty
    (if verdict.1 then row :: evaluate else evaluate, verdict.2 :: rest)
  | _, _, dirty => ([], dirty)

section
variable (hashRow : String → UInt64)

def hashRows (rows : List String) : List UInt64 := rows.map hashRow

def advance (s : FrameDiffState) (frame : ScreenFrame) : FrameDiffState × List ℕ :=
  let curr := hashRows hashRow frame.rows
  let size := frame.stamp.map fun stamp => (stamp.rows, stamp.cols)
  let firstTick := s.prevHashes.isEmpty
  let desynced := s.prevHashes.length ≠ curr.length ∨ s.dirty.length ≠ curr.length
  let reflowed := size = none ∨ s.size ≠ size ∨ desynced
  if firstTick ∨ reflowed then
    let missed := !firstTick && s.evaluatedSinceReseed
    (⟨curr, List.replicate frame.rows.length false, size, false,
      s.possiblyMissedFrames + missed.toNat⟩, [])
  else
    let alignment := bestShift s.prevHashes curr
    let (evaluate, dirty) := judgeRows
      (judgeRow s.prevHashes alignment.k curr.length frame.cursorRow.toNat) 0 curr
      (shiftDirty s.dirty alignment.k)
    (⟨curr, dirty, size, s.evaluatedSinceReseed || !evaluate.isEmpty,
      s.possiblyMissedFrames + alignment.lostTheScreen.toNat⟩, evaluate)

/-- The diff of one session, frame after frame. -/
def frameDiff : Machine FrameDiffState ScreenFrame (List ℕ) := ⟨advance hashRow⟩

end

theorem length_shiftDirty (dirty : List Bool) (k : ℕ) :
    (shiftDirty dirty k).length = dirty.length := by
  unfold shiftDirty
  split_ifs with h0 hk
  · rfl
  · exact List.length_replicate
  · rw [List.length_append, List.length_drop, List.length_replicate]
    omega

theorem getElem?_shiftDirty {dirty : List Bool} {k i : ℕ} (h : i + k < dirty.length) :
    (shiftDirty dirty k)[i]? = dirty[i + k]? := by
  unfold shiftDirty
  split_ifs with h0 hk
  · rw [h0, Nat.add_zero]
  · omega
  · rw [List.getElem?_append_left (by rw [List.length_drop]; omega), List.getElem?_drop,
      Nat.add_comm k i]

section
variable {judge : ℕ → UInt64 → Bool → Bool × Bool}

theorem length_judgeRows (row : ℕ) (curr : List UInt64) (dirty : List Bool) :
    (judgeRows judge row curr dirty).2.length = dirty.length := by
  induction curr generalizing row dirty with
  | nil => rw [judgeRows]; exact fun _ _ _ _ h => nomatch h
  | cons hash curr ih =>
    cases dirty with
    | nil => rfl
    | cons flag dirty => exact congrArg (· + 1) (ih (row + 1) dirty)

/-- The rows evaluated, from the verdicts. -/
theorem mem_judgeRows {row r : ℕ} {curr : List UInt64} {dirty : List Bool} :
    r ∈ (judgeRows judge row curr dirty).1 ↔ ∃ i hash flag, r = row + i ∧ curr[i]? = some hash ∧
      dirty[i]? = some flag ∧ (judge r hash flag).1 = true := by
  induction curr generalizing row dirty with
  | nil => simp [judgeRows]
  | cons hash curr ih =>
    cases dirty with
    | nil => simp [judgeRows]
    | cons flag dirty =>
      have hhead : r ∈ (judgeRows judge row (hash :: curr) (flag :: dirty)).1 ↔
          (r = row ∧ (judge row hash flag).1 = true) ∨
            r ∈ (judgeRows judge (row + 1) curr dirty).1 := by
        rw [judgeRows]
        dsimp only
        split_ifs with hv <;> simp [hv]
      rw [hhead, ih]
      constructor
      · rintro (⟨rfl, hv⟩ | ⟨i, h, f, rfl, hcurr, hdirty, hv⟩)
        · exact ⟨0, hash, flag, rfl, rfl, rfl, hv⟩
        · exact ⟨i + 1, h, f, by omega, hcurr, hdirty, hv⟩
      · rintro ⟨i, h, f, rfl, hcurr, hdirty, hv⟩
        cases i with
        | zero =>
          cases hcurr
          cases hdirty
          exact Or.inl ⟨rfl, hv⟩
        | succ i => exact Or.inr ⟨i, h, f, by omega, hcurr, hdirty, hv⟩

theorem getElem?_judgeRows {row i : ℕ} {curr : List UInt64} {dirty : List Bool} {hash : UInt64}
    {flag : Bool} (hcurr : curr[i]? = some hash) (hdirty : dirty[i]? = some flag) :
    (judgeRows judge row curr dirty).2[i]? = some (judge (row + i) hash flag).2 := by
  induction i generalizing row curr dirty with
  | zero =>
    cases curr with
    | nil => cases hcurr
    | cons h curr =>
      cases dirty with
      | nil => cases hdirty
      | cons f dirty =>
        cases hcurr
        cases hdirty
        rfl
  | succ i ih =>
    cases curr with
    | nil => cases hcurr
    | cons h curr =>
      cases dirty with
      | nil => cases hdirty
      | cons f dirty =>
        have hrow : row + (i + 1) = row + 1 + i := by omega
        rw [hrow]
        exact ih hcurr hdirty

theorem pairwise_judgeRows (row : ℕ) (curr : List UInt64) (dirty : List Bool) :
    (judgeRows judge row curr dirty).1.Pairwise (· < ·) := by
  induction curr generalizing row dirty with
  | nil => simp [judgeRows]
  | cons hash curr ih =>
    cases dirty with
    | nil => exact List.Pairwise.nil
    | cons flag dirty =>
      rw [judgeRows]
      dsimp only
      split_ifs
      · refine List.pairwise_cons.mpr ⟨fun r hr => ?_, ih (row + 1) dirty⟩
        obtain ⟨i, -, -, rfl, -⟩ := mem_judgeRows.mp hr
        omega
      · exact ih (row + 1) dirty

end
end FrameDiffState
end AgentsCommander.Watchers

namespace AgentsCommander.Watchers.FrameDiffState
open Foundation

section
variable (hashRow : String → UInt64) (frames : ℕ → ScreenFrame)

def hashesAt (t : ℕ) : List UInt64 := hashRows hashRow (frames t).rows

/-- The state the frame of this tick finds. -/
def stateAt (t : ℕ) : FrameDiffState :=
  (frameDiff hashRow).run default ((List.range t).map frames)

def selectedAt (t : ℕ) : List ℕ := (frameDiff hashRow).answer (stateAt hashRow frames t) (frames t)

/-- How far the screen is believed to scroll between a tick and the next. -/
def shiftAfter (t : ℕ) : ℕ :=
  (bestShift (hashesAt hashRow frames t) (hashesAt hashRow frames (t + 1))).k

/-- The line in row `j` at one tick is in row `i` at a later one. -/
inductive SameLine (s j : ℕ) : ℕ → ℕ → Prop
  | here : SameLine s j s j
  | next {t i : ℕ} (h : SameLine s j t (i + shiftAfter hashRow frames t)) : SameLine s j (t + 1) i

variable (rows : ℕ)

/-- The line of this row came into view at tick `t + 1`. -/
def Arrived (t i : ℕ) : Prop := i < rows ∧ rows ≤ i + shiftAfter hashRow frames t

def Unchanged (t i : ℕ) : Prop := i + shiftAfter hashRow frames t < rows ∧
  (hashesAt hashRow frames (t + 1))[i]? =
    (hashesAt hashRow frames t)[i + shiftAfter hashRow frames t]?

def Changed (t i : ℕ) : Prop := i + shiftAfter hashRow frames t < rows ∧
  (hashesAt hashRow frames (t + 1))[i]? ≠
    (hashesAt hashRow frames t)[i + shiftAfter hashRow frames t]?

/-- Something was written to the line, or is just being written. -/
def Written (t i : ℕ) : Prop := Changed hashRow frames rows t i ∨
  Arrived hashRow frames rows t i ∧ i = (frames (t + 1)).cursorRow.toNat

/-- The line in row `i` at tick `t + 1` was written and has not been selected since. -/
def WrittenSinceSelected (t i : ℕ) : Prop := ∃ s j, s < t ∧
  SameLine hashRow frames (s + 1) j (t + 1) i ∧ Written hashRow frames rows s j ∧
  ∀ u l, s + 1 ≤ u → u ≤ t → SameLine hashRow frames u l (t + 1) i →
    l ∉ selectedAt hashRow frames u

/-- What is selected, where the frames keep their size. -/
structure SelectionLaw : Prop where
  first : selectedAt hashRow frames 0 = []
  sound : ∀ t, ∀ i ∈ selectedAt hashRow frames (t + 1),
    Arrived hashRow frames rows t i ∧ i ≠ (frames (t + 1)).cursorRow.toNat ∨
      Unchanged hashRow frames rows t i ∧ WrittenSinceSelected hashRow frames rows t i
  complete : ∀ t i, Changed hashRow frames rows t (i + shiftAfter hashRow frames (t + 1)) →
    Unchanged hashRow frames rows (t + 1) i → i ∈ selectedAt hashRow frames (t + 2)

/-- Every frame has the same stamp and as many rows. -/
structure Steady (stamp : FrameStamp) : Prop where
  stamp : ∀ t, (frames t).stamp = some stamp
  rows : ∀ t, (frames t).rows.length = rows

end

section
variable {hashRow : String → UInt64} {frames : ℕ → ScreenFrame} {rows : ℕ} {stamp : FrameStamp}

variable (hashRow) in
/-- What a frame leaves behind, whatever it finds. -/
theorem advance_keeps (s : FrameDiffState) (frame : ScreenFrame) :
    (s.advance hashRow frame).1.prevHashes = hashRows hashRow frame.rows ∧
      (s.advance hashRow frame).1.dirty.length = frame.rows.length ∧
      (s.advance hashRow frame).1.size = frame.stamp.map fun stamp => (stamp.rows, stamp.cols) := by
  have hlen : (hashRows hashRow frame.rows).length = frame.rows.length := List.length_map _
  unfold advance
  dsimp only
  split_ifs with h
  · exact ⟨rfl, List.length_replicate, rfl⟩
  · refine ⟨rfl, ?_, rfl⟩
    rw [length_judgeRows, length_shiftDirty]
    by_contra hne
    exact h (Or.inr (Or.inr (Or.inr (Or.inr (hlen ▸ hne)))))

variable (hashRow) in
theorem advance_selects (s : FrameDiffState) (frame : ScreenFrame) :
    (s.advance hashRow frame).2.Pairwise (· < ·) ∧
      ∀ i ∈ (s.advance hashRow frame).2, i < frame.rows.length := by
  unfold advance
  dsimp only
  split_ifs
  · exact ⟨List.Pairwise.nil, fun _ h => nomatch h⟩
  · refine ⟨pairwise_judgeRows _ _ _, fun i hi => ?_⟩
    obtain ⟨j, hash, flag, rfl, hcurr, -⟩ := mem_judgeRows.mp hi
    obtain ⟨hj, -⟩ := List.getElem?_eq_some_iff.mp hcurr
    rw [Nat.zero_add]
    exact hj.trans_eq (List.length_map _)

theorem stateAt_succ (t : ℕ) : stateAt hashRow frames (t + 1) =
    ((stateAt hashRow frames t).advance hashRow (frames t)).1 := by
  unfold stateAt
  rw [List.range_succ, List.map_append, List.map_singleton, Machine.run_concat]
  rfl

theorem length_hashesAt (h : Steady frames rows stamp) (t : ℕ) :
    (hashesAt hashRow frames t).length = rows := (List.length_map _).trans (h.rows t)

variable (hashRow) in
/-- A frame of the same size is compared row by row. -/
theorem advance_steady (h : Steady frames rows stamp) (hrows : rows ≠ 0) (t : ℕ) :
    let k := shiftAfter hashRow frames t
    let judged := judgeRows (judgeRow (hashesAt hashRow frames t) k rows
      (frames (t + 1)).cursorRow.toNat) 0 (hashesAt hashRow frames (t + 1))
      (shiftDirty (stateAt hashRow frames (t + 1)).dirty k)
    selectedAt hashRow frames (t + 1) = judged.1 ∧
      (stateAt hashRow frames (t + 2)).dirty = judged.2 := by
  obtain ⟨hprev, hdirty, hsize⟩ := advance_keeps hashRow (stateAt hashRow frames t)
    (frames t)
  rw [← stateAt_succ] at hprev hdirty hsize
  rw [h.stamp t] at hsize
  rw [h.rows t] at hdirty
  have hlen : (hashRows hashRow (frames (t + 1)).rows).length = rows := length_hashesAt h (t + 1)
  have hprevlen : (stateAt hashRow frames (t + 1)).prevHashes.length = rows := by
    rw [hprev]
    exact length_hashesAt h t
  have hcompare : ¬ ((stateAt hashRow frames (t + 1)).prevHashes.isEmpty = true ∨
      (frames (t + 1)).stamp.map (fun stamp => (stamp.rows, stamp.cols)) = none ∨
      (stateAt hashRow frames (t + 1)).size ≠
        (frames (t + 1)).stamp.map (fun stamp => (stamp.rows, stamp.cols)) ∨
      (stateAt hashRow frames (t + 1)).prevHashes.length ≠
        (hashRows hashRow (frames (t + 1)).rows).length ∨
      (stateAt hashRow frames (t + 1)).dirty.length ≠
        (hashRows hashRow (frames (t + 1)).rows).length) := by
    rw [h.stamp (t + 1), hsize, hlen, hprevlen, hdirty, List.isEmpty_iff_length_eq_zero, hprevlen]
    simp [hrows]
  have hadvance : (stateAt hashRow frames (t + 1)).advance hashRow (frames (t + 1)) = _ :=
    if_neg hcompare
  rw [stateAt_succ (t + 1)]
  unfold selectedAt Machine.answer frameDiff
  dsimp only
  rw [hadvance]
  dsimp only
  rw [hprev, hlen]
  exact ⟨rfl, rfl⟩

variable (hashRow) in
theorem hash_at (h : Steady frames rows stamp) {t i : ℕ} (hi : i < rows) :
    ∃ hash, (hashesAt hashRow frames t)[i]? = some hash :=
  ⟨_, List.getElem?_eq_getElem (by rwa [length_hashesAt h])⟩

/-- What becomes of one row. -/
theorem row_steady (h : Steady frames rows stamp) {t i : ℕ} (hi : i < rows) {hash : UInt64}
    (hhash : (hashesAt hashRow frames (t + 1))[i]? = some hash) {flag : Bool}
    (hflag : (shiftDirty (stateAt hashRow frames (t + 1)).dirty (shiftAfter hashRow frames t))[i]? =
      some flag) :
    let verdict := judgeRow (hashesAt hashRow frames t) (shiftAfter hashRow frames t) rows
      (frames (t + 1)).cursorRow.toNat i hash flag
    (i ∈ selectedAt hashRow frames (t + 1) ↔ verdict.1 = true) ∧
      (stateAt hashRow frames (t + 2)).dirty[i]? = some verdict.2 := by
  have hrows : rows ≠ 0 := by omega
  obtain ⟨hselected, hdirty⟩ := advance_steady hashRow h hrows t
  dsimp only
  rw [hselected, hdirty]
  constructor
  · rw [mem_judgeRows]
    constructor
    · rintro ⟨j, hash', flag', rfl, hhash', hflag', hv⟩
      rw [Nat.zero_add] at hhash hflag
      cases hhash.symm.trans hhash'
      cases hflag.symm.trans hflag'
      exact hv
    · intro hv
      exact ⟨i, hash, flag, (Nat.zero_add i).symm, hhash, hflag, hv⟩
  · rw [getElem?_judgeRows hhash hflag, Nat.zero_add]

theorem judgeRow_arrived {prev : List UInt64} {k cursorRow row : ℕ} {hash : UInt64} {flag : Bool}
    (hrow : row < rows) (hk : rows ≤ row + k) :
    judgeRow prev k rows cursorRow row hash flag =
      (decide (row ≠ cursorRow), decide (row = cursorRow)) := by
  have harrived : decide (1 ≤ k ∧ rows - k ≤ row) = true := decide_eq_true (by omega)
  unfold judgeRow
  dsimp only
  rw [harrived]
  by_cases hc : row = cursorRow <;> simp [hc]

theorem judgeRow_inPlace {prev : List UInt64} {k cursorRow row : ℕ} {hash : UInt64} {flag : Bool}
    (hk : row + k < rows) :
    judgeRow prev k rows cursorRow row hash flag =
      if prev[row + k]? = some hash then (flag, false) else (false, true) := by
  have hplace : decide (1 ≤ k ∧ rows - k ≤ row) = false := decide_eq_false (by omega)
  unfold judgeRow
  dsimp only
  rw [hplace]
  rfl

theorem length_dirty (h : Steady frames rows stamp) (t : ℕ) :
    (stateAt hashRow frames (t + 1)).dirty.length = rows := by
  rw [stateAt_succ, (advance_keeps _ _ _).2.1]
  exact h.rows t

/-- The flags after a tick say which lines were written at it. -/
theorem dirty_iff_written (h : Steady frames rows stamp) {t i : ℕ} (hi : i < rows) :
    (stateAt hashRow frames (t + 2)).dirty[i]? = some true ↔ Written hashRow frames rows t i := by
  obtain ⟨hash, hhash⟩ := hash_at hashRow h (t := t + 1) hi
  have hlen : i < (shiftDirty (stateAt hashRow frames (t + 1)).dirty
      (shiftAfter hashRow frames t)).length := by
    rwa [length_shiftDirty, length_dirty h]
  obtain ⟨-, hdirty⟩ := row_steady h hi hhash (List.getElem?_eq_getElem hlen)
  rw [hdirty]
  unfold Written Changed Arrived
  rcases lt_or_ge (i + shiftAfter hashRow frames t) rows with hk | hk
  · have hstays := Nat.not_le.mpr hk
    rw [judgeRow_inPlace hk, hhash]
    split_ifs with hsame
    · simp [hk, hstays, hsame]
    · simp [hk, hstays, Ne.symm hsame]
  · simp [judgeRow_arrived hi hk, hi, hk, Nat.not_lt.mpr hk]

/-- A row is selected when it arrived complete, or when it is unchanged and flagged. -/
theorem selected_iff (h : Steady frames rows stamp) {t i : ℕ} (hi : i < rows) :
    i ∈ selectedAt hashRow frames (t + 1) ↔
      Arrived hashRow frames rows t i ∧ i ≠ (frames (t + 1)).cursorRow.toNat ∨
        Unchanged hashRow frames rows t i ∧
          (stateAt hashRow frames (t + 1)).dirty[i + shiftAfter hashRow frames t]? = some true := by
  obtain ⟨hash, hhash⟩ := hash_at hashRow h (t := t + 1) hi
  have hlen : i < (shiftDirty (stateAt hashRow frames (t + 1)).dirty
      (shiftAfter hashRow frames t)).length := by
    rwa [length_shiftDirty, length_dirty h]
  have hflag := List.getElem?_eq_getElem hlen
  rw [(row_steady h hi hhash hflag).1]
  unfold Arrived Unchanged
  rcases lt_or_ge (i + shiftAfter hashRow frames t) rows with hk | hk
  · have hstays := Nat.not_le.mpr hk
    rw [judgeRow_inPlace hk, hhash, ← getElem?_shiftDirty (by rwa [length_dirty h]), hflag]
    split_ifs with hsame
    · simp [hk, hstays, hsame]
    · simp [hk, hstays, Ne.symm hsame]
  · simp [judgeRow_arrived hi hk, hi, hk, Nat.not_lt.mpr hk]

theorem selected_zero : selectedAt hashRow frames 0 = [] := by
  unfold selectedAt Machine.answer frameDiff
  dsimp only
  exact congrArg Prod.snd (if_pos (Or.inl rfl))

theorem lt_of_selected (h : Steady frames rows stamp) {t i : ℕ}
    (hi : i ∈ selectedAt hashRow frames t) : i < rows :=
  ((advance_selects _ _ _).2 i hi).trans_eq (h.rows t)

/-- No line is selected at the tick it is written. -/
theorem not_selected_of_written (h : Steady frames rows stamp) {t i : ℕ} (hi : i < rows)
    (hw : Written hashRow frames rows t i) : i ∉ selectedAt hashRow frames (t + 1) := by
  rw [selected_iff h hi]
  rintro (⟨harrived, hcursor⟩ | ⟨hsame, -⟩)
  · rcases hw with hchanged | ⟨-, hc⟩
    · exact absurd hchanged.1 (Nat.not_lt.mpr harrived.2)
    · exact hcursor hc
  · rcases hw with hchanged | ⟨harrived, -⟩
    · exact hchanged.2 hsame.2
    · exact absurd hsame.1 (Nat.not_lt.mpr harrived.2)

theorem SameLine.eq_of_adjacent {u l i : ℕ} (h : SameLine hashRow frames u l (u + 1) i) :
    l = i + shiftAfter hashRow frames u := by
  have hle : ∀ {t r : ℕ}, SameLine hashRow frames u l t r → u ≤ t := by
    intro t r hline
    induction hline with
    | here => exact le_rfl
    | next _ ih => exact Nat.le_succ_of_le ih
  cases h with
  | next hline =>
    generalize hr : i + shiftAfter hashRow frames u = r at hline
    cases hline with
    | here => rfl
    | next hline => exact absurd (hle hline) (Nat.not_succ_le_self _)

theorem selectionLaw (h : Steady frames rows stamp) : SelectionLaw hashRow frames rows where
  first := selected_zero
  sound t i hi := by
    have hrow := lt_of_selected h hi
    refine ((selected_iff h hrow).mp hi).imp_right fun ⟨hsame, hdirty⟩ => ⟨hsame, ?_⟩
    cases t with
    | zero =>
      have hreplicate : (stateAt hashRow frames 1).dirty =
          List.replicate (frames 0).rows.length false :=
        congrArg (fun r : FrameDiffState × List ℕ => r.1.dirty) (if_pos (Or.inl rfl))
      rw [hreplicate] at hdirty
      cases (List.mem_replicate.mp (List.mem_of_getElem? hdirty)).2
    | succ t =>
      have hwritten := (dirty_iff_written h hsame.1).mp hdirty
      refine ⟨t, _, t.lt_succ_self, .next .here, hwritten, fun u l hu hle hline => ?_⟩
      obtain rfl : u = t + 1 := le_antisymm hle hu
      rw [hline.eq_of_adjacent]
      exact not_selected_of_written h hsame.1 hwritten
  complete t i hchanged hsame := by
    have hi : i < rows := (Nat.le_add_right _ _).trans_lt hsame.1
    refine (selected_iff h hi).mpr (Or.inr ⟨hsame, ?_⟩)
    exact (dirty_iff_written h hsame.1).mpr (Or.inl hchanged)

/-- Every frame leaves as many hashes and flags as it has rows, and selects rows in order. Where
the frames keep their size, they are the rows whose lines have something new to say. -/
theorem frameDiff_law (hashRow : String → UInt64) (frames : ℕ → ScreenFrame) :
    (∀ t, (selectedAt hashRow frames t).Pairwise (· < ·) ∧
      (∀ i ∈ selectedAt hashRow frames t, i < (frames t).rows.length) ∧
      (stateAt hashRow frames (t + 1)).dirty.length = (frames t).rows.length ∧
      (stateAt hashRow frames (t + 1)).prevHashes.length = (frames t).rows.length) ∧
    ∀ rows stamp, Steady frames rows stamp → SelectionLaw hashRow frames rows := by
  refine ⟨fun t => ?_, fun rows stamp h => selectionLaw h⟩
  obtain ⟨hsorted, hrange⟩ := advance_selects hashRow (stateAt hashRow frames t) (frames t)
  obtain ⟨hprev, hdirty, -⟩ := advance_keeps hashRow (stateAt hashRow frames t)
    (frames t)
  rw [← stateAt_succ] at hprev hdirty
  exact ⟨hsorted, hrange, hdirty, (congrArg List.length hprev).trans (List.length_map _)⟩

/-- A line written at one tick and left alone at the next. -/
theorem frameDiff_law_written :
    1 ∈ selectedAt (fun row => row.length.toUInt64)
      (fun t => ⟨if t = 0 then ["", ""] else ["", "a"], 0, some ⟨2, 3⟩⟩) 2 := by
  obtain ⟨-, hlaw⟩ := frameDiff_law (fun row => row.length.toUInt64)
    (fun t => ⟨if t = 0 then ["", ""] else ["", "a"], 0, some ⟨2, 3⟩⟩)
  have hsteady := hlaw 2 ⟨2, 3⟩ ⟨fun _ => rfl, fun t => by dsimp only; split <;> rfl⟩
  exact hsteady.complete 0 1 ⟨by decide, by decide⟩ ⟨by decide, by decide⟩

end
end AgentsCommander.Watchers.FrameDiffState
