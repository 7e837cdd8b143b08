import AgentsCommander.Typing.Chunks
import AgentsCommander.Foundation.Machine

/-! The two scanners of a chunk agree: what is no typing for one is none for the other. -/
namespace AgentsCommander.Typing
open Foundation

/-- A control byte that neither submits, edits nor separates. -/
def isInert (b : Byte) : Bool :=
  b < 0x20 && b ∉ [0x1b, 0x0d, 0x0a, 0x08, 0x09, 0x03, 0x15]

inductive Terminator where
  | bel
  | st
  deriving DecidableEq, Repr

def Terminator.bytes : Terminator → List Byte
  | .bel => [0x07]
  | .st => [0x1b, 0x5c]

/-- A well-formed escape sequence, or an inert control byte. -/
inductive Sequence where
  | control (introducer : {b : Byte // opensControl b})
      (parameters : List {b : Byte // 0x20 ≤ b ∧ b ≤ 0x3f}) (final : {b : Byte // isFinal b})
  | string (introducer : {b : Byte // opensString b})
      (text : List {b : Byte // b ≠ 0x07 ∧ b ≠ 0x1b}) (terminator : Terminator)
  | pair (second : {b : Byte // opensControl b = false ∧ opensString b = false})
  | inert (byte : {b : Byte // isInert b})

def Sequence.bytes : Sequence → List Byte
  | .control introducer parameters final =>
    0x1b :: introducer.1 :: (parameters.map (·.1) ++ [final.1])
  | .string introducer text terminator =>
    0x1b :: introducer.1 :: (text.map (·.1) ++ terminator.bytes)
  | .pair second => [0x1b, second.1]
  | .inert byte => [byte.1]

theorem opensControl_of_opensString {b : Byte} (h : opensString b) : opensControl b = false := by
  unfold opensString at h
  unfold opensControl
  grind

theorem isFinal_parameter {b : Byte} (h : 0x20 ≤ b ∧ b ≤ 0x3f) : isFinal b = false := by
  unfold isFinal
  grind

theorem skipControl_parameters (parameters : List {b : Byte // 0x20 ≤ b ∧ b ≤ 0x3f})
    (final : {b : Byte // isFinal b}) (rest : List Byte) :
    skipControl (parameters.map (·.1) ++ final.1 :: rest) = rest := by
  induction parameters with
  | nil => exact if_pos final.2
  | cons b parameters ih =>
    rw [List.map_cons, List.cons_append, skipControl, isFinal_parameter b.2]
    exact ih

theorem skipString_terminator (terminator : Terminator) (rest : List Byte) :
    skipString (terminator.bytes ++ rest) = rest := by
  cases terminator with
  | bel => rfl
  | st => rfl

theorem skipString_text (text : List {b : Byte // b ≠ 0x07 ∧ b ≠ 0x1b}) (terminator : Terminator)
    (rest : List Byte) :
    skipString (text.map (·.1) ++ (terminator.bytes ++ rest)) = rest := by
  induction text with
  | nil => exact skipString_terminator terminator rest
  | cons b text ih =>
    rw [List.map_cons, List.cons_append, skipString, if_neg b.2.1, if_neg b.2.2]
    exact ih

/-- A scanner that answers the same once an escape sequence or an inert byte is taken away. -/
structure SkipsSequences {α : Type*} (scan : List Byte → α) : Prop where
  escape : ∀ rest, scan (0x1b :: rest) = scan (skipEscape rest)
  inert : ∀ b rest, isInert b → scan (b :: rest) = scan rest

theorem SkipsSequences.append {α : Type*} {scan : List Byte → α} (h : SkipsSequences scan)
    (s : Sequence) (rest : List Byte) : scan (s.bytes ++ rest) = scan rest := by
  cases s with
  | control introducer parameters final =>
    have hskip : skipEscape (introducer.1 :: (parameters.map (·.1) ++ final.1 :: rest)) = rest := by
      rw [skipEscape, if_pos introducer.2, skipControl_parameters]
    rw [Sequence.bytes, List.cons_append, List.cons_append, List.append_assoc,
      List.singleton_append, h.escape, hskip]
  | string introducer text terminator =>
    have hskip :
        skipEscape (introducer.1 :: (text.map (·.1) ++ (terminator.bytes ++ rest))) = rest := by
      rw [skipEscape, opensControl_of_opensString introducer.2, if_neg Bool.false_ne_true,
        if_pos introducer.2, skipString_text]
    rw [Sequence.bytes, List.cons_append, List.cons_append, List.append_assoc, h.escape, hskip]
  | pair second =>
    have hskip : skipEscape (second.1 :: rest) = rest := by
      rw [skipEscape, second.2.1, second.2.2]
      rfl
    exact (h.escape _).trans (congrArg scan hskip)
  | inert byte => exact h.inert _ _ byte.2

theorem SkipsSequences.flatMap {α : Type*} {scan : List Byte → α} (h : SkipsSequences scan)
    (sequences : List Sequence) : scan (sequences.flatMap Sequence.bytes) = scan [] := by
  induction sequences with
  | nil => rfl
  | cons s sequences ih => rw [List.flatMap_cons, h.append, ih]

theorem skipsSequences_classifyFrom (pending : Bool) (effect : ChunkEffect) :
    SkipsSequences (classifyFrom pending effect) where
  escape rest := by rw [classifyFrom, if_pos rfl]
  inert b rest h := by
    unfold isInert at h
    rw [classifyFrom]
    split_ifs <;> grind

theorem skipsSequences_chunkQualifiesTypingHold : SkipsSequences chunkQualifiesTypingHold where
  escape rest := by rw [chunkQualifiesTypingHold, if_pos rfl]
  inert b rest h := by
    unfold isInert at h
    rw [chunkQualifiesTypingHold]
    split_ifs <;> grind

/-- A chunk that is no typing has no effect. -/
theorem classifyFrom_of_not_qualifies {data : List Byte} (h : chunkQualifiesTypingHold data = false)
    (pending : Bool) (effect : ChunkEffect) :
    classifyFrom pending effect data = (pending, effect) := by
  induction data using chunkQualifiesTypingHold.induct with
  | case1 => rw [classifyFrom]
  | case2 rest ih =>
    rw [chunkQualifiesTypingHold, if_pos rfl] at h
    rw [classifyFrom, if_pos rfl, ih h]
  | case3 b rest hb hq =>
    rw [chunkQualifiesTypingHold, if_neg hb, if_pos hq] at h
    exact absurd h Bool.noConfusion
  | case4 b rest hb hq hlow ih =>
    rw [chunkQualifiesTypingHold, if_neg hb, if_neg hq, if_pos hlow] at h
    simp only [not_or] at hq
    rw [classifyFrom, if_neg hb, if_neg (by tauto), if_neg (by tauto), if_neg (by tauto),
      if_pos hlow, ih h]
  | case5 b rest hb hq hlow =>
    rw [chunkQualifiesTypingHold, if_neg hb, if_neg hq, if_neg hlow] at h
    exact absurd h Bool.noConfusion

/-- Chunks of well-formed sequences and inert bytes are no input for either scanner, and what has
an effect for the first is typing for the second. -/
theorem scanners_agree :
    (∀ pending (sequences : List Sequence),
      classifyChunk pending (sequences.flatMap Sequence.bytes) = (pending, ⟨false, false⟩) ∧
      chunkQualifiesTypingHold (sequences.flatMap Sequence.bytes) = false) ∧
    ∀ pending data, ((classifyChunk pending data).2.contributed ∨
      (classifyChunk pending data).2.submitted) → chunkQualifiesTypingHold data := by
  refine ⟨fun pending sequences => ⟨?_, ?_⟩, fun pending data heffect => ?_⟩
  · rw [classifyChunk, (skipsSequences_classifyFrom _ _).flatMap, classifyFrom]
  · rw [skipsSequences_chunkQualifiesTypingHold.flatMap, chunkQualifiesTypingHold]
  · by_contra hq
    rw [classifyChunk, classifyFrom_of_not_qualifies (Bool.not_eq_true _ ▸ hq)] at heffect
    exact heffect.elim Bool.false_ne_true Bool.false_ne_true

/-- A letter typed after an arrow key. -/
theorem scanners_agree_letter : chunkQualifiesTypingHold [0x1b, 0x5b, 0x41, 0x61] :=
  scanners_agree.2 false [0x1b, 0x5b, 0x41, 0x61] (.inl (by
    simp [classifyChunk, classifyFrom, skipEscape, skipControl, opensControl, isFinal]))

theorem contributed_classifyFrom {pending : Bool} {effect : ChunkEffect} (data : List Byte)
    (h : effect.contributed = true) : (classifyFrom pending effect data).2.contributed = true := by
  fun_induction classifyFrom pending effect data with
  | case1 => exact h
  | case2 _ _ _ ih | case3 _ _ _ _ _ ih | case4 _ _ _ _ _ _ _ ih | case5 _ _ _ _ _ _ _ ih
  | case6 _ _ _ _ _ _ _ _ ih | case7 _ _ _ _ _ _ _ _ _ ih => exact ih h
  | case8 _ _ _ _ _ _ _ _ _ ih => exact ih rfl

/-- A chunk leaves input pending when some was pending before it, or when it contributes. -/
theorem pending_of_classifyFrom {pending : Bool} {effect : ChunkEffect} {data : List Byte}
    (h : (classifyFrom pending effect data).1 = true) :
    pending = true ∨ (classifyFrom pending effect data).2.contributed = true := by
  fun_induction classifyFrom pending effect data with
  | case1 pending effect => exact .inl h
  | case2 pending effect rest ih => exact ih h
  | case3 effect b rest hb hline ih => exact .inl rfl
  | case4 effect pending b rest hb hline hpending ih => exact ih h
  | case5 pending effect b rest hb hline hclear ih => exact (ih h).imp_left (nomatch ·)
  | case6 pending effect b rest hb hline hclear hblank ih => exact ih h
  | case7 pending effect b rest hb hline hclear hblank hlow ih => exact ih h
  | case8 pending effect b rest hb hline hclear hblank hlow ih =>
    exact .inr (contributed_classifyFrom rest rfl)

namespace SubstantiveInputTracker

inductive TrackerEvent where
  | feed (id : Uuid) (data : List Byte) (now : Instant)
  | reset (id : Uuid)

/-- The answer to a chunk is whether it completes a submission. -/
def tracker : Machine SubstantiveInputTracker TrackerEvent Bool where
  step
    | t, .feed id data now => ((t.feed id data now).2, (t.feed id data now).1)
    | t, .reset id => (t.reset id, false)

/-- Input is pending for the sessions that have the time of its last contribution. -/
def Dated (t : SubstantiveInputTracker) : Prop :=
  ∀ id, t.pending id = (t.pendingSince.lookup id).isSome

theorem pending_reset (t : SubstantiveInputTracker) (id other : Uuid) :
    (t.reset id).pending other = if other = id then false else t.pending other := by
  unfold pending reset
  rw [Assoc.lookup_erase_eq]
  split_ifs <;> rfl

theorem pending_feed (t : SubstantiveInputTracker) (id other : Uuid) (data : List Byte)
    (now : Instant) : (t.feed id data now).2.pending other =
      if other = id then (classifyChunk (t.pending id) data).1 else t.pending other := by
  unfold pending feed
  rw [Assoc.lookup_insert_eq]
  split_ifs <;> rfl

theorem pendingSince_feed (t : SubstantiveInputTracker) (id : Uuid) (data : List Byte)
    (now : Instant) : (t.feed id data now).2.pendingSince =
      if !(classifyChunk (t.pending id) data).1 then t.pendingSince.erase id
      else if (classifyChunk (t.pending id) data).2.contributed then t.pendingSince.insert id now
      else t.pendingSince := rfl

theorem Dated.reset {t : SubstantiveInputTracker} (h : t.Dated) (id : Uuid) :
    (t.reset id).Dated := by
  intro other
  rw [pending_reset]
  unfold SubstantiveInputTracker.reset
  rw [Assoc.lookup_erase_eq]
  split_ifs
  · rfl
  · exact h other

theorem Dated.feed {t : SubstantiveInputTracker} (h : t.Dated) (id : Uuid) (data : List Byte)
    (now : Instant) : (t.feed id data now).2.Dated := by
  intro other
  have hkeep : (classifyChunk (t.pending id) data).1 = true →
      t.pending id = true ∨ (classifyChunk (t.pending id) data).2.contributed = true :=
    pending_of_classifyFrom
  rw [pending_feed, pendingSince_feed]
  cases hnow : (classifyChunk (t.pending id) data).1 with
  | false =>
    rw [Bool.not_false, if_pos rfl, Assoc.lookup_erase_eq]
    split_ifs
    · rfl
    · exact h other
  | true =>
    rw [Bool.not_true, if_neg Bool.false_ne_true]
    cases hnew : (classifyChunk (t.pending id) data).2.contributed with
    | true =>
      rw [if_pos rfl, Assoc.lookup_insert_eq]
      split_ifs
      · rfl
      · exact h other
    | false =>
      rw [if_neg Bool.false_ne_true]
      split_ifs with ho
      · have hold : t.pending id = true :=
          (hkeep hnow).resolve_right (hnew ▸ Bool.false_ne_true)
        rw [ho, ← h id, hold]
      · exact h other

/-- In every run, pending input is dated and nothing else is. -/
theorem dated_run (events : List TrackerEvent) : (tracker.run default events).Dated := by
  refine Machine.run_inv_free (P := Dated) (fun t e h => ?_) (fun id => rfl) events
  cases e with
  | feed id data now => exact h.feed id data now
  | reset id => exact h.reset id

end SubstantiveInputTracker

end AgentsCommander.Typing
