import AgentsCommander.Output.Delivery

/-! What every window has received of what was flushed, and how each section of the code keeps
it. -/
namespace AgentsCommander.Output
open Foundation

/-- The chunk came after the sequence. -/
def Chunk.above (s : ℕ) (c : Chunk) : Bool := c.sequence.any (s < ·)

def bytesAbove (s : ℕ) (chunks : List Chunk) : List Byte :=
  (chunks.filter (Chunk.above s)).flatMap (·.data)

theorem bytesAbove_append (s : ℕ) (chunks more : List Chunk) :
    bytesAbove s (chunks ++ more) = bytesAbove s chunks ++ bytesAbove s more := by
  unfold bytesAbove
  rw [List.filter_append, List.flatMap_append]

theorem bytesAbove_eq_nil {s : ℕ} {chunks : List Chunk} (h : ∀ c ∈ chunks, c.above s = false) :
    bytesAbove s chunks = [] := by
  have hfilter : chunks.filter (Chunk.above s) = [] :=
    List.filter_eq_nil_iff.mpr fun c hc => by simp [h c hc]
  unfold bytesAbove
  rw [hfilter]
  rfl

theorem bytesAbove_of_empty {s : ℕ} {chunks : List Chunk} (h : chunks.flatMap (·.data) = []) :
    bytesAbove s chunks = [] := by
  refine List.flatMap_eq_nil_iff.mpr fun c hc => ?_
  exact List.flatMap_eq_nil_iff.mp h c (List.mem_filter.mp hc).1

theorem not_above {n : ℕ} {c : Chunk} : c.above n = false ↔ ∀ m ∈ c.sequence, m ≤ n := by
  cases hc : c.sequence <;> simp [Chunk.above, hc]

theorem not_above_mono {m n : ℕ} {c : Chunk} (hmn : m ≤ n) (h : c.above m = false) :
    c.above n = false :=
  not_above.mpr fun k hk => Nat.le_trans (not_above.mp h k hk) hmn

/-- The bytes and the scalar sequence are those of the chunks. -/
def Describes (data : List Byte) (sequence : Option ℕ) (chunks : List Chunk) : Prop :=
  data = chunks.flatMap (·.data) ∧ sequence = chunks.getLast?.bind (·.sequence)

theorem Describes.nil : Describes [] none [] := ⟨rfl, rfl⟩

theorem Describes.concat {data : List Byte} {sequence : Option ℕ} {chunks : List Chunk}
    (h : Describes data sequence chunks) (c : Chunk) :
    Describes (data ++ c.data) c.sequence (chunks ++ [c]) := by
  refine ⟨?_, by simp⟩
  rw [h.1, List.flatMap_append]
  simp

namespace World

/-- The chunks still to be flushed. -/
def pending (w : World) : List Chunk := w.accumulator.elim [] w.contents

def received (w : World) (label : WindowLabel) : List Chunk :=
  (w.sent label).flatMap (·.chunks)

/-- Every chunk anywhere satisfies the predicate. -/
structure EveryChunk (w : World) (φ : Chunk → Prop) : Prop where
  ingested : ∀ c ∈ w.ingested, φ c
  flushed : ∀ c ∈ w.flushed, φ c
  contents : ∀ b, ∀ c ∈ w.contents b, φ c
  received : ∀ label, ∀ c ∈ w.received label, φ c

/-- One chunk came before the other. -/
def Before (c d : Chunk) : Prop := ∀ m ∈ c.sequence, ∀ n ∈ d.sequence, m < n

/-- What a window seeded at the sequence has, and what is still to come. -/
structure Reconciled (w : World) (label : WindowLabel) (s : ℕ) : Prop where
  received : bytesAbove s (w.received label) = bytesAbove s w.flushed
  settled : w.ingested.filter (Chunk.above s) =
    w.flushed.filter (Chunk.above s) ++ w.pending.filter (Chunk.above s)
  elsewhere : ∀ b, w.accumulator ≠ some b → ∀ c ∈ w.contents b, c.above s = false

/-- While the parser is available at a sequence. -/
structure InOrder (w : World) (n : ℕ) : Prop where
  bounded : w.EveryChunk fun c => c.above n = false
  ordered : w.ingested.Pairwise Before
  reconciled : ∀ label, ∀ s ∈ w.seeds label, w.Reconciled label s

structure Inv (w : World) : Prop where
  described : ∀ b, Describes (w.batches b).data (w.batches b).sequence (w.contents b)
  delivered : ∀ label, ∀ d ∈ w.sent label, Describes d.payload.data d.payload.sequence d.chunks
  known : ∀ b, w.accumulator = some b → b < w.fresh
  seeded : ∀ label, ∀ s ∈ w.seeds label, label ∈ w.attached
  inOrder : ∀ n, w.parser = some ⟨n, true⟩ → w.InOrder n

/-- Each seeded window is among the labels, or the batch has nothing above its seed. -/
def Covers (w : World) (b : BatchId) (labels : Finset WindowLabel) : Prop :=
  ∀ label, ∀ s ∈ w.seeds label, label ∈ labels ∨ ∀ c ∈ w.contents b, c.above s = false

theorem inv_registered : registered.Inv where
  described _ := .nil
  delivered _ _ h := by cases h
  known _ h := by cases h
  seeded _ _ h := by cases h
  inOrder n _ :=
    { bounded := ⟨(fun _ h => nomatch h), (fun _ h => nomatch h), (fun _ _ h => nomatch h),
        fun _ _ h => nomatch h⟩
      ordered := List.Pairwise.nil
      reconciled := fun _ _ h => nomatch h }

section Steps
variable {w : World} {n : ℕ} {b : BatchId} {label : WindowLabel} {labels : Finset WindowLabel}

theorem discard_described (h : ∀ b, Describes (w.batches b).data (w.batches b).sequence
    (w.contents b)) (b j : BatchId) : Describes ((w.discard b).batches j).data
      ((w.discard b).batches j).sequence ((w.discard b).contents j) := by
  by_cases hj : j = b
  · subst hj
    simp [discard, SessionAccumulator.discard, Describes]
  · simpa [discard, hj] using h j

theorem flush_received (w : World) (b : BatchId) (labels : Finset WindowLabel)
    (label : WindowLabel) : (w.flush b labels).received label =
      if label ∈ labels ∧ (w.batches b).data ≠ [] then w.received label ++ w.contents b
      else w.received label := by
  unfold received flush
  dsimp only
  split_ifs with h
  · rw [List.flatMap_append]
    simp
  · rfl

theorem flush_pending (w : World) (b : BatchId) (labels : Finset WindowLabel) :
    (w.flush b labels).pending = if w.accumulator = some b then [] else w.pending := by
  unfold pending flush discard
  cases hacc : w.accumulator with
  | none => simp
  | some a =>
    by_cases ha : a = b
    · simp [ha]
    · simp [ha]

theorem Reconciled.flush (hdescribed : Describes (w.batches b).data (w.batches b).sequence
    (w.contents b)) {s : ℕ} (h : w.Reconciled label s)
    (hcovers : label ∈ labels ∨ ∀ c ∈ w.contents b, c.above s = false) :
    (w.flush b labels).Reconciled label s where
  received := by
    have hflushed : (w.flush b labels).flushed = w.flushed ++ w.contents b := rfl
    rw [flush_received, hflushed, bytesAbove_append, ← h.received]
    by_cases hdata : (w.batches b).data = []
    · have hempty : bytesAbove s (w.contents b) = [] :=
        bytesAbove_of_empty (hdescribed.1.symm.trans hdata)
      rw [if_neg fun hc => hc.2 hdata, hempty, List.append_nil]
    · obtain hl | hold := hcovers
      · rw [if_pos ⟨hl, hdata⟩, bytesAbove_append]
      · have hempty : bytesAbove s (w.contents b) = [] := bytesAbove_eq_nil hold
        split_ifs
        · rw [bytesAbove_append]
        · rw [hempty, List.append_nil]
  settled := by
    have hflushed : (w.flush b labels).flushed = w.flushed ++ w.contents b := rfl
    have hingested : (w.flush b labels).ingested = w.ingested := rfl
    rw [hingested, hflushed, flush_pending, List.filter_append, h.settled]
    by_cases hacc : w.accumulator = some b
    · have hpending : w.pending = w.contents b := by simp [pending, hacc]
      rw [if_pos hacc, hpending]
      simp
    · have hnone : (w.contents b).filter (Chunk.above s) = [] :=
        List.filter_eq_nil_iff.mpr fun c hc => by simp [h.elsewhere b hacc c hc]
      rw [if_neg hacc, hnone, List.append_nil]
  elsewhere j hj c hc := by
    by_cases hjb : j = b
    · subst hjb
      simp [World.flush, discard] at hc
    · have hc' : c ∈ w.contents j := by simpa [World.flush, discard, hjb] using hc
      exact h.elsewhere j hj c hc'

theorem EveryChunk.flush {φ : Chunk → Prop} (h : w.EveryChunk φ) (b : BatchId)
    (labels : Finset WindowLabel) : (w.flush b labels).EveryChunk φ where
  ingested := h.ingested
  flushed c hc := by
    obtain hc | hc := List.mem_append.mp hc
    · exact h.flushed c hc
    · exact h.contents b c hc
  contents j c hc := by
    by_cases hj : j = b
    · subst hj
      simp [World.flush, discard] at hc
    · exact h.contents j c (by simpa [World.flush, discard, hj] using hc)
  received label c hc := by
    rw [flush_received] at hc
    split_ifs at hc
    · obtain hc | hc := List.mem_append.mp hc
      · exact h.received label c hc
      · exact h.contents b c hc
    · exact h.received label c hc

/-- A flush keeps the account of each window it covers. -/
theorem Inv.flush (h : w.Inv) (hcovers : ∀ n, w.parser = some ⟨n, true⟩ → w.Covers b labels) :
    (w.flush b labels).Inv where
  described := discard_described h.described b
  delivered label d hd := by
    unfold World.flush at hd
    dsimp only at hd
    split_ifs at hd
    · obtain hd | hd := List.mem_append.mp hd
      · exact h.delivered label d hd
      · obtain rfl := List.mem_singleton.mp hd
        exact h.described b
    · exact h.delivered label d hd
  known := h.known
  seeded := h.seeded
  inOrder n hn :=
    { bounded := (h.inOrder n hn).bounded.flush b labels
      ordered := (h.inOrder n hn).ordered
      reconciled := fun label s hs =>
        ((h.inOrder n hn).reconciled label s hs).flush (h.described b) (hcovers n hn label s hs) }

/-- A batch that is not the current one may lose what it holds. -/
theorem Inv.discard (h : w.Inv) (hb : w.accumulator ≠ some b) : (w.discard b).Inv where
  described := discard_described h.described b
  delivered := h.delivered
  known := h.known
  seeded := h.seeded
  inOrder n hn := by
    have ho := h.inOrder n hn
    have hcontents : ∀ j, ∀ c ∈ (w.discard b).contents j, c ∈ w.contents j := by
      intro j c hc
      by_cases hj : j = b
      · subst hj
        simp [World.discard] at hc
      · simpa [World.discard, hj] using hc
    have hpending : (w.discard b).pending = w.pending := by
      unfold pending World.discard
      cases hacc : w.accumulator with
      | none => rfl
      | some a =>
        have ha : a ≠ b := fun hab => hb (hab ▸ hacc)
        simp [ha]
    exact
      { bounded := ⟨ho.bounded.ingested, ho.bounded.flushed,
          fun j c hc => ho.bounded.contents j c (hcontents j c hc), ho.bounded.received⟩
        ordered := ho.ordered
        reconciled := fun label s hs =>
          have hr := ho.reconciled label s hs
          { received := hr.received
            settled := by rw [hpending]; exact hr.settled
            elsewhere := fun j hj c hc => hr.elsewhere j hj c (hcontents j c hc) } }

theorem EveryChunk.extend {φ : Chunk → Prop} (h : w.EveryChunk φ) (b : BatchId) {chunk : Chunk}
    (hc : φ chunk) : (w.extend b chunk).EveryChunk φ where
  ingested c hm := by
    obtain hm | hm := List.mem_append.mp hm
    · exact h.ingested c hm
    · obtain rfl := List.mem_singleton.mp hm
      exact hc
  flushed := h.flushed
  contents j c hm := by
    by_cases hj : j = b
    · subst hj
      obtain hm | rfl : c ∈ w.contents j ∨ c = chunk := by simpa [World.extend] using hm
      · exact h.contents j c hm
      · exact hc
    · exact h.contents j c (by simpa [World.extend, hj] using hm)
  received := h.received

/-- The next chunk goes to the current batch, or to one nobody seeded waits for. -/
theorem Inv.extend (h : w.Inv) (chunk : Chunk)
    (hnext : ∀ n, w.parser = some ⟨n, true⟩ → chunk.above n = false ∧
      (∀ c ∈ w.ingested, Before c chunk) ∧
      ∀ label, ∀ s ∈ w.seeds label, w.accumulator = some b) : (w.extend b chunk).Inv where
  described j := by
    by_cases hj : j = b
    · subst hj
      have hd := (h.described j).concat chunk
      simpa [World.extend] using hd
    · simpa [World.extend, hj] using h.described j
  delivered := h.delivered
  known := h.known
  seeded := h.seeded
  inOrder n hn := by
    have ho := h.inOrder n hn
    obtain ⟨hbound, hbefore, hcurrent⟩ := hnext n hn
    refine { bounded := ho.bounded.extend b hbound, ordered := ?_, reconciled := ?_ }
    · refine List.pairwise_append.mpr ⟨ho.ordered, List.pairwise_singleton _ _, ?_⟩
      intro c hc d hd
      obtain rfl := List.mem_singleton.mp hd
      exact hbefore c hc
    · intro label s hs
      have hr := ho.reconciled label s hs
      have hacc := hcurrent label s hs
      have hpending : (w.extend b chunk).pending = w.pending ++ [chunk] := by
        simp [pending, World.extend, hacc]
      have hingested : (w.extend b chunk).ingested = w.ingested ++ [chunk] := rfl
      have hflushed : (w.extend b chunk).flushed = w.flushed := rfl
      refine { received := hr.received, settled := ?_, elsewhere := ?_ }
      · rw [hpending, hingested, hflushed, List.filter_append, List.filter_append, hr.settled,
          List.append_assoc]
      · intro j hj c hc
        have hjb : j ≠ b := fun hjb => hj (hjb ▸ hacc)
        exact hr.elsewhere j hj c (by simpa [World.extend, hjb] using hc)

/-- The flag of the timer says nothing about the chunks. -/
theorem Inv.setTimer (h : w.Inv) (b : BatchId) (armed : Bool) : (w.setTimer b armed).Inv where
  described j := by
    by_cases hj : j = b
    · subst hj
      simpa [World.setTimer] using h.described j
    · simpa [World.setTimer, hj] using h.described j
  delivered := h.delivered
  known := h.known
  seeded := h.seeded
  inOrder n hn :=
    have ho := h.inOrder n hn
    { bounded := ⟨ho.bounded.ingested, ho.bounded.flushed, ho.bounded.contents,
        ho.bounded.received⟩
      ordered := ho.ordered
      reconciled := fun label s hs =>
        have hr := ho.reconciled label s hs
        ⟨hr.received, hr.settled, hr.elsewhere⟩ }

theorem EveryChunk.mono {φ ψ : Chunk → Prop} (h : w.EveryChunk φ) (himp : ∀ c, φ c → ψ c) :
    w.EveryChunk ψ where
  ingested c hc := himp c (h.ingested c hc)
  flushed c hc := himp c (h.flushed c hc)
  contents b c hc := himp c (h.contents b c hc)
  received label c hc := himp c (h.received label c hc)

/-- The parser's entry may break, go, or move on to a later sequence. -/
theorem Inv.setParser (h : w.Inv) (parser : Option ScreenReplayState)
    (hp : ∀ n, parser = some ⟨n, true⟩ → ∃ m ≤ n, w.parser = some ⟨m, true⟩) :
    ({ w with parser := parser } : World).Inv where
  described := h.described
  delivered := h.delivered
  known := h.known
  seeded := h.seeded
  inOrder n hn := by
    obtain ⟨m, hmn, hm⟩ := hp n hn
    have ho := h.inOrder m hm
    have hbounded := ho.bounded.mono fun _ hc => not_above_mono hmn hc
    exact
      { bounded := ⟨hbounded.ingested, hbounded.flushed, hbounded.contents, hbounded.received⟩
        ordered := ho.ordered
        reconciled := fun label s hs =>
          have hr := ho.reconciled label s hs
          ⟨hr.received, hr.settled, hr.elsewhere⟩ }

theorem Inv.process (h : w.Inv) (panics : Bool) : (w.process panics).2.Inv := by
  unfold World.process
  cases hp : w.parser with
  | none => exact h
  | some state =>
    obtain ⟨n, available⟩ := state
    cases available with
    | false => exact h
    | true =>
      dsimp only
      rw [if_pos rfl]
      split_ifs
      · exact h.setParser _ fun m hm => by cases hm
      · refine h.setParser _ fun m hm => ⟨n, ?_, hp⟩
        have hm' : n + 1 = m := by simpa using hm
        omega

theorem Inv.snapshot (h : w.Inv) (copy : Copy) : (w.snapshot copy).2.Inv := by
  have hbroken : ∀ n, ({ w with parser := some ⟨n, false⟩ } : World).Inv :=
    fun n => h.setParser _ fun m hm => by cases hm
  unfold World.snapshot
  cases hp : w.parser with
  | none => exact h
  | some state =>
    obtain ⟨n, available⟩ := state
    cases available with
    | false => exact h
    | true =>
      cases copy with
      | regrid panics => cases panics <;> first | exact h | exact hbroken n
      | panics => exact hbroken n
      | _ => exact h

theorem Inv.resize (h : w.Inv) (panics : Bool) : (w.resize panics).2.Inv := by
  unfold World.resize
  cases hp : w.parser with
  | none => exact h
  | some state =>
    dsimp only
    split_ifs
    · exact h.setParser _ fun m hm => by cases hm
    · exact h

theorem Inv.locate (h : w.Inv) : w.locate.2.Inv := by
  unfold World.locate
  by_cases hempty : w.attached = ∅
  · rw [if_pos hempty]
    exact h
  rw [if_neg hempty]
  cases hacc : w.accumulator with
  | some b => exact h
  | none =>
    have hcontents : ∀ j, ∀ c ∈ Function.update w.contents w.fresh [] j, c ∈ w.contents j := by
      intro j c hc
      by_cases hj : j = w.fresh
      · subst hj
        simp at hc
      · simpa [hj] using hc
    refine { described := fun j => ?_, delivered := h.delivered, known := ?_, seeded := h.seeded,
             inOrder := ?_ }
    · by_cases hj : j = w.fresh
      · subst hj
        simp [SessionAccumulator.new, Describes]
      · simpa [hj] using h.described j
    · intro b hb
      obtain rfl := Option.some.inj hb
      exact Nat.lt_succ_self _
    · intro n hn
      have ho := h.inOrder n hn
      refine { bounded := ?_, ordered := ho.ordered, reconciled := ?_ }
      · exact ⟨ho.bounded.ingested, ho.bounded.flushed,
          fun j c hc => ho.bounded.contents j c (hcontents j c hc), ho.bounded.received⟩
      · intro label s hs
        have hr := ho.reconciled label s hs
        refine { received := hr.received, settled := ?_, elsewhere := ?_ }
        · have hsettled := hr.settled
          simp only [pending, hacc, Option.elim] at hsettled
          simpa [pending] using hsettled
        · intro j _ c hc
          have hnone : w.accumulator ≠ some j := by rw [hacc]; exact fun hj => nomatch hj
          exact hr.elsewhere j hnone c (hcontents j c hc)

/-- The snapshot is at the parser's sequence, which no chunk is above. -/
theorem Inv.attach (h : w.Inv) (label : WindowLabel) (seed : Option ℕ)
    (hseed : ∀ n, w.parser = some ⟨n, true⟩ → ∀ s ∈ seed, s = n) :
    (w.attach label seed).2.Inv where
  described := h.described
  delivered := h.delivered
  known := h.known
  seeded other s hs := by
    by_cases hother : other = label
    · subst hother
      exact Finset.mem_insert_self _ _
    · exact Finset.mem_insert_of_mem (h.seeded other s (by simpa [World.attach, hother] using hs))
  inOrder n hn := by
    have ho := h.inOrder n hn
    have hold : ∀ other, ∀ s ∈ w.seeds other, (w.attach label seed).2.Reconciled other s :=
      fun other s hs =>
        have hr := ho.reconciled other s hs
        ⟨hr.received, hr.settled, hr.elsewhere⟩
    have hnone : ∀ chunks : List Chunk, (∀ c ∈ chunks, c.above n = false) →
        chunks.filter (Chunk.above n) = [] :=
      fun chunks hc => List.filter_eq_nil_iff.mpr fun c hm => by simp [hc c hm]
    have hnew : (w.attach label seed).2.Reconciled label n := by
      refine { received := ?_, settled := ?_,
               elsewhere := fun b _ c hc => ho.bounded.contents b c hc }
      · have hreceived := bytesAbove_eq_nil (ho.bounded.received label)
        have hflushed := bytesAbove_eq_nil ho.bounded.flushed
        exact hreceived.trans hflushed.symm
      · have hpending : ∀ c ∈ w.pending, c.above n = false := by
          intro c hc
          unfold pending at hc
          cases hacc : w.accumulator with
          | none => simp [hacc] at hc
          | some b => exact ho.bounded.contents b c (by simpa [hacc] using hc)
        have hsum : w.ingested.filter (Chunk.above n) =
            w.flushed.filter (Chunk.above n) ++ w.pending.filter (Chunk.above n) := by
          rw [hnone _ ho.bounded.ingested, hnone _ ho.bounded.flushed, hnone _ hpending]
          rfl
        exact hsum
    refine { bounded := ⟨ho.bounded.ingested, ho.bounded.flushed, ho.bounded.contents,
      ho.bounded.received⟩, ordered := ho.ordered, reconciled := fun other s hs => ?_ }
    by_cases hother : other = label
    · subst hother
      have hs' : s ∈ seed.toList ++ w.seeds other := by simpa [World.attach] using hs
      obtain hs' | hs' := List.mem_append.mp hs'
      · obtain rfl := hseed n hn s (by simpa using hs')
        exact hnew
      · exact hold other s hs'
    · exact hold other s (by simpa [World.attach, hother] using hs)

/-- Windows that leave take their seeds with them; the last one takes the batch. -/
theorem Inv.detach (h : w.Inv) (label : WindowLabel) : (w.detach label).2.Inv := by
  unfold World.detach
  by_cases hlabel : label ∈ w.attached
  · rw [if_pos hlabel]
    have hleft : ∀ other, ∀ s ∈ Function.update w.seeds label [] other,
        other ≠ label ∧ s ∈ w.seeds other := by
      intro other s hs
      by_cases hother : other = label
      · subst hother
        simp at hs
      · exact ⟨hother, by simpa [hother] using hs⟩
    dsimp only
    split_ifs with hempty
    · refine { described := h.described, delivered := h.delivered,
               known := fun b hb => (nomatch hb), seeded := fun other s hs => ?_,
               inOrder := fun n hn => ?_ }
      · obtain ⟨hother, hs'⟩ := hleft other s hs
        exact Finset.mem_erase_of_ne_of_mem hother (h.seeded other s hs')
      have ho := h.inOrder n hn
      refine { bounded := ⟨ho.bounded.ingested, ho.bounded.flushed, ho.bounded.contents,
        ho.bounded.received⟩, ordered := ho.ordered, reconciled := fun other s hs => ?_ }
      obtain ⟨hother, hs'⟩ := hleft other s hs
      have hattached := Finset.mem_erase_of_ne_of_mem hother (h.seeded other s hs')
      rw [hempty] at hattached
      cases hattached
    · refine { described := h.described, delivered := h.delivered, known := h.known,
               seeded := fun other s hs => ?_, inOrder := fun n hn => ?_ }
      · obtain ⟨hother, hs'⟩ := hleft other s hs
        exact Finset.mem_erase_of_ne_of_mem hother (h.seeded other s hs')
      have ho := h.inOrder n hn
      refine { bounded := ⟨ho.bounded.ingested, ho.bounded.flushed, ho.bounded.contents,
        ho.bounded.received⟩, ordered := ho.ordered, reconciled := fun other s hs => ?_ }
      obtain ⟨hother, hs'⟩ := hleft other s hs
      have hr := ho.reconciled other s hs'
      exact ⟨hr.received, hr.settled, hr.elsewhere⟩
  · rw [if_neg hlabel]
    exact h

theorem Inv.removeAttachments (h : w.Inv) : w.removeAttachments.2.Inv where
  described := h.described
  delivered := h.delivered
  known _ hb := nomatch hb
  seeded _ _ hs := nomatch hs
  inOrder n hn :=
    have ho := h.inOrder n hn
    { bounded := ⟨ho.bounded.ingested, ho.bounded.flushed, ho.bounded.contents,
        ho.bounded.received⟩
      ordered := ho.ordered
      reconciled := fun _ _ hs => nomatch hs }

/-- With the parser available there is no fault, and the chunk just joins its batch. -/
theorem Inv.append (h : w.Inv) (chunk : Chunk) (fault : Bool)
    (hnext : ∀ n, w.parser = some ⟨n, true⟩ → fault = false ∧ chunk.above n = false ∧
      (∀ c ∈ w.ingested, Before c chunk) ∧
      ∀ label, ∀ s ∈ w.seeds label, w.accumulator = some b) :
    (w.append b labels chunk fault).2.Inv := by
  have hextended : ((if fault then w.flush b labels else w).extend b chunk).Inv := by
    cases fault with
    | false => exact h.extend chunk fun n hn => (hnext n hn).2
    | true =>
      have hflush : (w.flush b labels).Inv :=
        h.flush fun n hn => absurd (hnext n hn).1 (by decide)
      exact hflush.extend chunk fun n hn => absurd (hnext n hn).1 (by decide)
  unfold World.append
  dsimp only
  generalize (if fault = true then w.flush b labels else w).extend b chunk = w₁ at hextended ⊢
  split_ifs
  · exact hextended
  · exact hextended
  · exact hextended.setTimer b true

theorem Inv.drain (h : w.Inv) (fromTimer : Bool)
    (hcovers : ∀ n, w.parser = some ⟨n, true⟩ → w.Covers b labels) :
    (w.drain b labels fromTimer).Inv := by
  unfold World.drain
  cases fromTimer with
  | false => exact h.flush hcovers
  | true => exact (h.setTimer b false).flush hcovers

end Steps
end World
end AgentsCommander.Output
