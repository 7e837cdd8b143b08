import AgentsCommander.Capture.TurnRuns

/-! What the turn accumulator keeps through any sequence of inputs: its cap, its two sets of
turns apart, and a counter for each kind of event. -/
namespace AgentsCommander.Capture.TurnCodex
open Foundation

/-- How many events there are of each kind that is counted. -/
def tally (events : List TurnEvent) : TurnCounters where
  emitted := events.countP fun | .emit _ => true | _ => false
  abstained := events.countP fun | .abstain _ _ => true | _ => false
  superseded := events.countP fun | .superseded _ => true | _ => false
  evicted := events.countP fun | .evicted _ => true | _ => false
  lateAfterRoute := events.countP fun | .lateAfterRoute _ => true | _ => false
  lateAfterSuperseded := events.countP fun | .lateAfterSuperseded _ => true | _ => false
  malformedClosures := events.countP fun | .malformedClosure => true | _ => false

namespace TurnCounters

def plus (c d : TurnCounters) : TurnCounters where
  emitted := c.emitted + d.emitted
  abstained := c.abstained + d.abstained
  superseded := c.superseded + d.superseded
  evicted := c.evicted + d.evicted
  lateAfterRoute := c.lateAfterRoute + d.lateAfterRoute
  lateAfterSuperseded := c.lateAfterSuperseded + d.lateAfterSuperseded
  malformedClosures := c.malformedClosures + d.malformedClosures

theorem plus_assoc (c d e : TurnCounters) : (c.plus d).plus e = c.plus (d.plus e) := by
  simp only [plus, Nat.add_assoc]

end TurnCounters

theorem tally_append (l l' : List TurnEvent) : tally (l ++ l') = (tally l).plus (tally l') := by
  simp only [tally, TurnCounters.plus, List.countP_append]

theorem tally_cons (e : TurnEvent) (l : List TurnEvent) :
    tally (e :: l) = (tally [e]).plus (tally l) := tally_append [e] l

theorem tally_superseded (ids : List String) : tally (ids.map .superseded) =
    ⟨0, 0, ids.length, 0, 0, 0, 0⟩ := by
  induction ids with
  | nil => rfl
  | cons id ids ih =>
    rw [List.map_cons, tally_cons, ih]
    simp only [tally, TurnCounters.plus, List.countP_cons, List.countP_nil, List.length_cons]
    simp [Nat.add_comm]

namespace TurnAccumulator

/-- The counters have gone on by what the events say. -/
def Counts (a a' : TurnAccumulator) (events : List TurnEvent) : Prop :=
  a'.counters = a.counters.plus (tally events)

theorem counts_evictOldest (fuel : ℕ) (a : TurnAccumulator) :
    Counts a (evictOldest fuel a).1 (evictOldest fuel a).2 := by
  induction fuel generalizing a with
  | zero => rfl
  | succ fuel ih =>
    unfold evictOldest
    split_ifs
    · split
      · rfl
      · rename_i oldest _
        have hrest := ih { a with
          openTurns := a.openTurns.tail
          counters := { a.counters with evicted := a.counters.evicted + 1 } }
        unfold Counts at hrest ⊢
        rw [hrest, tally_cons, ← TurnCounters.plus_assoc]
        rfl
    · rfl

theorem counts_abstain (a : TurnAccumulator) (turnId : String) (reason : AbstainReason) :
    Counts a (a.abstain turnId reason).1 (a.abstain turnId reason).2 := rfl

theorem counts_onFinalAnswer (a : TurnAccumulator) (turnId : String) (fragment : TurnFragment) :
    Counts a (a.onFinalAnswer turnId fragment).1 (a.onFinalAnswer turnId fragment).2 := by
  unfold onFinalAnswer
  split
  · split_ifs <;> rfl
  · split_ifs
    · rfl
    · exact counts_evictOldest _ a

theorem counts_onTaskStarted (a : TurnAccumulator) (turnId : String) :
    Counts a (a.onTaskStarted turnId).1 (a.onTaskStarted turnId).2 := by
  unfold Counts onTaskStarted
  dsimp only
  rw [tally_superseded]
  rfl

theorem counts_onTaskComplete (a : TurnAccumulator) (turnId : String)
    (lastAgentMessage : Option String) : Counts a (a.onTaskComplete turnId lastAgentMessage).1
      (a.onTaskComplete turnId lastAgentMessage).2 := by
  unfold onTaskComplete
  split
  · split_ifs
    · rfl
    · have hroom := counts_evictOldest a.openTurns.rows.length a
      unfold Counts at hroom ⊢
      dsimp only
      rw [tally_append, ← TurnCounters.plus_assoc, counts_abstain]
      exact congrArg (fun c : TurnCounters => c.plus _) hroom
  · split_ifs
    · rfl
    · rfl
    · split
      · rfl
      · split_ifs <;> rfl

theorem counts_feed (fromStr : String → Option Json) (a : TurnAccumulator) (i : TurnInput) :
    Counts a (a.feed fromStr i).1 (a.feed fromStr i).2 := by
  cases i with
  | finalAnswer turnId fragment => exact counts_onFinalAnswer a turnId fragment
  | taskStarted turnId => exact counts_onTaskStarted a turnId
  | taskComplete turnId lastAgentMessage => exact counts_onTaskComplete a turnId lastAgentMessage
  | line text =>
    show Counts a (a.onLine fromStr text).1 (a.onLine fromStr text).2
    unfold onLine
    split
    · exact counts_onTaskStarted a _
    · exact counts_onTaskComplete a _ _
    · rfl
    · rfl

theorem length_update {a : TurnAccumulator} (h : a.openTurns.rows.length ≤ maxOpenTurns)
    (turnId : String) (f : OpenTurn → OpenTurn) (hf : ∀ t, (f t).turnId = t.turnId) :
    (a.openTurns.update turnId f hf).rows.length ≤ maxOpenTurns := by
  have hlen : (a.openTurns.update turnId f hf).rows.length = a.openTurns.rows.length :=
    List.length_map _
  exact hlen.le.trans h

/-- A turn is opened where room was made for it. -/
theorem length_insert (a : TurnAccumulator) (t : OpenTurn)
    (ht : a.makeRoom.1.openTurns.get t.turnId = none) :
    (a.makeRoom.1.openTurns.insert t ht).rows.length ≤ maxOpenTurns := by
  have hroom := length_makeRoom a
  have hlen : (a.makeRoom.1.openTurns.insert t ht).rows.length =
      a.makeRoom.1.openTurns.rows.length + 1 := List.length_append
  omega

theorem length_onTaskComplete {a : TurnAccumulator} (h : a.openTurns.rows.length ≤ maxOpenTurns)
    (turnId : String) (lastAgentMessage : Option String) :
    (a.onTaskComplete turnId lastAgentMessage).1.openTurns.rows.length ≤ maxOpenTurns := by
  have hclose : (a.closeTurn turnId).openTurns.rows.length ≤ maxOpenTurns :=
    length_update h turnId OpenTurn.close OpenTurn.turnId_close
  unfold onTaskComplete
  split
  · rename_i hget
    split_ifs
    · exact h
    · exact length_insert a _ (get_makeRoom_none hget)
  · split_ifs
    · exact h
    · exact hclose
    · split
      · exact hclose
      · split_ifs
        · exact hclose
        · exact length_update h turnId OpenTurn.route OpenTurn.turnId_route

theorem length_onTaskStarted {a : TurnAccumulator} (h : a.openTurns.rows.length ≤ maxOpenTurns)
    (turnId : String) : (a.onTaskStarted turnId).1.openTurns.rows.length ≤ maxOpenTurns :=
  (List.length_filter_le _ _).trans h

theorem length_feed {a : TurnAccumulator} (h : a.openTurns.rows.length ≤ maxOpenTurns)
    (fromStr : String → Option Json) (i : TurnInput) :
    (a.feed fromStr i).1.openTurns.rows.length ≤ maxOpenTurns := by
  cases i with
  | finalAnswer turnId fragment =>
    show (a.onFinalAnswer turnId fragment).1.openTurns.rows.length ≤ maxOpenTurns
    unfold onFinalAnswer
    split
    · split_ifs
      · exact h
      · exact length_update h turnId (OpenTurn.push fragment) (OpenTurn.turnId_push fragment)
    · rename_i hget
      split_ifs
      · exact h
      · exact length_insert a _ (get_makeRoom_none hget)
  | taskStarted turnId => exact length_onTaskStarted h turnId
  | taskComplete turnId lastAgentMessage => exact length_onTaskComplete h turnId lastAgentMessage
  | line text =>
    show (a.onLine fromStr text).1.openTurns.rows.length ≤ maxOpenTurns
    unfold onLine
    split
    · exact length_onTaskStarted h _
    · exact length_onTaskComplete h _ _
    · exact h
    · exact h

/-- No open turn is one of those that a later turn has cut off. -/
def Apart (a : TurnAccumulator) : Prop :=
  ∀ id t, a.openTurns.get id = some t → id ∉ a.superseded

theorem apart_feed {a : TurnAccumulator} (h : a.Apart) (fromStr : String → Option Json)
    (i : TurnInput) : (a.feed fromStr i).1.Apart := by
  intro id t' ht'
  cases fate_feed fromStr a i id with
  | kept hget hs =>
    rw [hs]
    exact h id t' (hget.symm.trans ht')
  | cutOff t hget hnone => cases hnone.symm.trans ht'
  | evicted t hget hnone => cases hnone.symm.trans ht'
  | opened f hi hget hn _ hs =>
    rw [hs]
    exact hn
  | marked hget hn _ hs =>
    rw [hs]
    exact hn
  | extended f hi t hget hr _ hs =>
    rw [hs]
    exact h id t hget
  | closed t hget hr _ hs =>
    rw [hs]
    exact h id t hget
  | routed t hget hr hne _ hs =>
    rw [hs]
    exact h id t hget

/-- Only an open turn is emitted. -/
theorem get_of_emit {a : TurnAccumulator} {fromStr : String → Option Json} {i : TurnInput}
    {turn : AssembledTurn} (he : .emit turn ∈ (a.feed fromStr i).2) :
    ∃ t, a.openTurns.get turn.turnId = some t := by
  cases fate_feed fromStr a i turn.turnId with
  | kept _ _ hsilent => exact absurd rfl (hsilent.2 turn he)
  | cutOff _ _ _ _ hsilent => exact absurd rfl (hsilent.2 turn he)
  | evicted _ _ _ _ _ hemit => exact absurd he (hemit turn)
  | opened _ _ _ _ _ _ hsilent => exact absurd rfl (hsilent.2 turn he)
  | marked _ _ _ _ hsilent => exact absurd rfl (hsilent.2 turn he)
  | extended _ _ t hget => exact ⟨t, hget⟩
  | closed t hget => exact ⟨t, hget⟩
  | routed t hget => exact ⟨t, hget⟩

end TurnAccumulator

/-- The state an accumulator has come to, and what it may still answer. -/
structure RepresentationLaw (fromStr : String → Option Json) (is : List TurnInput) : Prop where
  distinct : (((codex fromStr).run .new is).turns.openTurns.rows.map OpenTurn.turnId).Nodup
  capped : ((codex fromStr).run .new is).turns.openTurns.rows.length ≤ maxOpenTurns
  disjoint : ∀ t ∈ ((codex fromStr).run .new is).turns.openTurns.rows,
    t.turnId ∉ ((codex fromStr).run .new is).turns.superseded
  silenced : ∀ i turn, .emit turn ∈ (codex fromStr).answer ((codex fromStr).run .new is) i →
    turn.turnId ∉ ((codex fromStr).run .new is).turns.superseded
  counted : ((codex fromStr).run .new is).turns.counters =
    tally ((codex fromStr).answers .new is).flatten

theorem counters_run (fromStr : String → Option Json) (r : Reader) (is : List TurnInput) :
    ((codex fromStr).run r is).turns.counters =
      r.turns.counters.plus (tally ((codex fromStr).answers r is).flatten) := by
  induction is generalizing r with
  | nil => rfl
  | cons i is ih =>
    have hstep := TurnAccumulator.counts_feed fromStr r.turns i
    have hnext : ((codex fromStr).next r i).turns.counters =
        r.turns.counters.plus (tally ((codex fromStr).answer r i)) := hstep
    rw [Machine.run_cons, ih, hnext, TurnCounters.plus_assoc, ← tally_append]
    rfl

/-- For every sequence of inputs. -/
theorem representationLaw_run (fromStr : String → Option Json) (is : List TurnInput) :
    RepresentationLaw fromStr is := by
  have hcap : ((codex fromStr).run .new is).turns.openTurns.rows.length ≤ maxOpenTurns :=
    Machine.run_inv_free (M := codex fromStr)
      (P := fun r : Reader => r.turns.openTurns.rows.length ≤ maxOpenTurns)
      (fun _ i h => TurnAccumulator.length_feed h fromStr i) (Nat.zero_le _) is
  have hapart : ((codex fromStr).run .new is).turns.Apart := by
    apply Machine.run_inv_free (M := codex fromStr) (P := fun r : Reader => r.turns.Apart)
      (fun _ i h => TurnAccumulator.apart_feed h fromStr i)
    intro id t h
    cases h
  constructor
  · exact ((codex fromStr).run .new is).turns.openTurns.nodup
  · exact hcap
  · intro t ht
    exact hapart t.turnId t (Table.get_key ht)
  · intro i turn he
    obtain ⟨t, ht⟩ := TurnAccumulator.get_of_emit he
    exact hapart turn.turnId t ht
  · rw [counters_run]
    simp [TurnCounters.plus, Reader.new, TurnAccumulator.new]

end AgentsCommander.Capture.TurnCodex
