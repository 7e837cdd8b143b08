import Mathlib.Tactic
import AgentsCommander.Foundation.Machine
import AgentsCommander.Capture.TurnCodex

/-! Runs of the Codex turn accumulator. A turn is emitted once and whole as long as no
fragment arrives for a turn that eviction has made it forget. -/
namespace AgentsCommander.Capture.TurnCodex
open Foundation

inductive TurnInput where
  | finalAnswer (turnId : String) (fragment : TurnFragment)
  | taskStarted (turnId : String)
  | taskComplete (turnId : String) (lastAgentMessage : Option String)
  | line (text : String)

def TurnAccumulator.feed (fromStr : String → Option Json) (a : TurnAccumulator) :
    TurnInput → TurnAccumulator × List TurnEvent
  | .finalAnswer turnId fragment => a.onFinalAnswer turnId fragment
  | .taskStarted turnId => a.onTaskStarted turnId
  | .taskComplete turnId lastAgentMessage => a.onTaskComplete turnId lastAgentMessage
  | .line text => a.onLine fromStr text

/-- The accumulator, and the open turns it has evicted so far. -/
structure Reader where
  turns : TurnAccumulator
  evicted : List OpenTurn

def Reader.new : Reader := ⟨.new, []⟩

def Reader.step (fromStr : String → Option Json) (r : Reader) (i : TurnInput) :
    Reader × List TurnEvent :=
  let fed := r.turns.feed fromStr i
  (⟨fed.1, r.evicted ++ r.turns.openTurns.rows.filter (fun t => .evicted t.turnId ∈ fed.2)⟩, fed.2)

def codex (fromStr : String → Option Json) : Machine Reader TurnInput (List TurnEvent) :=
  ⟨Reader.step fromStr⟩

def emissions (turnId : String) (events : List TurnEvent) : List AssembledTurn :=
  events.filterMap fun
    | .emit turn => if turn.turnId = turnId then some turn else none
    | _ => none

/-- The fragments fed for a turn, in file order. -/
def fragmentsFed (turnId : String) (is : List TurnInput) : List TurnFragment :=
  is.filterMap fun
    | .finalAnswer id fragment => if id = turnId then some fragment else none
    | _ => none

/-- No fragment is fed for a turn whose emission was evicted. -/
def Reader.RoutedKept (r : Reader) : TurnInput → Prop
  | .finalAnswer turnId _ => ∀ t ∈ r.evicted, t.turnId = turnId → t.routed = false
  | _ => True

instance (r : Reader) : ∀ i, Decidable (r.RoutedKept i)
  | .finalAnswer turnId _ =>
    inferInstanceAs (Decidable (∀ t ∈ r.evicted, t.turnId = turnId → t.routed = false))
  | .taskStarted _ | .taskComplete .. | .line _ => isTrue trivial

/-- No fragment is fed for a turn whose emission or whose fragments were evicted. -/
def Reader.NothingLost (r : Reader) : TurnInput → Prop
  | .finalAnswer turnId _ =>
    ∀ t ∈ r.evicted, t.turnId = turnId → t.routed = false ∧ t.fragments = []
  | _ => True

instance (r : Reader) : ∀ i, Decidable (r.NothingLost i)
  | .finalAnswer turnId _ => inferInstanceAs (Decidable
      (∀ t ∈ r.evicted, t.turnId = turnId → t.routed = false ∧ t.fragments = []))
  | .taskStarted _ | .taskComplete .. | .line _ => isTrue trivial

/-- Nothing in the answer emits or evicts the turn. -/
def Silent (turnId : String) (events : List TurnEvent) : Prop :=
  .evicted turnId ∉ events ∧ ∀ turn, .emit turn ∈ events → turn.turnId ≠ turnId

theorem silent_of_forall {turnId : String} {events : List TurnEvent}
    (h : ∀ e ∈ events, e ≠ .evicted turnId ∧ ∀ turn, e ≠ .emit turn) : Silent turnId events :=
  ⟨fun hmem => (h _ hmem).1 rfl, fun turn hmem => absurd rfl ((h _ hmem).2 turn)⟩

theorem emissions_eq_nil {turnId : String} {events : List TurnEvent}
    (h : ∀ turn, .emit turn ∈ events → turn.turnId ≠ turnId) : emissions turnId events = [] := by
  refine List.filterMap_eq_nil_iff.mpr fun e he => ?_
  cases e with
  | emit turn => exact if_neg (h turn he)
  | _ => rfl

/-- What one input does to the entry of one turn. -/
inductive Fate (id : String) (a a' : TurnAccumulator) (i : TurnInput) (events : List TurnEvent) :
    Prop where
  | kept (h : a'.openTurns.get id = a.openTurns.get id)
      (hs : id ∈ a'.superseded ↔ id ∈ a.superseded) (hsilent : Silent id events)
      (hf : ∀ f, i = .finalAnswer id f →
        (∃ t, a.openTurns.get id = some t ∧ t.routed = true) ∨
          (a.openTurns.get id = none ∧ id ∈ a.superseded))
  | cutOff (t : OpenTurn) (h : a.openTurns.get id = some t) (h' : a'.openTurns.get id = none)
      (hs : id ∈ a'.superseded) (hsilent : Silent id events) (hf : ∀ f, i ≠ .finalAnswer id f)
  | evicted (t : OpenTurn) (h : a.openTurns.get id = some t) (h' : a'.openTurns.get id = none)
      (hs : id ∈ a'.superseded ↔ id ∈ a.superseded) (hev : .evicted id ∈ events)
      (hemit : ∀ turn, .emit turn ∉ events) (hf : ∀ f, i ≠ .finalAnswer id f)
  | opened (f : TurnFragment) (hi : i = .finalAnswer id f) (h : a.openTurns.get id = none)
      (hn : id ∉ a.superseded) (h' : a'.openTurns.get id = some ⟨id, [f], false, false⟩)
      (hs : id ∈ a'.superseded ↔ id ∈ a.superseded) (hsilent : Silent id events)
  | marked (h : a.openTurns.get id = none) (hn : id ∉ a.superseded)
      (h' : a'.openTurns.get id = some ⟨id, [], true, false⟩)
      (hs : id ∈ a'.superseded ↔ id ∈ a.superseded) (hsilent : Silent id events)
      (hf : ∀ f, i ≠ .finalAnswer id f)
  | extended (f : TurnFragment) (hi : i = .finalAnswer id f) (t : OpenTurn)
      (h : a.openTurns.get id = some t) (hr : t.routed = false)
      (h' : a'.openTurns.get id = some (t.push f))
      (hs : id ∈ a'.superseded ↔ id ∈ a.superseded) (hsilent : Silent id events)
  | closed (t : OpenTurn) (h : a.openTurns.get id = some t) (hr : t.routed = false)
      (h' : a'.openTurns.get id = some t.close) (hs : id ∈ a'.superseded ↔ id ∈ a.superseded)
      (hsilent : Silent id events) (hf : ∀ f, i ≠ .finalAnswer id f)
  | routed (t : OpenTurn) (h : a.openTurns.get id = some t) (hr : t.routed = false)
      (hne : t.fragments ≠ []) (h' : a'.openTurns.get id = some t.route)
      (hs : id ∈ a'.superseded ↔ id ∈ a.superseded) (hemit : events = [.emit t.assemble])
      (hf : ∀ f, i ≠ .finalAnswer id f)

namespace TurnAccumulator

theorem silent_single {turnId : String} {e : TurnEvent} (he : e ≠ .evicted turnId)
    (hemit : ∀ turn, e ≠ .emit turn) : Silent turnId [e] :=
  silent_of_forall fun e' hmem => by
    rw [List.mem_singleton.mp hmem]
    exact ⟨he, hemit⟩

theorem fate_makeRoom {id : String} {a a' : TurnAccumulator} {i : TurnInput}
    {events : List TurnEvent}
    (hget : a'.openTurns.get id = a.makeRoom.1.openTurns.get id)
    (hs : a'.superseded = a.superseded)
    (hev : .evicted id ∈ events ↔ .evicted id ∈ a.makeRoom.2)
    (hemit : ∀ turn, .emit turn ∉ events) (hf : ∀ f, i ≠ .finalAnswer id f) :
    Fate id a a' i events := by
  have hs' : id ∈ a'.superseded ↔ id ∈ a.superseded := by rw [hs]
  rcases get_evictOldest a.openTurns.rows.length a id with ⟨hsame, hnev⟩ | ⟨t, hold, hgone, hin⟩
  · exact .kept (hget.trans hsame) hs' ⟨fun h => hnev (hev.mp h), fun turn h => absurd h (hemit turn)⟩
      fun f hi => absurd hi (hf f)
  · exact .evicted t hold (hget.trans hgone) hs' (hev.mpr hin) hemit hf

theorem not_emit_mem_makeRoom {a : TurnAccumulator} (turn : AssembledTurn) :
    .emit turn ∉ a.makeRoom.2 := by
  intro h
  obtain ⟨_, he⟩ := evicted_of_mem_evictOldest h
  cases he

theorem fate_onFinalAnswer (a : TurnAccumulator) (turnId : String) (fragment : TurnFragment)
    (id : String) :
    Fate id a (a.onFinalAnswer turnId fragment).1 (.finalAnswer turnId fragment)
      (a.onFinalAnswer turnId fragment).2 := by
  unfold onFinalAnswer
  split
  · rename_i turn hturn
    split_ifs with hr
    · refine .kept rfl Iff.rfl (silent_single (by simp) (by simp)) fun f hi => Or.inl ?_
      obtain ⟨rfl, -⟩ := TurnInput.finalAnswer.inj hi
      exact ⟨turn, hturn, hr⟩
    · by_cases hid : id = turnId
      · subst hid
        refine .extended fragment rfl turn hturn (by simpa using hr) ?_ Iff.rfl
          (silent_of_forall fun e he => by cases he)
        rw [Table.get_update_self, hturn]
        rfl
      · refine .kept (Table.get_update_ne _ _ (OpenTurn.turnId_push fragment) hid) Iff.rfl
          (silent_of_forall fun e he => by cases he) fun f hi => ?_
        exact absurd (TurnInput.finalAnswer.inj hi).1.symm hid
  · rename_i hturn
    split_ifs with hsup
    · refine .kept rfl Iff.rfl (silent_single (by simp) (by simp)) fun f hi => Or.inr ?_
      obtain ⟨rfl, -⟩ := TurnInput.finalAnswer.inj hi
      exact ⟨hturn, hsup⟩
    · by_cases hid : id = turnId
      · subst hid
        refine .opened fragment rfl hturn hsup ?_ (by simp [makeRoom]) ⟨fun hev => ?_, fun turn h =>
          absurd h (not_emit_mem_makeRoom turn)⟩
        · rw [Table.get_insert, if_pos rfl]
        · rcases get_evictOldest a.openTurns.rows.length a id with ⟨-, hnev⟩ | ⟨t, hold, -⟩
          · exact hnev hev
          · exact absurd (hold.symm.trans hturn) (by simp)
      · refine fate_makeRoom ?_ (by simp [makeRoom]) Iff.rfl not_emit_mem_makeRoom fun f hi => ?_
        · rw [Table.get_insert, if_neg hid]
        · exact hid (TurnInput.finalAnswer.inj hi).1.symm

theorem fate_onTaskStarted (a : TurnAccumulator) (turnId : String) {i : TurnInput}
    (hi : ∀ id f, i ≠ .finalAnswer id f) (id : String) :
    Fate id a (a.onTaskStarted turnId).1 i (a.onTaskStarted turnId).2 := by
  have hsilent : Silent id (a.onTaskStarted turnId).2 := by
    refine silent_of_forall fun e he => ?_
    obtain ⟨cut, -, rfl⟩ := List.mem_map.mp he
    exact ⟨by simp, by simp⟩
  have hget : (a.onTaskStarted turnId).1.openTurns.get id =
      (a.openTurns.get id).filter (!·.cutOffBy turnId) := Table.get_filter _ _ _
  have hsup : id ∈ (a.onTaskStarted turnId).1.superseded ↔
      id ∈ a.superseded ∨ ∃ t, a.openTurns.get id = some t ∧ t.cutOffBy turnId = true := by
    simp only [onTaskStarted, Finset.mem_union, List.mem_toFinset, List.mem_map, List.mem_filter,
      Table.get_eq_some]
    exact or_congr_right ⟨fun ⟨t, ⟨hm, hc⟩, hk⟩ => ⟨t, ⟨hm, hk⟩, hc⟩,
      fun ⟨t, ⟨hm, hk⟩, hc⟩ => ⟨t, ⟨hm, hc⟩, hk⟩⟩
  cases hold : a.openTurns.get id with
  | none =>
    rw [hold] at hget hsup
    refine .kept (hget.trans hold.symm) (hsup.trans ?_) hsilent fun f he => absurd he (hi id f)
    simp
  | some t =>
    rw [hold] at hget hsup
    by_cases hcut : t.cutOffBy turnId = true
    · rw [Option.filter_some_neg (by simp [hcut])] at hget
      exact .cutOff t hold hget (hsup.mpr (Or.inr ⟨t, rfl, hcut⟩)) hsilent (hi id)
    · rw [Option.filter_some_pos (by simpa using hcut)] at hget
      refine .kept (hget.trans hold.symm) (hsup.trans ?_) hsilent fun f he => absurd he (hi id f)
      simp [hcut]

/-- An answer that only abstains, after closing at most the turn it names. -/
theorem fate_closeTurn {a : TurnAccumulator} {turnId : String} {turn : OpenTurn} {i : TurnInput}
    {reason : AbstainReason} (hturn : a.openTurns.get turnId = some turn)
    (hr : turn.routed = false) (hi : ∀ id f, i ≠ .finalAnswer id f) (id : String) :
    Fate id a ((a.closeTurn turnId).abstain turnId reason).1 i
      ((a.closeTurn turnId).abstain turnId reason).2 := by
  have hsilent : Silent id ((a.closeTurn turnId).abstain turnId reason).2 :=
    silent_single (by simp) (by simp)
  by_cases hid : id = turnId
  · subst hid
    refine .closed turn hturn hr ?_ Iff.rfl hsilent (hi id)
    change (a.openTurns.update id OpenTurn.close OpenTurn.turnId_close).get id = _
    rw [Table.get_update_self, hturn]
    rfl
  · exact .kept (Table.get_update_ne _ _ OpenTurn.turnId_close hid) Iff.rfl hsilent
      fun f he => absurd he (hi id f)

theorem fate_onTaskComplete (a : TurnAccumulator) (turnId : String)
    (lastAgentMessage : Option String) {i : TurnInput} (hi : ∀ id f, i ≠ .finalAnswer id f)
    (id : String) :
    Fate id a (a.onTaskComplete turnId lastAgentMessage).1 i
      (a.onTaskComplete turnId lastAgentMessage).2 := by
  have habstain : ∀ reason, Fate id a (a.abstain turnId reason).1 i (a.abstain turnId reason).2 :=
    fun reason => .kept rfl Iff.rfl (silent_single (by simp) (by simp))
      fun f he => absurd he (hi id f)
  unfold onTaskComplete
  split
  · rename_i hturn
    split_ifs with hsup
    · exact habstain _
    · by_cases hid : id = turnId
      · subst hid
        refine .marked hturn hsup ?_ (by simp [abstain, makeRoom]) ⟨fun hev => ?_, fun t h => ?_⟩
          (hi id)
        · simp only [abstain]
          rw [Table.get_insert, if_pos rfl]
        · rcases List.mem_append.mp hev with hev | hev
          · rcases get_evictOldest a.openTurns.rows.length a id with ⟨-, hnev⟩ | ⟨t, hold, -⟩
            · exact hnev hev
            · exact absurd (hold.symm.trans hturn) (by simp)
          · simp [abstain] at hev
        · rcases List.mem_append.mp h with h | h
          · exact absurd h (not_emit_mem_makeRoom t)
          · simp [abstain] at h
      · refine fate_makeRoom ?_ (by simp [abstain, makeRoom]) (by simp [abstain])
          (fun t h => ?_) (hi id)
        · simp only [abstain]
          rw [Table.get_insert, if_neg hid]
        · rcases List.mem_append.mp h with h | h
          · exact not_emit_mem_makeRoom t h
          · simp [abstain] at h
  · rename_i turn hturn
    split_ifs with hr hempty
    · exact habstain _
    · exact fate_closeTurn hturn (by simpa using hr) hi id
    · have hr' : turn.routed = false := by simpa using hr
      split
      · exact fate_closeTurn hturn hr' hi id
      · split_ifs
        · exact fate_closeTurn hturn hr' hi id
        · by_cases hid : id = turnId
          · subst hid
            refine .routed turn hturn hr' hempty ?_ Iff.rfl rfl (hi id)
            rw [Table.get_update_self, hturn]
            rfl
          · refine .kept (Table.get_update_ne _ _ OpenTurn.turnId_route hid) Iff.rfl
              ⟨by simp, fun t h => ?_⟩ fun f he => absurd he (hi id f)
            rw [TurnEvent.emit.inj (List.mem_singleton.mp h)]
            change turn.turnId ≠ id
            rw [Table.key_of_get hturn]
            exact fun he => hid he.symm

/-- Every input settles the fate of every turn. -/
theorem fate_feed (fromStr : String → Option Json) (a : TurnAccumulator) (i : TurnInput)
    (id : String) : Fate id a (a.feed fromStr i).1 i (a.feed fromStr i).2 := by
  cases i with
  | finalAnswer turnId fragment => exact fate_onFinalAnswer a turnId fragment id
  | taskStarted turnId => exact fate_onTaskStarted a turnId (by simp) id
  | taskComplete turnId lastAgentMessage =>
    exact fate_onTaskComplete a turnId lastAgentMessage (by simp) id
  | line text =>
    change Fate id a (a.onLine fromStr text).1 _ (a.onLine fromStr text).2
    unfold onLine
    split
    · exact fate_onTaskStarted a _ (by simp) id
    · exact fate_onTaskComplete a _ _ (by simp) id
    · exact .kept rfl Iff.rfl (silent_single (by simp) (by simp)) (by simp)
    · exact .kept rfl Iff.rfl (silent_of_forall fun e he => by cases he) (by simp)

end TurnAccumulator

/-- The turn was emitted, or can never be emitted any more. -/
def Reader.Spent (id : String) (r : Reader) : Prop :=
  (r.turns.openTurns.get id = none ∧ id ∈ r.turns.superseded) ∨
    (∃ t, r.turns.openTurns.get id = some t ∧ t.routed = true) ∨
    ((∃ t ∈ r.evicted, t.turnId = id ∧ t.routed = true) ∧
      ∀ t, r.turns.openTurns.get id = some t → t.fragments = [])

section
variable {fromStr : String → Option Json} {r : Reader} {i : TurnInput}

theorem mem_evicted_next {t : OpenTurn} :
    t ∈ ((codex fromStr).next r i).evicted ↔ t ∈ r.evicted ∨
      t ∈ r.turns.openTurns.rows ∧ .evicted t.turnId ∈ (r.turns.feed fromStr i).2 := by
  change t ∈ r.evicted ++ _ ↔ _
  rw [List.mem_append, List.mem_filter, decide_eq_true_iff]

/-- A turn that is not evicted has no new entry among the evicted. -/
theorem mem_evicted_of_silent {t : OpenTurn} {id : String}
    (hsilent : Silent id (r.turns.feed fromStr i).2) (hid : t.turnId = id) :
    t ∈ ((codex fromStr).next r i).evicted ↔ t ∈ r.evicted := by
  refine mem_evicted_next.trans ⟨fun h => ?_, Or.inl⟩
  rcases h with h | ⟨-, h⟩
  · exact h
  · exact absurd (hid ▸ h) hsilent.1

theorem spent_of_emission {id : String} (h : emissions id (r.turns.feed fromStr i).2 ≠ []) :
    (emissions id (r.turns.feed fromStr i).2).length = 1 ∧
      ((codex fromStr).next r i).Spent id := by
  have hquiet : (∀ turn, .emit turn ∈ (r.turns.feed fromStr i).2 → turn.turnId ≠ id) → False :=
    fun hn => h (emissions_eq_nil hn)
  cases r.turns.fate_feed fromStr i id with
  | kept _ _ hsilent _ => exact absurd hsilent.2 hquiet
  | cutOff _ _ _ _ hsilent _ => exact absurd hsilent.2 hquiet
  | evicted _ _ _ _ _ hemit _ => exact absurd (fun t ht => absurd ht (hemit t)) hquiet
  | opened _ _ _ _ _ _ hsilent => exact absurd hsilent.2 hquiet
  | marked _ _ _ _ hsilent _ => exact absurd hsilent.2 hquiet
  | extended _ _ _ _ _ _ _ hsilent => exact absurd hsilent.2 hquiet
  | closed _ _ _ _ _ hsilent _ => exact absurd hsilent.2 hquiet
  | routed t hget _ _ h' _ hemit _ =>
    have hid : t.turnId = id := Table.key_of_get hget
    refine ⟨?_, Or.inr (Or.inl ⟨t.route, h', rfl⟩)⟩
    rw [hemit]
    simp [emissions, OpenTurn.assemble, hid]

theorem spent_next {id : String} (hok : r.RoutedKept i) (h : r.Spent id) :
    emissions id (r.turns.feed fromStr i).2 = [] ∧ ((codex fromStr).next r i).Spent id := by
  have hgrow : (∃ t ∈ r.evicted, t.turnId = id ∧ t.routed = true) →
      ∃ t ∈ ((codex fromStr).next r i).evicted, t.turnId = id ∧ t.routed = true :=
    fun ⟨t, ht, hp⟩ => ⟨t, mem_evicted_next.mpr (Or.inl ht), hp⟩
  have hforbid : ∀ f, i = .finalAnswer id f →
      ¬ ∃ t ∈ r.evicted, t.turnId = id ∧ t.routed = true := by
    rintro f rfl ⟨t, ht, hid, hr⟩
    exact absurd (hok t ht hid) (by simp [hr])
  cases r.turns.fate_feed fromStr i id with
  | kept hget hs hsilent _ =>
    refine ⟨emissions_eq_nil hsilent.2, ?_⟩
    rcases h with ⟨hn, hsup⟩ | ⟨t, ht, hr⟩ | ⟨hev, hempty⟩
    · exact Or.inl ⟨hget.trans hn, hs.mpr hsup⟩
    · exact Or.inr (Or.inl ⟨t, hget.trans ht, hr⟩)
    · exact Or.inr (Or.inr ⟨hgrow hev, fun t ht => hempty t (hget.symm.trans ht)⟩)
  | cutOff t _ h' hs hsilent _ => exact ⟨emissions_eq_nil hsilent.2, Or.inl ⟨h', hs⟩⟩
  | evicted t hget h' hs hev hemit _ =>
    refine ⟨emissions_eq_nil fun turn ht => absurd ht (hemit turn), ?_⟩
    rcases h with ⟨hn, -⟩ | ⟨t', ht', hr⟩ | ⟨hold, -⟩
    · exact absurd (hget.symm.trans hn) (by simp)
    · refine Or.inr (Or.inr ⟨⟨t', mem_evicted_next.mpr (Or.inr ⟨Table.mem_of_get ht', ?_⟩),
        Table.key_of_get ht', hr⟩, fun t ht => absurd (h'.symm.trans ht) (by simp)⟩)
      rw [Table.key_of_get ht']
      exact hev
    · exact Or.inr (Or.inr ⟨hgrow hold, fun t ht => absurd (h'.symm.trans ht) (by simp)⟩)
  | opened f hi hget hn _ _ _ =>
    rcases h with ⟨-, hsup⟩ | ⟨t, ht, -⟩ | ⟨hev, -⟩
    · exact absurd hsup hn
    · exact absurd (hget.symm.trans ht) (by simp)
    · exact absurd hev (hforbid f hi)
  | marked hget hn h' hs hsilent _ =>
    refine ⟨emissions_eq_nil hsilent.2, ?_⟩
    rcases h with ⟨-, hsup⟩ | ⟨t, ht, -⟩ | ⟨hev, -⟩
    · exact absurd hsup hn
    · exact absurd (hget.symm.trans ht) (by simp)
    · refine Or.inr (Or.inr ⟨hgrow hev, fun t ht => ?_⟩)
      rw [← Option.some.inj (h'.symm.trans ht)]
  | extended f hi t hget hr _ _ _ =>
    rcases h with ⟨hn, -⟩ | ⟨t', ht', hr'⟩ | ⟨hev, -⟩
    · exact absurd (hget.symm.trans hn) (by simp)
    · rw [Option.some.inj (hget.symm.trans ht'), hr'] at hr
      cases hr
    · exact absurd hev (hforbid f hi)
  | closed t hget hr h' hs hsilent _ =>
    refine ⟨emissions_eq_nil hsilent.2, ?_⟩
    rcases h with ⟨hn, -⟩ | ⟨t', ht', hr'⟩ | ⟨hev, hempty⟩
    · exact absurd (hget.symm.trans hn) (by simp)
    · rw [Option.some.inj (hget.symm.trans ht'), hr'] at hr
      cases hr
    · refine Or.inr (Or.inr ⟨hgrow hev, fun t' ht' => ?_⟩)
      rw [← Option.some.inj (h'.symm.trans ht')]
      exact hempty t hget
  | routed t hget hr hne _ _ _ _ =>
    rcases h with ⟨hn, -⟩ | ⟨t', ht', hr'⟩ | ⟨-, hempty⟩
    · exact absurd (hget.symm.trans hn) (by simp)
    · rw [Option.some.inj (hget.symm.trans ht'), hr'] at hr
      cases hr
    · exact absurd (hempty t hget) hne

end

/-- Where emitted turns are not fed again after their eviction, a turn is emitted once. -/
theorem emissions_le_one (fromStr : String → Option Json) (is : List TurnInput)
    (h : (codex fromStr).Along Reader.RoutedKept .new is) (turnId : String) :
    (((codex fromStr).answers .new is).flatMap (emissions turnId)).length ≤ 1 := by
  rw [List.length_flatMap]
  refine Machine.total_le_one (Reader.Spent turnId) (fun events => (emissions turnId events).length)
    (fun r i _ => ?_) (fun r i hok hspent => ?_) h
  · change (emissions turnId (r.turns.feed fromStr i).2).length ≤ 1 ∧
      (0 < (emissions turnId (r.turns.feed fromStr i).2).length → _)
    by_cases hnil : emissions turnId (r.turns.feed fromStr i).2 = []
    · rw [hnil]
      exact ⟨Nat.zero_le 1, fun hpos => absurd hpos (Nat.lt_irrefl 0)⟩
    · obtain ⟨hlen, hspent⟩ := spent_of_emission hnil
      exact ⟨hlen.le, fun _ => hspent⟩
  · obtain ⟨hnil, hnext⟩ := spent_next hok hspent
    exact ⟨List.length_eq_zero_iff.mpr hnil, hnext⟩

/-- One fragment for each of eight other turns: as many as push a turn out. -/
def eightOtherTurns : List TurnInput :=
  ["t-1", "t-2", "t-3", "t-4", "t-5", "t-6", "t-7", "t-8"].map (.finalAnswer · ⟨"other", none⟩)

/-- An emitted turn, pushed out. -/
def emittedThenEvicted : List TurnInput :=
  [.finalAnswer "t-0" ⟨"done", some 0⟩, .taskComplete "t-0" (some "done")] ++ eightOtherTurns

theorem emissions_le_one_completedAgain :
    (((codex fun _ => none).answers .new
      (emittedThenEvicted ++ [.taskComplete "t-0" (some "done")])).flatMap
        (emissions "t-0")).length ≤ 1 :=
  emissions_le_one _ _ (by decide) "t-0"

/-- A fragment that comes after the eviction opens the turn again, and it is emitted twice. -/
theorem two_emissions_fedAgain :
    ¬ (((codex fun _ => none).answers .new (emittedThenEvicted ++
      [.finalAnswer "t-0" ⟨"done", some 900⟩, .taskComplete "t-0" (some "done")])).flatMap
        (emissions "t-0")).length ≤ 1 := by
  decide

theorem fragmentsFed_append (id : String) (is js : List TurnInput) :
    fragmentsFed id (is ++ js) = fragmentsFed id is ++ fragmentsFed id js := List.filterMap_append

theorem fragmentsFed_other {id : String} {i : TurnInput} (h : ∀ f, i ≠ .finalAnswer id f) :
    fragmentsFed id [i] = [] := by
  refine List.filterMap_eq_nil_iff.mpr fun j hj => ?_
  rw [List.mem_singleton.mp hj]
  cases i with
  | finalAnswer id' f => exact if_neg fun he => h f (by rw [he])
  | _ => rfl

theorem fragmentsFed_finalAnswer (id : String) (f : TurnFragment) :
    fragmentsFed id [.finalAnswer id f] = [f] := by simp [fragmentsFed]

/-- Eviction has dropped an emission or fragments of the turn. -/
def Reader.Lost (id : String) (r : Reader) : Prop :=
  ∃ t ∈ r.evicted, t.turnId = id ∧ (t.routed = true ∨ t.fragments ≠ [])

/-- What the reader holds of a turn, when `fed` are the fragments fed for it so far. -/
structure Reader.Collected (id : String) (r : Reader) (fed : List TurnFragment) : Prop where
  fresh : ∀ t, r.turns.openTurns.get id = some t → id ∉ r.turns.superseded
  lost : r.Lost id → ∀ t, r.turns.openTurns.get id = some t → t.fragments = []
  whole : ¬ r.Lost id → ∀ t, r.turns.openTurns.get id = some t → t.routed = false →
    t.fragments = fed
  unopened : ¬ r.Lost id → r.turns.openTurns.get id = none → id ∉ r.turns.superseded → fed = []

theorem collected_new (id : String) : Reader.new.Collected id [] :=
  ⟨nofun, fun _ => nofun, fun _ => nofun, fun _ _ _ => rfl⟩

section
variable {fromStr : String → Option Json} {r : Reader} {i : TurnInput}

theorem lost_next_of_silent {id : String} (hsilent : Silent id (r.turns.feed fromStr i).2) :
    ((codex fromStr).next r i).Lost id ↔ r.Lost id :=
  exists_congr fun _ => and_congr_left fun ht => mem_evicted_of_silent hsilent ht.1

theorem lost_next_of_evicted {id : String} {t : OpenTurn} (hget : r.turns.openTurns.get id = some t)
    (hev : .evicted id ∈ (r.turns.feed fromStr i).2) :
    ((codex fromStr).next r i).Lost id ↔ r.Lost id ∨ t.routed = true ∨ t.fragments ≠ [] := by
  constructor
  · rintro ⟨t', ht', hid, hp⟩
    rcases mem_evicted_next.mp ht' with ht' | ⟨hm, -⟩
    · exact Or.inl ⟨t', ht', hid, hp⟩
    · rw [Option.some.inj (hget.symm.trans (Table.get_eq_some.mpr ⟨hm, hid⟩))]
      exact Or.inr hp
  · rintro (⟨t', ht', hp⟩ | hp)
    · exact ⟨t', mem_evicted_next.mpr (Or.inl ht'), hp⟩
    · obtain ⟨hm, hid⟩ := Table.get_eq_some.mp hget
      exact ⟨t, mem_evicted_next.mpr (Or.inr ⟨hm, by rw [hid]; exact hev⟩), hid, hp⟩

theorem not_lost_of_finalAnswer {id : String} {f : TurnFragment} (hok : r.NothingLost i)
    (hi : i = .finalAnswer id f) : ¬ r.Lost id := by
  subst hi
  rintro ⟨t, ht, hid, hp⟩
  obtain ⟨hr, hf⟩ := hok t ht hid
  rcases hp with hp | hp
  · rw [hr] at hp
    cases hp
  · exact hp hf

theorem collected_next {id : String} {fed : List TurnFragment} (hok : r.NothingLost i)
    (h : r.Collected id fed) :
    ((codex fromStr).next r i).Collected id (fed ++ fragmentsFed id [i]) := by
  cases r.turns.fate_feed fromStr i id with
  | kept hget hs hsilent hf =>
    have hlost := lost_next_of_silent hsilent
    refine ⟨fun t ht => fun hsup => h.fresh t (hget.symm.trans ht) (hs.mp hsup),
      fun hl t ht => h.lost (hlost.mp hl) t (hget.symm.trans ht), fun hl t ht hr => ?_,
      fun hl ht hn => ?_⟩
    · rw [h.whole (mt hlost.mpr hl) t (hget.symm.trans ht) hr, fragmentsFed_other, List.append_nil]
      intro f hi
      rcases hf f hi with ⟨t', ht', hr'⟩ | ⟨hn, -⟩
      · rw [Option.some.inj (ht'.symm.trans (hget.symm.trans ht)), hr] at hr'
        cases hr'
      · exact absurd (hn.symm.trans (hget.symm.trans ht)) (by simp)
    · rw [h.unopened (mt hlost.mpr hl) (hget.symm.trans ht) (mt hs.mpr hn), fragmentsFed_other]
      · rfl
      · intro f hi
        rcases hf f hi with ⟨t', ht', -⟩ | ⟨-, hsup⟩
        · exact absurd (ht'.symm.trans (hget.symm.trans ht)) (by simp)
        · exact hn (hs.mpr hsup)
  | cutOff t _ h' hs _ _ =>
    exact ⟨fun t ht => absurd (h'.symm.trans ht) (by simp),
      fun _ t ht => absurd (h'.symm.trans ht) (by simp),
      fun _ t ht => absurd (h'.symm.trans ht) (by simp), fun _ _ hn => absurd hs hn⟩
  | evicted t hget h' hs hev _ hf =>
    have hlost := lost_next_of_evicted hget hev
    refine ⟨fun t ht => absurd (h'.symm.trans ht) (by simp),
      fun _ t ht => absurd (h'.symm.trans ht) (by simp),
      fun _ t ht => absurd (h'.symm.trans ht) (by simp), fun hl _ _ => ?_⟩
    obtain ⟨hold, hr, hempty⟩ : ¬ r.Lost id ∧ t.routed = false ∧ t.fragments = [] := by
      simpa [not_or] using mt hlost.mpr hl
    rw [fragmentsFed_other hf, List.append_nil, ← h.whole hold t hget hr]
    exact hempty
  | opened f hi hget hn h' hs hsilent =>
    have hlost := lost_next_of_silent hsilent
    have hkeep := not_lost_of_finalAnswer hok hi
    refine ⟨fun _ _ => mt hs.mp hn, fun hl => absurd (hlost.mp hl) hkeep, fun _ t ht _ => ?_,
      fun _ ht => absurd (h'.symm.trans ht) (by simp)⟩
    rw [← Option.some.inj (h'.symm.trans ht), h.unopened hkeep hget hn, hi,
      fragmentsFed_finalAnswer]
    rfl
  | marked hget hn h' hs hsilent hf =>
    have hlost := lost_next_of_silent hsilent
    refine ⟨fun _ _ => mt hs.mp hn, fun _ t ht => ?_, fun hl t ht _ => ?_,
      fun _ ht => absurd (h'.symm.trans ht) (by simp)⟩
    · rw [← Option.some.inj (h'.symm.trans ht)]
    · rw [← Option.some.inj (h'.symm.trans ht), h.unopened (mt hlost.mpr hl) hget hn,
        fragmentsFed_other hf]
      rfl
  | extended f hi t hget hr h' hs hsilent =>
    have hlost := lost_next_of_silent hsilent
    have hkeep := not_lost_of_finalAnswer hok hi
    refine ⟨fun _ _ => mt hs.mp (h.fresh t hget), fun hl => absurd (hlost.mp hl) hkeep,
      fun _ t' ht' _ => ?_, fun _ ht => absurd (h'.symm.trans ht) (by simp)⟩
    rw [← Option.some.inj (h'.symm.trans ht'), hi, fragmentsFed_finalAnswer,
      ← h.whole hkeep t hget hr]
    rfl
  | closed t hget hr h' hs hsilent hf =>
    have hlost := lost_next_of_silent hsilent
    refine ⟨fun _ _ => mt hs.mp (h.fresh t hget), fun hl t' ht' => ?_, fun hl t' ht' _ => ?_,
      fun _ ht => absurd (h'.symm.trans ht) (by simp)⟩
    · rw [← Option.some.inj (h'.symm.trans ht')]
      exact h.lost (hlost.mp hl) t hget
    · rw [← Option.some.inj (h'.symm.trans ht'), fragmentsFed_other hf, List.append_nil]
      exact h.whole (mt hlost.mpr hl) t hget hr
  | routed t hget hr hne h' hs hemit hf =>
    have hn : ¬ r.Lost id := fun hl => hne (h.lost hl t hget)
    refine ⟨fun _ _ => mt hs.mp (h.fresh t hget), fun _ t' ht' => ?_, fun _ t' ht' hr' => ?_,
      fun _ ht => absurd (h'.symm.trans ht) (by simp)⟩
    · rw [← Option.some.inj (h'.symm.trans ht')]
      rfl
    · rw [← Option.some.inj (h'.symm.trans ht')] at hr'
      cases hr'

end

theorem collected_run (fromStr : String → Option Json) (id : String) {is : List TurnInput}
    (h : (codex fromStr).Along Reader.NothingLost .new is) :
    ((codex fromStr).run .new is).Collected id (fragmentsFed id is) := by
  have key : ∀ (is : List TurnInput) (r : Reader) (fed : List TurnFragment), r.Collected id fed →
      (codex fromStr).Along Reader.NothingLost r is →
      ((codex fromStr).run r is).Collected id (fed ++ fragmentsFed id is) := by
    intro is
    induction is with
    | nil =>
      intro r fed hr _
      simpa [fragmentsFed] using hr
    | cons i is ih =>
      intro r fed hr hok
      have hnext := ih _ _ (collected_next hok.1 hr) hok.2
      rwa [List.append_assoc, ← fragmentsFed_append] at hnext
  simpa using key is .new [] (collected_new id) h

/-- An emission carries every fragment fed for its turn, and none of them was ever dropped. -/
structure Whole (fromStr : String → Option Json) (pre : List TurnInput) (turn : AssembledTurn) :
    Prop where
  text : turn.text = trim ("\n".intercalate ((fragmentsFed turn.turnId pre).map (·.text)))
  start : turn.firstRecordStart = (fragmentsFed turn.turnId pre).head?.bind (·.recordStart)
  unsuperseded : turn.turnId ∉ ((codex fromStr).run .new pre).turns.superseded
  unevicted : ∀ t ∈ ((codex fromStr).run .new pre).evicted, t.turnId = turn.turnId →
    t.fragments = []

def WholeEmissions (fromStr : String → Option Json) (is : List TurnInput) : Prop :=
  ∀ pre i post, is = pre ++ i :: post → ∀ turn,
    .emit turn ∈ (codex fromStr).answer ((codex fromStr).run .new pre) i → Whole fromStr pre turn

/-- Where turns are not fed again after their eviction, they are emitted whole. -/
theorem wholeEmissions_of_nothingLost (fromStr : String → Option Json) (is : List TurnInput)
    (h : (codex fromStr).Along Reader.NothingLost .new is) : WholeEmissions fromStr is := by
  rintro pre i post rfl turn hturn
  have hcol := collected_run fromStr turn.turnId ((Machine.along_append _ _ _ _).mp h).1
  have hnot : ∀ hn : (∀ t, .emit t ∈ (((codex fromStr).run .new pre).turns.feed fromStr i).2 →
      t.turnId ≠ turn.turnId), False := fun hn => hn turn hturn rfl
  cases ((codex fromStr).run .new pre).turns.fate_feed fromStr i turn.turnId with
  | kept _ _ hsilent _ => exact absurd hsilent.2 hnot
  | cutOff _ _ _ _ hsilent _ => exact absurd hsilent.2 hnot
  | evicted _ _ _ _ _ hemit _ => exact absurd hturn (hemit turn)
  | opened _ _ _ _ _ _ hsilent => exact absurd hsilent.2 hnot
  | marked _ _ _ _ hsilent _ => exact absurd hsilent.2 hnot
  | extended _ _ _ _ _ _ _ hsilent => exact absurd hsilent.2 hnot
  | closed _ _ _ _ _ hsilent _ => exact absurd hsilent.2 hnot
  | routed t hget hr hne h' hs hemit hf =>
    have hkeep : ¬ ((codex fromStr).run .new pre).Lost turn.turnId :=
      fun hl => hne (hcol.lost hl t hget)
    have hfed := hcol.whole hkeep t hget hr
    have hturn' : turn = t.assemble := by
      change .emit turn ∈ (((codex fromStr).run .new pre).turns.feed fromStr i).2 at hturn
      rw [hemit] at hturn
      exact TurnEvent.emit.inj (List.mem_singleton.mp hturn)
    refine ⟨?_, ?_, hcol.fresh t hget, fun d hd hid => ?_⟩
    · rw [← hfed, hturn']
      rfl
    · rw [← hfed, hturn']
      rfl
    · by_contra hd'
      exact hkeep ⟨d, hd, hid, Or.inr hd'⟩

/-- Two fragments of one turn, of which a crowd of other turns drops the first. -/
def splitByEviction : List TurnInput :=
  .finalAnswer "t-0" ⟨"first half", some 0⟩ :: eightOtherTurns ++
    [.finalAnswer "t-0" ⟨"second half", some 900⟩]

theorem wholeEmissions_oneCompleted :
    WholeEmissions (fun _ => none) ([.finalAnswer "t-0" ⟨"first half", some 0⟩,
      .finalAnswer "t-0" ⟨"second half", some 900⟩,
      .taskComplete "t-0" (some "first half\nsecond half")] ++ eightOtherTurns) :=
  wholeEmissions_of_nothingLost _ _ (by decide)

/-- The second half leaves alone. -/
theorem not_wholeEmissions_splitByEviction :
    ¬ WholeEmissions (fun _ => none)
      (splitByEviction ++ [.taskComplete "t-0" (some "second half")]) := by
  intro h
  have hwhole := h splitByEviction (.taskComplete "t-0" (some "second half")) [] rfl
    ⟨"t-0", "second half", some 900⟩ (by decide)
  exact absurd hwhole.start (by decide)

end AgentsCommander.Capture.TurnCodex
