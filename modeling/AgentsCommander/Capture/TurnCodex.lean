import Mathlib.Data.Finset.Basic
import Mathlib.Data.List.Basic
import AgentsCommander.Foundation.Table

/-! The Codex turn accumulator: fragments of a turn are collected under the provider's
turn id, and a completion that matches them emits the turn. -/
namespace AgentsCommander.Capture.TurnCodex
open Foundation

def maxOpenTurns : ℕ := 8

inductive ClosureRecord where
  | taskStarted (turnId : String)
  | taskComplete (turnId : String) (lastAgentMessage : Option String)
  deriving DecidableEq, Repr

inductive ClosureParse where
  | closure (record : ClosureRecord)
  | malformed
  | notClosure
  deriving DecidableEq, Repr

/-- A parsed JSON value. The keys of an object are unique. -/
inductive Json where
  | null
  | bool (b : Bool)
  | number (repr : String)
  | string (s : String)
  | array (items : List Json)
  | object (fields : List (String × Json))

namespace Json

def asStr : Json → Option String
  | .string s => some s
  | _ => none

def asObject : Json → Option (List (String × Json))
  | .object fields => some fields
  | _ => none

def lookup (fields : List (String × Json)) (key : String) : Option Json :=
  (fields.find? (·.1 = key)).map (·.2)

def get (value : Json) (key : String) : Option Json := value.asObject.bind (lookup · key)

end Json

def parseClosurePayload (payload : List (String × Json)) (payloadType : String) : ClosureParse :=
  let turnId := ((Json.lookup payload "turn_id").bind Json.asStr).filter (· ≠ "")
  if payloadType = "task_started" then
    match turnId with
    | some turnId => .closure (.taskStarted turnId)
    | none => .malformed
  else if payloadType = "task_complete" ∨ payloadType = "turn_complete" then
    match turnId with
    | some turnId => .closure (.taskComplete turnId
        ((Json.lookup payload "last_agent_message").bind Json.asStr))
    | none => .malformed
  else .notClosure

/-- `fromStr` is `serde_json::from_str`. -/
def parseClosureRecord (fromStr : String → Option Json) (line : String) : ClosureParse :=
  match fromStr line with
  | none => .notClosure
  | some value =>
    if (value.get "type").bind Json.asStr ≠ some "event_msg" then .notClosure
    else match (value.get "payload").bind Json.asObject with
      | none => .notClosure
      | some payload =>
        match (Json.lookup payload "type").bind Json.asStr with
        | none => .notClosure
        | some payloadType => parseClosurePayload payload payloadType

/-- The Unicode property `White_Space`, as `char::is_whitespace` has it. -/
def isWhitespace (c : Char) : Bool :=
  (0x09 ≤ c.val ∧ c.val ≤ 0x0D) ∨ c.val = 0x20 ∨ c.val = 0x85 ∨ c.val = 0xA0 ∨ c.val = 0x1680 ∨
    (0x2000 ≤ c.val ∧ c.val ≤ 0x200A) ∨ c.val = 0x2028 ∨ c.val = 0x2029 ∨ c.val = 0x202F ∨
    c.val = 0x205F ∨ c.val = 0x3000

/-- `str::trim`. -/
def trim (s : String) : String :=
  String.ofList (((s.toList.dropWhile isWhitespace).reverse.dropWhile isWhitespace).reverse)

/-- `replace("\r\n", "\n").replace('\r', "\n")`. -/
def unifyNewlines : List Char → List Char
  | [] => []
  | '\r' :: '\n' :: cs => '\n' :: unifyNewlines cs
  | c :: cs => (if c = '\r' then '\n' else c) :: unifyNewlines cs

def normaliseText (text : String) : String := trim (String.ofList (unifyNewlines text.toList))

structure TurnFragment where
  text : String
  recordStart : Option ℕ
  deriving DecidableEq, Repr

structure AssembledTurn where
  turnId : String
  text : String
  firstRecordStart : Option ℕ
  deriving DecidableEq, Repr

inductive AbstainReason where
  | noAccumulatedFinalAnswer
  | missingLastAgentMessage
  | completenessMismatch
  | alreadyRouted
  | superseded
  deriving DecidableEq, Repr

inductive TurnEvent where
  | emit (turn : AssembledTurn)
  | abstain (turnId : String) (reason : AbstainReason)
  | superseded (turnId : String)
  | evicted (turnId : String)
  | lateAfterRoute (turnId : String)
  | lateAfterSuperseded (turnId : String)
  | malformedClosure
  deriving DecidableEq, Repr

structure TurnCounters where
  emitted : ℕ
  abstained : ℕ
  superseded : ℕ
  evicted : ℕ
  lateAfterRoute : ℕ
  lateAfterSuperseded : ℕ
  malformedClosures : ℕ
  deriving DecidableEq, Repr

structure OpenTurn where
  turnId : String
  fragments : List TurnFragment
  closureSeen : Bool
  routed : Bool
  deriving DecidableEq, Repr

namespace OpenTurn

def push (fragment : TurnFragment) (t : OpenTurn) : OpenTurn :=
  { t with fragments := t.fragments ++ [fragment] }

@[simp] theorem turnId_push (fragment : TurnFragment) (t : OpenTurn) :
    (t.push fragment).turnId = t.turnId := rfl

def close (t : OpenTurn) : OpenTurn := { t with closureSeen := true }

@[simp] theorem turnId_close (t : OpenTurn) : t.close.turnId = t.turnId := rfl

def route (t : OpenTurn) : OpenTurn :=
  { t with fragments := [], closureSeen := true, routed := true }

@[simp] theorem turnId_route (t : OpenTurn) : t.route.turnId = t.turnId := rfl

/-- The fragments joined with a newline, ends trimmed. -/
def text (t : OpenTurn) : String := trim ("\n".intercalate (t.fragments.map (·.text)))

def assemble (t : OpenTurn) : AssembledTurn :=
  ⟨t.turnId, t.text, t.fragments.head?.bind (·.recordStart)⟩

/-- Closed, and not the turn a `task_started` opens. -/
def cutOffBy (turnId : String) (t : OpenTurn) : Bool := t.turnId ≠ turnId ∧ t.closureSeen

end OpenTurn

/-- The open turns stand in the order they were opened. -/
structure TurnAccumulator where
  openTurns : Table OpenTurn.turnId
  counters : TurnCounters
  superseded : Finset String

namespace TurnAccumulator

def new : TurnAccumulator := ⟨.empty, ⟨0, 0, 0, 0, 0, 0, 0⟩, ∅⟩

/-- The loop of `make_room`; every turn of it pops one of at most `fuel` turns. -/
def evictOldest : ℕ → TurnAccumulator → TurnAccumulator × List TurnEvent
  | 0, a => (a, [])
  | fuel + 1, a =>
    if maxOpenTurns ≤ a.openTurns.rows.length then
      match a.openTurns.rows.head? with
      | none => (a, [])
      | some oldest =>
        let popped : TurnAccumulator :=
          { a with
            openTurns := a.openTurns.tail
            counters := { a.counters with evicted := a.counters.evicted + 1 } }
        ((evictOldest fuel popped).1, .evicted oldest.turnId :: (evictOldest fuel popped).2)
    else (a, [])

def makeRoom (a : TurnAccumulator) : TurnAccumulator × List TurnEvent :=
  evictOldest a.openTurns.rows.length a

@[simp] theorem superseded_evictOldest (fuel : ℕ) (a : TurnAccumulator) :
    (evictOldest fuel a).1.superseded = a.superseded := by
  induction fuel generalizing a with
  | zero => rfl
  | succ fuel ih =>
    unfold evictOldest
    split_ifs
    · split
      · rfl
      · exact ih _
    · rfl

/-- Eviction leaves a turn alone, or drops it and says so. -/
theorem get_evictOldest (fuel : ℕ) (a : TurnAccumulator) (turnId : String) :
    ((evictOldest fuel a).1.openTurns.get turnId = a.openTurns.get turnId ∧
      .evicted turnId ∉ (evictOldest fuel a).2) ∨
    ∃ t, a.openTurns.get turnId = some t ∧ (evictOldest fuel a).1.openTurns.get turnId = none ∧
      .evicted turnId ∈ (evictOldest fuel a).2 := by
  induction fuel generalizing a with
  | zero => exact Or.inl ⟨rfl, List.not_mem_nil⟩
  | succ fuel ih =>
    unfold evictOldest
    split_ifs
    · split
      · exact Or.inl ⟨rfl, List.not_mem_nil⟩
      · rename_i oldest hhead
        by_cases hid : turnId = oldest.turnId
        · subst hid
          right
          refine ⟨oldest, Table.get_head hhead, ?_, List.mem_cons_self⟩
          rcases ih _ with ⟨hget, -⟩ | ⟨t, hget, -⟩
          · exact hget.trans (Table.get_tail_self hhead)
          · exact absurd (hget.symm.trans (Table.get_tail_self hhead)) (by simp)
        · have htail := Table.get_tail_ne hhead hid
          rcases ih _ with ⟨hget, hev⟩ | ⟨t, hold, hget, hev⟩
          · left
            refine ⟨hget.trans htail, fun hmem => ?_⟩
            rcases List.mem_cons.mp hmem with he | hmem
            · exact hid (TurnEvent.evicted.inj he)
            · exact hev hmem
          · exact Or.inr ⟨t, htail.symm.trans hold, hget, List.mem_cons_of_mem _ hev⟩
    · exact Or.inl ⟨rfl, List.not_mem_nil⟩

theorem evicted_of_mem_evictOldest {fuel : ℕ} {a : TurnAccumulator} {e : TurnEvent}
    (h : e ∈ (evictOldest fuel a).2) : ∃ turnId, e = .evicted turnId := by
  induction fuel generalizing a with
  | zero => cases h
  | succ fuel ih =>
    unfold evictOldest at h
    split_ifs at h
    · split at h
      · cases h
      · rcases List.mem_cons.mp h with rfl | h
        · exact ⟨_, rfl⟩
        · exact ih h
    · cases h

/-- The loop runs until there is room for one more turn. -/
theorem length_makeRoom (a : TurnAccumulator) :
    a.makeRoom.1.openTurns.rows.length < maxOpenTurns := by
  have key : ∀ fuel (a : TurnAccumulator), a.openTurns.rows.length ≤ fuel →
      (evictOldest fuel a).1.openTurns.rows.length < maxOpenTurns := by
    intro fuel
    induction fuel with
    | zero =>
      intro a ha
      change a.openTurns.rows.length < maxOpenTurns
      unfold maxOpenTurns
      omega
    | succ fuel ih =>
      intro a ha
      unfold evictOldest
      split_ifs with hfull
      · split
        · rename_i hhead
          rw [List.head?_eq_none_iff.mp hhead]
          decide
        · refine ih _ ?_
          change a.openTurns.rows.tail.length ≤ fuel
          rw [List.length_tail]
          omega
      · exact Nat.lt_of_not_le hfull
  exact key _ a le_rfl

theorem get_makeRoom_none {a : TurnAccumulator} {turnId : String}
    (h : a.openTurns.get turnId = none) : a.makeRoom.1.openTurns.get turnId = none := by
  rcases get_evictOldest a.openTurns.rows.length a turnId with ⟨hget, -⟩ | ⟨t, hget, -⟩
  · exact hget.trans h
  · exact absurd (hget.symm.trans h) (by simp)

def onFinalAnswer (a : TurnAccumulator) (turnId : String) (fragment : TurnFragment) :
    TurnAccumulator × List TurnEvent :=
  match h : a.openTurns.get turnId with
  | some turn =>
    if turn.routed then
      ({ a with counters := { a.counters with lateAfterRoute := a.counters.lateAfterRoute + 1 } },
        [.lateAfterRoute turnId])
    else
      ({ a with
          openTurns := a.openTurns.update turnId (OpenTurn.push fragment)
            (OpenTurn.turnId_push fragment) },
        [])
  | none =>
    if turnId ∈ a.superseded then
      ({ a with
          counters :=
            { a.counters with lateAfterSuperseded := a.counters.lateAfterSuperseded + 1 } },
        [.lateAfterSuperseded turnId])
    else
      ({ a.makeRoom.1 with
          openTurns := a.makeRoom.1.openTurns.insert ⟨turnId, [fragment], false, false⟩
            (get_makeRoom_none h) },
        a.makeRoom.2)

def onTaskStarted (a : TurnAccumulator) (turnId : String) : TurnAccumulator × List TurnEvent :=
  let cut := (a.openTurns.rows.filter (·.cutOffBy turnId)).map (·.turnId)
  ({ openTurns := a.openTurns.filter (!·.cutOffBy turnId)
     counters := { a.counters with superseded := a.counters.superseded + cut.length }
     superseded := a.superseded ∪ cut.toFinset },
    cut.map .superseded)

def abstain (a : TurnAccumulator) (turnId : String) (reason : AbstainReason) :
    TurnAccumulator × List TurnEvent :=
  ({ a with counters := { a.counters with abstained := a.counters.abstained + 1 } },
    [.abstain turnId reason])

def closeTurn (a : TurnAccumulator) (turnId : String) : TurnAccumulator :=
  { a with openTurns := a.openTurns.update turnId OpenTurn.close OpenTurn.turnId_close }

def onTaskComplete (a : TurnAccumulator) (turnId : String) (lastAgentMessage : Option String) :
    TurnAccumulator × List TurnEvent :=
  match h : a.openTurns.get turnId with
  | none =>
    if turnId ∈ a.superseded then a.abstain turnId .superseded
    else
      let opened : TurnAccumulator :=
        { a.makeRoom.1 with
          openTurns := a.makeRoom.1.openTurns.insert ⟨turnId, [], true, false⟩
            (get_makeRoom_none h) }
      let closed := opened.abstain turnId .noAccumulatedFinalAnswer
      (closed.1, a.makeRoom.2 ++ closed.2)
  | some turn =>
    if turn.routed then a.abstain turnId .alreadyRouted
    else if turn.fragments = [] then
      (a.closeTurn turnId).abstain turnId .noAccumulatedFinalAnswer
    else match lastAgentMessage with
      | none => (a.closeTurn turnId).abstain turnId .missingLastAgentMessage
      | some lastAgentMessage =>
        if normaliseText turn.text ≠ normaliseText lastAgentMessage then
          (a.closeTurn turnId).abstain turnId .completenessMismatch
        else
          ({ a with
              openTurns := a.openTurns.update turnId OpenTurn.route OpenTurn.turnId_route
              counters := { a.counters with emitted := a.counters.emitted + 1 } },
            [.emit turn.assemble])

def onLine (fromStr : String → Option Json) (a : TurnAccumulator) (line : String) :
    TurnAccumulator × List TurnEvent :=
  match parseClosureRecord fromStr line with
  | .closure (.taskStarted turnId) => a.onTaskStarted turnId
  | .closure (.taskComplete turnId lastAgentMessage) => a.onTaskComplete turnId lastAgentMessage
  | .malformed =>
    ({ a with
        counters := { a.counters with malformedClosures := a.counters.malformedClosures + 1 } },
      [.malformedClosure])
  | .notClosure => (a, [])

end TurnAccumulator
end AgentsCommander.Capture.TurnCodex
