import AgentsCommander.Foundation.Machine
import Mathlib.Tactic.Common

/-! The one cursor query of a startup: it is taken out of the output and answered, and every
other byte passes in order however the output is cut. -/
namespace AgentsCommander.LocalBackend
open Foundation

abbrev Bytes := List UInt8

/-- A string of an operating system command also ends with a bell. -/
inductive CursorQueryState where
  | ground
  | escape
  | csi
  | string (osc : Bool)
  | stringEscape (osc : Bool)
  deriving DecidableEq

namespace CursorQueryState

def isString : CursorQueryState → Bool
  | string _ | stringEscape _ => true
  | _ => false

/-- The state behind a byte. -/
def next (state : CursorQueryState) (byte : UInt8) : CursorQueryState :=
  match state with
  | string osc =>
    if byte = 0x18 ∨ byte = 0x1a then ground
    else if byte = 0x07 ∧ osc then ground
    else if byte = 0x1b then stringEscape osc
    else string osc
  | stringEscape osc =>
    if byte = 0x18 ∨ byte = 0x1a then ground
    else if byte = 0x07 ∧ osc then ground
    else if byte = 0x5c then ground
    else if byte = 0x1b then stringEscape osc
    else string osc
  | other =>
    if byte = 0x18 ∨ byte = 0x1a then ground
    else if byte = 0x1b then escape
    else match other with
      | escape =>
        if byte = 0x5d then string true
        else if byte = 0x50 ∨ byte = 0x58 ∨ byte = 0x5e ∨ byte = 0x5f then string false
        else if byte = 0x5b then csi
        else ground
      | csi => if 0x40 ≤ byte ∧ byte ≤ 0x7e then ground else csi
      | _ => ground

end CursorQueryState

structure OneShotCursorQuery where
  state : CursorQueryState
  pending : Bytes
  armed : Bool
  deriving DecidableEq

/-- A feed under way: what it has not emitted yet, and what it has. A segment that is marked
is the query itself. -/
structure Feeding where
  query : OneShotCursorQuery
  output : Bytes
  emitted : List (Bytes × Bool)

namespace OneShotCursorQuery

def new : OneShotCursorQuery := ⟨.ground, [], true⟩

def segment (output : Bytes) : List (Bytes × Bool) := if output = [] then [] else [(output, false)]

def feedByte (f : Feeding) (byte : UInt8) : Feeding :=
  let q := f.query
  if !q.armed then { f with output := f.output ++ [byte] }
  else if q.pending.length = 1 ∧ byte = 0x5b then
    { f with query := { q with pending := q.pending ++ [byte], state := .csi } }
  else if q.pending.length = 2 ∧ byte = 0x36 then
    { f with query := { q with pending := q.pending ++ [byte] } }
  else if q.pending.length = 3 ∧ byte = 0x6e then
    ⟨{ q with pending := [], armed := false }, [], f.emitted ++ segment f.output ++ [([], true)]⟩
  else
    let state := q.state.next byte
    let held := byte = 0x1b ∧ !state.isString
    ⟨{ q with pending := if held then [byte] else [], state := state },
      f.output ++ q.pending ++ if held then [] else [byte], f.emitted⟩

/-- The emissions of one feed, in order. -/
def feed (q : OneShotCursorQuery) (bytes : Bytes) : OneShotCursorQuery × List (Bytes × Bool) :=
  if !q.armed then (q, segment bytes)
  else
    let f := bytes.foldl feedByte ⟨q, [], []⟩
    (f.query, f.emitted ++ segment f.output)

def finish (q : OneShotCursorQuery) : OneShotCursorQuery × List (Bytes × Bool) :=
  ({ q with pending := [] }, segment q.pending)

/-- The filter, chunk after chunk. -/
def cursorQuery : Machine OneShotCursorQuery Bytes (List (Bytes × Bool)) := ⟨feed⟩

/-- The bytes that pass, and where among them the query is. -/
def flatten (emitted : List (Bytes × Bool)) : List (Option UInt8) :=
  emitted.flatMap fun e => e.1.map some ++ if e.2 then [none] else []

/-- Everything the filter emits for these chunks and at their end. -/
def told (chunks : List Bytes) : List (Option UInt8) :=
  flatten ((cursorQuery.answers new chunks).flatten ++ (cursorQuery.run new chunks).finish.2)

def request : Bytes := [0x1b, 0x5b, 0x36, 0x6e]

/-- The request stands at this position, outside every string. -/
def QueriesAt (state : CursorQueryState) (stream : Bytes) (p : ℕ) : Prop :=
  request <+: stream.drop p ∧ ((stream.take p).foldl CursorQueryState.next state).isString = false

/-! Byte by byte. -/

theorem flatten_append (a b : List (Bytes × Bool)) : flatten (a ++ b) = flatten a ++ flatten b :=
  List.flatMap_append

@[simp] theorem flatten_nil : flatten [] = [] := rfl

@[simp] theorem flatten_query : flatten [([], true)] = [none] := rfl

@[simp] theorem segment_nil : segment [] = [] := rfl

theorem flatten_segment (output : Bytes) : flatten (segment output) = output.map some := by
  unfold segment
  split_ifs with h
  · rw [h]
    rfl
  · simp [flatten]

def Feeding.trace (f : Feeding) : List (Option UInt8) := flatten f.emitted ++ f.output.map some

/-- What is told of the bytes to come, and at their end. -/
def tells (q : OneShotCursorQuery) : Bytes → List (Option UInt8)
  | [] => q.pending.map some
  | byte :: rest =>
    Feeding.trace (feedByte ⟨q, [], []⟩ byte) ++ tells (feedByte ⟨q, [], []⟩ byte).query rest

/-- What a byte does does not depend on what has been collected before. -/
theorem feedByte_frame (f : Feeding) (byte : UInt8) :
    (feedByte f byte).query = (feedByte ⟨f.query, [], []⟩ byte).query ∧
      Feeding.trace (feedByte f byte) =
        Feeding.trace f ++ Feeding.trace (feedByte ⟨f.query, [], []⟩ byte) := by
  unfold feedByte Feeding.trace
  dsimp only
  split_ifs
  all_goals refine ⟨rfl, ?_⟩
  all_goals simp [flatten_append, flatten_segment]

theorem foldl_feedByte (f : Feeding) (bytes rest : Bytes) :
    Feeding.trace (bytes.foldl feedByte f) ++ tells (bytes.foldl feedByte f).query rest =
      Feeding.trace f ++ tells f.query (bytes ++ rest) := by
  induction bytes generalizing f with
  | nil => rfl
  | cons byte bytes ih =>
    obtain ⟨hquery, htrace⟩ := feedByte_frame f byte
    rw [List.foldl_cons, ih, htrace, hquery, List.cons_append, tells, List.append_assoc]

theorem tells_disarmed {q : OneShotCursorQuery} (hq : q.armed = false) (hpending : q.pending = [])
    (bytes : Bytes) : tells q bytes = bytes.map some := by
  induction bytes with
  | nil => rw [tells, hpending]
  | cons byte rest ih =>
    have hbyte : feedByte ⟨q, [], []⟩ byte = ⟨q, [byte], []⟩ := by
      unfold feedByte
      simp [hq]
    rw [tells, hbyte, ih]
    rfl

/-- Nothing is held back once the query was seen. -/
def Settled (q : OneShotCursorQuery) : Prop := q.armed = false → q.pending = []

theorem settled_feedByte {f : Feeding} (h : f.query.Settled) (byte : UInt8) :
    (feedByte f byte).query.Settled := by
  unfold feedByte Settled at *
  dsimp only
  split_ifs with harmed
  · exact h
  all_goals
    intro hd
    simp_all

theorem settled_foldl {f : Feeding} (h : f.query.Settled) (bytes : Bytes) :
    (bytes.foldl feedByte f).query.Settled := by
  induction bytes generalizing f with
  | nil => exact h
  | cons byte bytes ih => exact ih (settled_feedByte h byte)

theorem feed_tells {q : OneShotCursorQuery} (hq : q.Settled) (bytes rest : Bytes) :
    (q.feed bytes).1.Settled ∧
      flatten (q.feed bytes).2 ++ tells (q.feed bytes).1 rest = tells q (bytes ++ rest) := by
  unfold feed
  cases harmed : q.armed with
  | false =>
    refine ⟨hq, ?_⟩
    simp [flatten_segment, tells_disarmed harmed (hq harmed)]
  | true =>
    constructor
    · exact settled_foldl (f := ⟨q, [], []⟩) hq bytes
    · have := foldl_feedByte ⟨q, [], []⟩ bytes rest
      simpa [Feeding.trace, flatten_append, flatten_segment] using this

theorem told_eq (chunks : List Bytes) : told chunks = tells new chunks.flatten := by
  have hgen : ∀ (q : OneShotCursorQuery), q.Settled →
      flatten ((cursorQuery.answers q chunks).flatten ++ (cursorQuery.run q chunks).finish.2) =
        tells q chunks.flatten := by
    induction chunks with
    | nil =>
      intro q _
      exact flatten_segment q.pending
    | cons chunk chunks ih =>
      intro q hq
      obtain ⟨hnext, htells⟩ := feed_tells hq chunk chunks.flatten
      rw [List.flatten_cons, ← htells, ← ih _ hnext, ← flatten_append, ← List.append_assoc]
      rfl
  exact hgen new fun h => nomatch h

/-! What is held back is either the request or passes unchanged. -/

theorem tells_abort {state : CursorQueryState} {pending : Bytes} {byte : UInt8}
    (h1 : ¬ (pending.length = 1 ∧ byte = 0x5b)) (h2 : ¬ (pending.length = 2 ∧ byte = 0x36))
    (h3 : ¬ (pending.length = 3 ∧ byte = 0x6e)) (rest : Bytes) :
    tells ⟨state, pending, true⟩ (byte :: rest) =
      pending.map some ++ tells ⟨state, [], true⟩ (byte :: rest) := by
  have hheld : feedByte ⟨⟨state, pending, true⟩, [], []⟩ byte =
      { feedByte ⟨⟨state, [], true⟩, [], []⟩ byte with
        output := pending ++ (feedByte ⟨⟨state, [], true⟩, [], []⟩ byte).output } := by
    unfold feedByte
    simp [h1, h2, h3]
  rw [tells, tells, hheld]
  unfold feedByte Feeding.trace
  simp

theorem tells_three (rest : Bytes) :
    tells ⟨.csi, [0x1b, 0x5b, 0x36], true⟩ rest =
      if [0x6e] <+: rest then none :: (rest.drop 1).map some
      else [0x1b, 0x5b, 0x36].map some ++ tells ⟨.csi, [], true⟩ rest := by
  cases rest with
  | nil => rfl
  | cons byte rest =>
    by_cases hb : byte = 0x6e
    · subst hb
      rw [if_pos (List.cons_prefix_cons.mpr ⟨rfl, List.nil_prefix⟩), tells]
      exact congrArg (none :: ·) (tells_disarmed rfl rfl rest)
    · rw [if_neg fun h => hb (List.cons_prefix_cons.mp h).1.symm]
      exact tells_abort (by simp) (by simp) (by simpa using hb) rest

theorem tells_two (rest : Bytes) :
    tells ⟨.csi, [0x1b, 0x5b], true⟩ rest =
      if [0x36, 0x6e] <+: rest then none :: (rest.drop 2).map some
      else [0x1b, 0x5b].map some ++ tells ⟨.csi, [], true⟩ rest := by
  cases rest with
  | nil => rfl
  | cons byte rest =>
    by_cases hb : byte = 0x36
    · subst hb
      have hpass : tells ⟨.csi, [], true⟩ (0x36 :: rest) =
          some 0x36 :: tells ⟨.csi, [], true⟩ rest := rfl
      have hnext : tells ⟨.csi, [0x1b, 0x5b], true⟩ (0x36 :: rest) =
          tells ⟨.csi, [0x1b, 0x5b, 0x36], true⟩ rest := rfl
      rw [hpass, hnext, tells_three]
      simp only [List.cons_prefix_cons, true_and, List.drop_succ_cons]
      rfl
    · rw [if_neg fun h => hb (List.cons_prefix_cons.mp h).1.symm]
      exact tells_abort (by simp) (by simpa using hb) (by simp) rest

theorem tells_one (rest : Bytes) :
    tells ⟨.escape, [0x1b], true⟩ rest =
      if [0x5b, 0x36, 0x6e] <+: rest then none :: (rest.drop 3).map some
      else some 0x1b :: tells ⟨.escape, [], true⟩ rest := by
  cases rest with
  | nil => rfl
  | cons byte rest =>
    by_cases hb : byte = 0x5b
    · subst hb
      have hpass : tells ⟨.escape, [], true⟩ (0x5b :: rest) =
          some 0x5b :: tells ⟨.csi, [], true⟩ rest := rfl
      have hnext : tells ⟨.escape, [0x1b], true⟩ (0x5b :: rest) =
          tells ⟨.csi, [0x1b, 0x5b], true⟩ rest := rfl
      rw [hpass, hnext, tells_two]
      simp only [List.cons_prefix_cons, true_and, List.drop_succ_cons]
      rfl
    · rw [if_neg fun h => hb (List.cons_prefix_cons.mp h).1.symm]
      exact tells_abort (by simpa using hb) (by simp) (by simp) rest

/-- The stream without its first request, which is marked where it was. -/
def filtered : CursorQueryState → Bytes → List (Option UInt8)
  | _, [] => []
  | state, byte :: rest =>
    if request <+: byte :: rest ∧ state.isString = false then
      none :: ((byte :: rest).drop 4).map some
    else some byte :: filtered (state.next byte) rest

theorem next_escape {state : CursorQueryState} (h : state.isString = false) :
    state.next 0x1b = .escape := by
  cases state <;> first | rfl | cases h

theorem tells_idle (state : CursorQueryState) (stream : Bytes) :
    tells ⟨state, [], true⟩ stream = filtered state stream := by
  induction stream generalizing state with
  | nil => rfl
  | cons byte rest ih =>
    by_cases hheld : byte = 0x1b ∧ state.isString = false
    · obtain ⟨rfl, hstate⟩ := hheld
      have hnext : tells ⟨state, [], true⟩ (0x1b :: rest) =
          tells ⟨.escape, [0x1b], true⟩ rest := by
        rw [tells]
        unfold feedByte
        simp [next_escape hstate, CursorQueryState.isString, Feeding.trace]
      rw [hnext, tells_one, ih, filtered, next_escape hstate]
      simp only [request, List.cons_prefix_cons, true_and, hstate, and_true, List.drop_succ_cons]
    · have hpass : tells ⟨state, [], true⟩ (byte :: rest) =
          some byte :: tells ⟨state.next byte, [], true⟩ rest := by
        have hstring : byte = 0x1b → (state.next byte).isString = true := by
          rintro rfl
          cases state with
          | string osc | stringEscape osc => rfl
          | ground | escape | csi => exact absurd ⟨rfl, rfl⟩ hheld
        rw [tells]
        unfold feedByte
        by_cases hb : byte = 0x1b
        · simp [hb ▸ hstring hb, hb, Feeding.trace]
        · simp [hb, Feeding.trace]
      have hother : ¬ (request <+: byte :: rest ∧ state.isString = false) :=
        fun h => hheld ⟨(List.cons_prefix_cons.mp h.1).1.symm, h.2⟩
      rw [hpass, ih, filtered, if_neg hother]

theorem filtered_cons (state : CursorQueryState) (byte : UInt8) (rest : Bytes)
    [Decidable (QueriesAt state (byte :: rest) 0)] :
    filtered state (byte :: rest) =
      if QueriesAt state (byte :: rest) 0 then none :: ((byte :: rest).drop 4).map some
      else some byte :: filtered (state.next byte) rest := by
  by_cases h : QueriesAt state (byte :: rest) 0
  · rw [if_pos h]
    exact if_pos h
  · rw [if_neg h]
    exact if_neg h

theorem filtered_of_none {state : CursorQueryState} {stream : Bytes}
    (h : ∀ p, ¬ QueriesAt state stream p) : filtered state stream = stream.map some := by
  induction stream generalizing state with
  | nil => rfl
  | cons byte rest ih =>
    classical
    rw [filtered_cons, if_neg (h 0), ih fun p => h (p + 1)]
    rfl

theorem filtered_of_first {state : CursorQueryState} {stream : Bytes} {p : ℕ}
    (h : QueriesAt state stream p) (hfirst : ∀ q < p, ¬ QueriesAt state stream q) :
    filtered state stream =
      (stream.take p).map some ++ none :: (stream.drop (p + request.length)).map some := by
  induction stream generalizing state p with
  | nil =>
    have hnil := h.1
    rw [List.drop_nil] at hnil
    cases List.prefix_nil.mp hnil
  | cons byte rest ih =>
    cases p with
    | zero =>
      classical
      rw [filtered_cons, if_pos h, List.take_zero, Nat.zero_add]
      rfl
    | succ p =>
      classical
      rw [filtered_cons, if_neg (hfirst 0 p.succ_pos),
        ih h fun q hq => hfirst (q + 1) (Nat.succ_lt_succ hq), Nat.succ_add]
      rfl

/-- However a stream is cut, the filter passes all of it but the first request outside a string,
and says once where that was. -/
theorem told_of_flatten (chunks : List Bytes) :
    ((∀ p, ¬ QueriesAt .ground chunks.flatten p) → told chunks = chunks.flatten.map some) ∧
      ∀ p, QueriesAt .ground chunks.flatten p →
        (∀ q < p, ¬ QueriesAt .ground chunks.flatten q) →
        told chunks = (chunks.flatten.take p).map some ++
          none :: (chunks.flatten.drop (p + request.length)).map some := by
  have htold : told chunks = filtered .ground chunks.flatten :=
    (told_eq chunks).trans (tells_idle .ground chunks.flatten)
  rw [htold]
  exact ⟨filtered_of_none, fun p => filtered_of_first⟩

/-- A request cut between its second and third byte. -/
theorem told_of_flatten_cut :
    told [[0x41, 0x1b, 0x5b], [0x36, 0x6e, 0x42]] = [some 0x41, none, some 0x42] := by
  refine (told_of_flatten [[0x41, 0x1b, 0x5b], [0x36, 0x6e, 0x42]]).2 1 ⟨?_, rfl⟩ fun q hq h => ?_
  · exact ⟨[0x42], rfl⟩
  · obtain rfl : q = 0 := Nat.lt_one_iff.mp hq
    exact absurd (List.cons_prefix_cons.mp h.1).1 (by decide)

end OneShotCursorQuery
end AgentsCommander.LocalBackend
