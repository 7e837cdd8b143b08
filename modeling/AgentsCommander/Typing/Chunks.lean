import AgentsCommander.Foundation.Assoc
import Mathlib.Order.Basic

/-! Raw keystroke chunks: the substantive-input classifier, its tracker, and the test for a chunk
that counts as typing. A chunk is the list of its bytes, a loop index the suffix it leaves. -/
namespace AgentsCommander.Typing
open Foundation

abbrev Uuid := ℕ
abbrev Byte := UInt8

/-- The last byte of a CSI or SS3 sequence. -/
def isFinal (b : Byte) : Bool := 0x40 ≤ b && b ≤ 0x7e

/-- What follows the final byte. -/
def skipControl : List Byte → List Byte
  | [] => []
  | b :: rest => if isFinal b then rest else skipControl rest

/-- What follows the second byte of an ST, or the escape alone when it starts none. -/
def skipTerminator : List Byte → List Byte
  | [] => []
  | b :: rest => if b = 0x5c then rest else b :: rest

/-- What follows the BEL or the ST that ends a string. An escape that starts no ST ends it too. -/
def skipString : List Byte → List Byte
  | [] => []
  | b :: rest =>
    if b = 0x07 then rest
    else if b = 0x1b then skipTerminator rest
    else skipString rest

/-- `[` and `O`. -/
def opensControl (b : Byte) : Bool := b = 0x5b || b = 0x4f

/-- `]`, `P`, `_`, `^` and `X`. -/
def opensString (b : Byte) : Bool := b = 0x5d || b = 0x50 || b = 0x5f || b = 0x5e || b = 0x58

/-- What follows the sequence an escape has introduced. -/
def skipEscape : List Byte → List Byte
  | [] => []
  | b :: rest =>
    if opensControl b then skipControl rest
    else if opensString b then skipString rest
    else rest

theorem skipControl_length (l : List Byte) : (skipControl l).length ≤ l.length := by
  induction l with
  | nil => exact le_rfl
  | cons b rest ih =>
    rw [skipControl]
    split_ifs
    · exact Nat.le_succ _
    · exact ih.trans (Nat.le_succ _)

theorem skipTerminator_length (l : List Byte) : (skipTerminator l).length ≤ l.length := by
  cases l with
  | nil => exact le_rfl
  | cons b rest =>
    rw [skipTerminator]
    split_ifs
    · exact Nat.le_succ _
    · exact le_rfl

theorem skipString_length (l : List Byte) : (skipString l).length ≤ l.length := by
  induction l with
  | nil => exact le_rfl
  | cons b rest ih =>
    rw [skipString]
    split_ifs
    · exact Nat.le_succ _
    · exact (skipTerminator_length rest).trans (Nat.le_succ _)
    · exact ih.trans (Nat.le_succ _)

theorem skipEscape_length (l : List Byte) : (skipEscape l).length ≤ l.length := by
  cases l with
  | nil => exact le_rfl
  | cons b rest =>
    rw [skipEscape]
    split_ifs
    · exact (skipControl_length rest).trans (Nat.le_succ _)
    · exact (skipString_length rest).trans (Nat.le_succ _)
    · exact Nat.le_succ _

structure ChunkEffect where
  submitted : Bool
  contributed : Bool
  deriving DecidableEq, Repr

/-- The loop of `classify_chunk`: the pending flag, and what the chunk has done so far. -/
def classifyFrom (pending : Bool) (effect : ChunkEffect) : List Byte → Bool × ChunkEffect
  | [] => (pending, effect)
  | b :: rest =>
    if b = 0x1b then classifyFrom pending effect (skipEscape rest)
    else if b = 0x0d ∨ b = 0x0a then
      if pending then classifyFrom false { effect with submitted := true } rest
      else classifyFrom pending effect rest
    else if b = 0x03 ∨ b = 0x15 then classifyFrom false effect rest
    else if b = 0x08 ∨ b = 0x7f ∨ b = 0x09 ∨ b = 0x20 then classifyFrom pending effect rest
    else if b < 0x20 then classifyFrom pending effect rest
    else classifyFrom true { effect with contributed := true } rest
  termination_by l => l.length
  decreasing_by
    all_goals simp only [List.length_cons]
    · exact Nat.lt_succ_of_le (skipEscape_length rest)
    all_goals omega

def classifyChunk (pending : Bool) (data : List Byte) : Bool × ChunkEffect :=
  classifyFrom pending ⟨false, false⟩ data

def chunkQualifiesTypingHold : List Byte → Bool
  | [] => false
  | b :: rest =>
    if b = 0x1b then chunkQualifiesTypingHold (skipEscape rest)
    else if b = 0x0d ∨ b = 0x0a ∨ b = 0x08 ∨ b = 0x7f ∨ b = 0x09 ∨ b = 0x20 ∨ b = 0x03 ∨
        b = 0x15 then true
    else if b < 0x20 then chunkQualifiesTypingHold rest
    else true
  termination_by l => l.length
  decreasing_by
    all_goals simp only [List.length_cons]
    · exact Nat.lt_succ_of_le (skipEscape_length rest)
    · omega

abbrev Instant := ℕ
abbrev Duration := ℕ

/-- Whether input that is not blank is pending, and since when. -/
structure SubstantiveInputTracker where
  pendingNonspace : AList fun _ : Uuid => Bool
  pendingSince : AList fun _ : Uuid => Instant

namespace SubstantiveInputTracker

def default : SubstantiveInputTracker := ⟨∅, ∅⟩

def pending (t : SubstantiveInputTracker) (id : Uuid) : Bool :=
  (t.pendingNonspace.lookup id).getD false

/-- `feed`: whether the chunk completes a submission, and the tracker after it. -/
def feed (t : SubstantiveInputTracker) (id : Uuid) (data : List Byte) (now : Instant) :
    Bool × SubstantiveInputTracker :=
  let classified := classifyChunk (t.pending id) data
  (classified.2.submitted,
    { pendingNonspace := t.pendingNonspace.insert id classified.1
      pendingSince :=
        if !classified.1 then t.pendingSince.erase id
        else if classified.2.contributed then t.pendingSince.insert id now
        else t.pendingSince })

def reset (t : SubstantiveInputTracker) (id : Uuid) : SubstantiveInputTracker :=
  ⟨t.pendingNonspace.erase id, t.pendingSince.erase id⟩

def pendingWithin (t : SubstantiveInputTracker) (id : Uuid) (maxAge : Duration) (now : Instant) :
    Bool :=
  t.pending id && (t.pendingSince.lookup id).any fun since => now - since ≤ maxAge

end SubstantiveInputTracker
end AgentsCommander.Typing
