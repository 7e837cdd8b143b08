import Mathlib.Data.Nat.Notation
import Mathlib.Order.Basic

/-! Consumption keys, file observations, cuts, and the part of a captured record that a
commit reads. Paths are texts; times are in nanoseconds. -/
namespace AgentsCommander.Capture

/-- What the reader has seen of one file: its length and a capped head. -/
structure FileObservation where
  len : ℕ
  head : List UInt8
  prefixLen : ℕ
  deriving DecidableEq, Repr

inductive ObservationVerdict where
  | append
  | truncated
  | replaced
  deriving DecidableEq, Repr

def ObservationVerdict.advancesEpoch : ObservationVerdict → Bool
  | .truncated | .replaced => true
  | .append => false

/-- Heads are compared over the range both sides have. -/
def classifyObservation (stored current : FileObservation) : ObservationVerdict :=
  if current.len < stored.len then .truncated
  else
    let shared := min (min (min (min stored.prefixLen current.prefixLen) current.len)
      stored.head.length) current.head.length
    if 0 < shared ∧ stored.head.take shared ≠ current.head.take shared then .replaced
    else .append

def extendObservation (stored current : FileObservation) : FileObservation :=
  if stored.prefixLen < current.prefixLen then ⟨current.len, current.head, current.prefixLen⟩
  else { stored with len := current.len }

structure ConsumptionKey where
  path : String
  epoch : ℕ
  recordStart : Option ℕ
  textSha256 : Vector UInt8 32
  deriving DecidableEq

structure Cut where
  path : String
  epoch : ℕ
  len : ℕ
  readerSeq : Option ℕ
  deriving DecidableEq, Repr

def Cut.supersedeSequence (cut : Cut) : Cut := { cut with readerSeq := none }

inductive RecordOrigin where
  | live
  | preamble
  | rotationBackfill
  deriving DecidableEq, Repr

structure CapturedRecord where
  sessionId : String
  file : String
  recordStart : Option ℕ
  textSha256 : Vector UInt8 32
  origin : RecordOrigin
  deriving DecidableEq

/-- A baseline is consumed but never routed. -/
def isBaseline (record : CapturedRecord) : Bool :=
  record.origin = .preamble ∨ record.origin = .rotationBackfill

/-- `normalisePath` is the file system's answer to `normalise_path`. -/
def ConsumptionKey.fromRecord (normalisePath : String → String) (record : CapturedRecord)
    (epoch : ℕ) : ConsumptionKey :=
  ⟨normalisePath record.file, epoch, record.recordStart, record.textSha256⟩

inductive SlotValue where
  | empty
  | valid (record : CapturedRecord)
  | invalid (reason : String)

def SlotValue.record : SlotValue → Option CapturedRecord
  | .valid record => some record
  | _ => none

structure SlotState where
  seq : ℕ
  value : SlotValue

end AgentsCommander.Capture
