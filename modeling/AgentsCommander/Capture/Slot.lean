import Mathlib.Data.Finset.Insert
import AgentsCommander.Foundation.Machine
import AgentsCommander.Capture.Key

/-! The one-candidate slot of a session, with its offers and its consumers, each in two
sections that others may come between. -/
namespace AgentsCommander.Capture
open Foundation

/-- A captured record with the part that only a cut reads. -/
structure SequencedRecord extends CapturedRecord where
  readerSeq : ℕ

def Cut.hides (normalisePath : String → String) (cut : Cut) (record : SequencedRecord)
    (epoch : ℕ) : Bool :=
  if epoch ≠ cut.epoch then false
  else if normalisePath record.file ≠ cut.path then false
  else if cut.readerSeq.any (record.readerSeq ≤ ·) then true
  else
    match record.recordStart with
    | some start => start < cut.len
    | none => true

inductive OfferOutcome where
  | published
  | hiddenByCut
  | duplicatePreamble
  deriving DecidableEq, Repr

/-- A shared record is told from others by its allocation, which none takes over while
anybody has it. -/
abbrev Arc := ℕ

/-- What the slot holds. -/
inductive Held where
  | empty
  | valid (arc : Arc)
  | invalid (reason : String)
  deriving DecidableEq, Repr

def Held.record : Held → Option Arc
  | .valid arc => some arc
  | _ => none

def u64Modulus : ℕ := 2 ^ 64

structure CaptureSlot where
  seq : ℕ := 0
  value : Held := .empty
  cut : Option Cut := none
  seenPreamble : Finset ConsumptionKey := ∅

/-- A `try_consume` that has passed its first checks. -/
structure Consumption where
  candidate : Arc
  expectedSeq : ℕ
  expectedKey : ConsumptionKey
  epoch : ℕ
  normalisePath : String → String

/-- A candidate handed out: of which publication, and what the slot and the caller said of it. -/
structure HandOff where
  publication : ℕ
  arc : Arc
  seq : ℕ
  expectedSeq : ℕ
  key : ConsumptionKey
  expectedKey : ConsumptionKey

inductive SlotHappened where
  | moved (before after : ℕ)
  | published (publication : ℕ) (arc : Arc)
  | handed (handOff : HandOff)

/-- The slot and the calls on it. `moves` counts the transitions, `publications` the
candidates. -/
structure SlotSystem where
  slot : CaptureSlot := {}
  offering : ℕ → Option Arc := fun _ => none
  consuming : ℕ → Option Consumption := fun _ => none
  moves : ℕ := 0
  publications : ℕ := 0
  history : List SlotHappened := []

inductive SlotEvent where
  | setCut (cut : Cut)
  | supersedeCutSequence
  | offer (call : ℕ) (arc : Arc) (epoch : ℕ) (normalisePath : String → String)
  | offerPublish (call : ℕ)
  | invalidate (reason : String)
  | clear
  | tryConsume (call : ℕ) (expectedSeq : ℕ) (expectedKey : ConsumptionKey) (epoch : ℕ)
      (normalisePath : String → String)
  | tryConsumeTake (call : ℕ)

inductive SlotReply where
  | none
  | offered (outcome : OfferOutcome)
  | taken (arc : Option Arc)

section
variable (heap : Arc → SequencedRecord)

/-- What a consumer sees of the slot. -/
def CaptureSlot.snapshot (slot : CaptureSlot) : SlotState where
  seq := slot.seq
  value :=
    match slot.value with
    | .empty => .empty
    | .valid arc => .valid (heap arc).toCapturedRecord
    | .invalid reason => .invalid reason

namespace SlotSystem

/-- Every transition, publication included. -/
def publish (s : SlotSystem) (value : Held) : SlotSystem :=
  { s with
    slot := { s.slot with seq := (s.slot.seq + 1) % u64Modulus, value := value }
    moves := s.moves + 1
    history := .moved s.slot.seq ((s.slot.seq + 1) % u64Modulus) :: s.history }

def keyOf (normalisePath : String → String) (arc : Arc) (epoch : ℕ) : ConsumptionKey :=
  .fromRecord normalisePath (heap arc).toCapturedRecord epoch

/-- The section of `offer` under the guards; `none` where the record is to be published. -/
def offerGuard (slot : CaptureSlot) (arc : Arc) (epoch : ℕ) (normalisePath : String → String) :
    CaptureSlot × Option OfferOutcome :=
  let key := keyOf heap normalisePath arc epoch
  if slot.cut.any fun cut => cut.hides normalisePath (heap arc) epoch then
    (slot, some .hiddenByCut)
  else if (heap arc).origin = .preamble then
    let held := slot.value.record.map fun held => keyOf heap normalisePath held epoch
    if held = some key ∨ key ∈ slot.seenPreamble then (slot, some .duplicatePreamble)
    else ({ slot with seenPreamble := insert key slot.seenPreamble }, none)
  else (slot, none)

def offer (s : SlotSystem) (call : ℕ) (arc : Arc) (epoch : ℕ)
    (normalisePath : String → String) : SlotSystem × SlotReply :=
  if (s.offering call).isSome then (s, .none)
  else
    match offerGuard heap s.slot arc epoch normalisePath with
    | (slot, some outcome) => ({ s with slot := slot }, .offered outcome)
    | (slot, none) =>
      ({ s with slot := slot, offering := Function.update s.offering call (some arc) }, .none)

def offerPublish (s : SlotSystem) (call : ℕ) : SlotSystem × SlotReply :=
  match s.offering call with
  | none => (s, .none)
  | some arc =>
    ({ s.publish (.valid arc) with
      offering := Function.update s.offering call none
      publications := s.publications + 1
      history := .published (s.publications + 1) arc :: (s.publish (.valid arc)).history },
      .offered .published)

def tryConsume (s : SlotSystem) (call expectedSeq : ℕ) (expectedKey : ConsumptionKey) (epoch : ℕ)
    (normalisePath : String → String) : SlotSystem × SlotReply :=
  if (s.consuming call).isSome then (s, .none)
  else if s.slot.seq ≠ expectedSeq then (s, .taken none)
  else
    match s.slot.value.record with
    | none => (s, .taken none)
    | some candidate =>
      if keyOf heap normalisePath candidate epoch ≠ expectedKey then (s, .taken none)
      else
        let c : Consumption := ⟨candidate, expectedSeq, expectedKey, epoch, normalisePath⟩
        ({ s with consuming := Function.update s.consuming call (some c) }, .none)

/-- The critical section of `try_consume`, which checks once more. -/
def tryConsumeTake (s : SlotSystem) (call : ℕ) : SlotSystem × SlotReply :=
  match s.consuming call with
  | none => (s, .none)
  | some c =>
    let done := { s with consuming := Function.update s.consuming call none }
    if s.slot.seq ≠ c.expectedSeq then (done, .taken none)
    else
      match s.slot.value with
      | .valid arc =>
        if arc = c.candidate then
          (publish { done with
            history := .handed
              { publication := s.publications, arc := arc, seq := s.slot.seq,
                expectedSeq := c.expectedSeq, key := keyOf heap c.normalisePath arc c.epoch,
                expectedKey := c.expectedKey } :: s.history } .empty, .taken (some arc))
        else (done, .taken none)
      | _ => (done, .taken none)

def step (s : SlotSystem) : SlotEvent → SlotSystem × SlotReply
  | .setCut cut => ({ s with slot := { s.slot with cut := some cut } }, .none)
  | .supersedeCutSequence =>
    ({ s with slot := { s.slot with cut := s.slot.cut.map Cut.supersedeSequence } }, .none)
  | .offer call arc epoch normalisePath => s.offer heap call arc epoch normalisePath
  | .offerPublish call => s.offerPublish call
  | .invalidate reason => (s.publish (.invalid reason), .none)
  | .clear => (s.publish .empty, .none)
  | .tryConsume call expectedSeq expectedKey epoch normalisePath =>
    s.tryConsume heap call expectedSeq expectedKey epoch normalisePath
  | .tryConsumeTake call => s.tryConsumeTake heap call

end SlotSystem

def captureSlot : Machine SlotSystem SlotEvent SlotReply := ⟨SlotSystem.step heap⟩

end
end AgentsCommander.Capture
