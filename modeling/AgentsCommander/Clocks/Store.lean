import AgentsCommander.Foundation.Assoc
import Mathlib.Data.Int.Order.Basic

/-! The coordinator clocks: one entry per coordinator, a dirty flag, and the creates in flight. -/
namespace AgentsCommander.Clocks
open Foundation

/-- Nanoseconds since the epoch. -/
abbrev DateTime := ℤ

/-- Whole seconds, rounded down. -/
def timestamp (t : DateTime) : ℤ := t / 10 ^ 9

def coalesceSecs : ℤ := 10

structure ClockEntry where
  lastUserMessageAt : Option DateTime
  lastActivityAt : Option DateTime
  autoClosedAt : Option DateTime
  manuallyClosedAt : Option DateTime
  startFreshAt : Option DateTime
  deriving DecidableEq, Repr

def ClockEntry.default : ClockEntry := ⟨none, none, none, none, none⟩

structure ClearedCloseMarkers where
  autoClosedAt : Option DateTime
  manuallyClosedAt : Option DateTime
  deriving DecidableEq, Repr

def ClearedCloseMarkers.default : ClearedCloseMarkers := ⟨none, none⟩

structure CreateLedger where
  active : ℕ
  escrow : ClearedCloseMarkers
  deriving DecidableEq, Repr

abbrev ClockMap := AList fun _ : String => ClockEntry

structure CoordinatorClocks where
  map : ClockMap
  dirty : Bool
  creates : AList fun _ : String => CreateLedger

namespace CoordinatorClocks
variable (clocks : CoordinatorClocks) (fqn : String) (now : DateTime)

/-- `entry(fqn).or_default()`. -/
def entry : ClockEntry := (clocks.map.lookup fqn).getD .default

/-- Store an entry, and set the dirty flag. -/
def put (entry : ClockEntry) : CoordinatorClocks :=
  { clocks with map := clocks.map.insert fqn entry, dirty := true }

def lastUserMessageAt : Option DateTime := (clocks.map.lookup fqn).bind (·.lastUserMessageAt)
def lastActivityAt : Option DateTime := (clocks.map.lookup fqn).bind (·.lastActivityAt)
def autoClosedAt : Option DateTime := (clocks.map.lookup fqn).bind (·.autoClosedAt)
def manuallyClosedAt : Option DateTime := (clocks.map.lookup fqn).bind (·.manuallyClosedAt)
def startFreshAt : Option DateTime := (clocks.map.lookup fqn).bind (·.startFreshAt)

def noteUserMessage : CoordinatorClocks × Bool :=
  let entry := clocks.entry fqn
  if entry.lastUserMessageAt.any fun prev => (now - prev).tdiv (10 ^ 9) < coalesceSecs then
    (clocks, false)
  else (clocks.put fqn { entry with lastUserMessageAt := some now }, true)

def seedIfAbsent : CoordinatorClocks × Bool :=
  if (clocks.map.lookup fqn).isSome then (clocks, false)
  else (clocks.put fqn { ClockEntry.default with lastUserMessageAt := some now }, true)

def noteActivity (candidate : DateTime) : CoordinatorClocks × Bool :=
  let entry := clocks.entry fqn
  if entry.lastActivityAt.all fun prev => prev < candidate then
    (clocks.put fqn { entry with lastActivityAt := some candidate }, true)
  else (clocks, false)

/-- The three functions that clear a marker. -/
def clear (marked : ClockEntry → Bool) (cleared : ClockEntry → ClockEntry) :
    CoordinatorClocks × Bool :=
  match clocks.map.lookup fqn with
  | some entry => if marked entry then (clocks.put fqn (cleared entry), true) else (clocks, false)
  | none => (clocks, false)

def markAutoClosed : CoordinatorClocks × Bool :=
  let entry := clocks.entry fqn
  if entry.manuallyClosedAt.isSome then (clocks, false)
  else if entry.autoClosedAt.isSome then (clocks, false)
  else (clocks.put fqn { entry with autoClosedAt := some now }, true)

def clearAutoClosed : CoordinatorClocks × Bool :=
  clocks.clear fqn (·.autoClosedAt.isSome) fun entry => { entry with autoClosedAt := none }

def markManuallyClosed : CoordinatorClocks × Bool :=
  let entry := clocks.entry fqn
  if entry.manuallyClosedAt.isSome then (clocks, false)
  else (clocks.put fqn { entry with autoClosedAt := none, manuallyClosedAt := some now }, true)

def clearManuallyClosed : CoordinatorClocks × Bool :=
  clocks.clear fqn (·.manuallyClosedAt.isSome) fun entry => { entry with manuallyClosedAt := none }

def markStartFresh : CoordinatorClocks × Bool :=
  let entry := clocks.entry fqn
  if entry.startFreshAt.isSome then (clocks, false)
  else (clocks.put fqn { entry with startFreshAt := some now }, true)

def clearStartFresh : CoordinatorClocks × Bool :=
  clocks.clear fqn (·.startFreshAt.isSome) fun entry => { entry with startFreshAt := none }

/-- How many keys were removed. -/
def retainKeys (keep : String → Bool) : CoordinatorClocks × ℕ :=
  let kept := Assoc.keep clocks.map fun key _ => keep key
  let removed := clocks.map.entries.length - kept.entries.length
  (if removed = 0 then clocks else { clocks with map := kept, dirty := true }, removed)

def removeWorkgroup (project wg : String) : CoordinatorClocks × ℕ :=
  let marker := (project ++ ":" ++ wg ++ "/").toList.map Char.toLower
  clocks.retainKeys fun key => !marker.isPrefixOf (key.toList.map Char.toLower)

def takeDirty : CoordinatorClocks × Bool := ({ clocks with dirty := false }, clocks.dirty)

def ledger : CreateLedger := (clocks.creates.lookup fqn).getD ⟨0, .default⟩

def beginCoordinatorCreate (cleared : ClearedCloseMarkers) : CoordinatorClocks :=
  let ledger := clocks.ledger fqn
  let escrow : ClearedCloseMarkers :=
    ⟨cleared.autoClosedAt <|> ledger.escrow.autoClosedAt,
      cleared.manuallyClosedAt <|> ledger.escrow.manuallyClosedAt⟩
  { clocks with creates := clocks.creates.insert fqn ⟨ledger.active + 1, escrow⟩ }

/-- The markers to restore: only for a failure that ends the last create in flight. -/
def finishCoordinatorCreate (ok : Bool) : CoordinatorClocks × Option ClearedCloseMarkers :=
  match clocks.creates.lookup fqn with
  | none => (clocks, none)
  | some ledger =>
    let ended : CreateLedger := ⟨ledger.active - 1, if ok then .default else ledger.escrow⟩
    if 0 < ended.active then
      ({ clocks with creates := clocks.creates.insert fqn ended }, none)
    else ({ clocks with creates := clocks.creates.erase fqn },
      if ok || ended.escrow = .default then none else some ended.escrow)

end CoordinatorClocks

/-- The mutators of the store, but for `take_dirty`. -/
inductive ClockOp where
  | noteUserMessage (fqn : String) (now : DateTime)
  | seedIfAbsent (fqn : String) (now : DateTime)
  | noteActivity (fqn : String) (candidate : DateTime)
  | markAutoClosed (fqn : String) (now : DateTime)
  | clearAutoClosed (fqn : String)
  | markManuallyClosed (fqn : String) (now : DateTime)
  | clearManuallyClosed (fqn : String)
  | markStartFresh (fqn : String) (now : DateTime)
  | clearStartFresh (fqn : String)
  | retainKeys (keep : String → Bool)
  | beginCoordinatorCreate (fqn : String) (cleared : ClearedCloseMarkers)
  | finishCoordinatorCreate (fqn : String) (ok : Bool)

/-- The store, and whether the mutator says that it changed the map. -/
def ClockOp.apply (clocks : CoordinatorClocks) : ClockOp → CoordinatorClocks × Bool
  | .noteUserMessage fqn now => clocks.noteUserMessage fqn now
  | .seedIfAbsent fqn now => clocks.seedIfAbsent fqn now
  | .noteActivity fqn candidate => clocks.noteActivity fqn candidate
  | .markAutoClosed fqn now => clocks.markAutoClosed fqn now
  | .clearAutoClosed fqn => clocks.clearAutoClosed fqn
  | .markManuallyClosed fqn now => clocks.markManuallyClosed fqn now
  | .clearManuallyClosed fqn => clocks.clearManuallyClosed fqn
  | .markStartFresh fqn now => clocks.markStartFresh fqn now
  | .clearStartFresh fqn => clocks.clearStartFresh fqn
  | .retainKeys keep => (clocks.retainKeys keep).map id (0 < ·)
  | .beginCoordinatorCreate fqn cleared => (clocks.beginCoordinatorCreate fqn cleared, false)
  | .finishCoordinatorCreate fqn ok => ((clocks.finishCoordinatorCreate fqn ok).1, false)

/-- A mutator either says that it changed the map, and sets the flag, or leaves both alone. -/
structure Settled (clocks : CoordinatorClocks) (changed : CoordinatorClocks × Bool) : Prop where
  dirtied : changed.2 = true → changed.1.dirty = true
  kept : changed.2 = false → changed.1.map = clocks.map ∧ changed.1.dirty = clocks.dirty

namespace Settled
variable {clocks : CoordinatorClocks}

theorem put (fqn : String) (entry : ClockEntry) : Settled clocks (clocks.put fqn entry, true) :=
  ⟨fun _ => rfl, nofun⟩

theorem same : Settled clocks (clocks, false) := ⟨nofun, fun _ => ⟨rfl, rfl⟩⟩

theorem ite {c : Prop} [Decidable c] {x y : CoordinatorClocks × Bool} (hx : Settled clocks x)
    (hy : Settled clocks y) : Settled clocks (if c then x else y) := by
  split_ifs
  · exact hx
  · exact hy

theorem clear (fqn : String) (marked : ClockEntry → Bool) (cleared : ClockEntry → ClockEntry) :
    Settled clocks (clocks.clear fqn marked cleared) := by
  unfold CoordinatorClocks.clear
  cases clocks.map.lookup fqn with
  | none => exact same
  | some entry => exact ite (put fqn _) same

theorem retainKeys (keep : String → Bool) :
    Settled clocks ((clocks.retainKeys keep).map id (0 < ·)) := by
  unfold CoordinatorClocks.retainKeys
  dsimp only
  split_ifs with hremoved
  · rw [hremoved]
    exact same
  · refine ⟨fun _ => rfl, fun h => ?_⟩
    exact absurd (Nat.pos_of_ne_zero hremoved) (of_decide_eq_false h)

theorem finishCoordinatorCreate (fqn : String) (ok : Bool) :
    Settled clocks ((clocks.finishCoordinatorCreate fqn ok).1, false) := by
  unfold CoordinatorClocks.finishCoordinatorCreate
  cases clocks.creates.lookup fqn with
  | none => exact same
  | some ledger =>
    dsimp only
    split_ifs <;> exact ⟨nofun, fun _ => ⟨rfl, rfl⟩⟩

theorem apply (op : ClockOp) : Settled clocks (op.apply clocks) := by
  cases op with
  | noteUserMessage fqn now => exact ite same (put fqn _)
  | seedIfAbsent fqn now => exact ite same (put fqn _)
  | noteActivity fqn candidate => exact ite (put fqn _) same
  | markAutoClosed fqn now => exact ite same (ite same (put fqn _))
  | clearAutoClosed fqn => exact clear fqn _ _
  | markManuallyClosed fqn now => exact ite same (put fqn _)
  | clearManuallyClosed fqn => exact clear fqn _ _
  | markStartFresh fqn now => exact ite same (put fqn _)
  | clearStartFresh fqn => exact clear fqn _ _
  | retainKeys keep => exact retainKeys keep
  | beginCoordinatorCreate fqn cleared => exact ⟨nofun, fun _ => ⟨rfl, rfl⟩⟩
  | finishCoordinatorCreate fqn ok => exact finishCoordinatorCreate fqn ok

end Settled

end AgentsCommander.Clocks
