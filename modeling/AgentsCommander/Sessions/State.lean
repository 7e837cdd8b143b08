import AgentsCommander.Foundation.Assoc
import AgentsCommander.Sessions.Session

/-! The state of the session manager, its prompt domains, and the write guard every mutation
goes through. -/
namespace AgentsCommander.Sessions
open Foundation

structure RetainedPrompt where
  lastPrompt : Option String
  blocked : Bool
  deriving DecidableEq, Repr

def RetainedPrompt.default : RetainedPrompt := ⟨none, false⟩

structure PendingPrompt where
  key : PromptKey
  continuation : Bool
  fresh : Bool
  allowRetainedLookup : Bool
  deriving DecidableEq, Repr

/-- Seeds, origins and recipes are JSON values that are only compared. -/
structure CodingAgentBinding where
  id : String
  seed : Option String
  origin : Option String
  deriving DecidableEq, Repr

structure SessionManagerState where
  retainedPrompts : AList fun _ : PromptKey => RetainedPrompt
  promptKeys : AList fun _ : Uuid => PromptKey
  pendingPrompts : AList fun _ : Uuid => PendingPrompt
  promptSeedBlocked : Finset Uuid
  promptsWritable : Bool
  promptsReusable : Bool
  codingAgentBindings : AList fun _ : Uuid => String
  bindingSeeds : AList fun _ : String => String
  bindingOrigins : AList fun _ : String => String
  failedBindingRecipes : AList fun _ : String => String
  carrierVersions : AList fun _ : Uuid => ℕ
  raiseNonces : AList fun _ : Uuid => Uuid
  sessions : AList fun _ : Uuid => Session
  order : List Uuid
  pendingCreate : AList fun _ : Uuid => Uuid
  nextNumber : ℕ
  epoch : Uuid
  revision : ℕ
  selection : SessionSelection

/-- `with_activity_coalescer`. -/
def SessionManagerState.new (epoch : Uuid) : SessionManagerState where
  retainedPrompts := ∅
  promptKeys := ∅
  pendingPrompts := ∅
  promptSeedBlocked := ∅
  promptsWritable := false
  promptsReusable := false
  codingAgentBindings := ∅
  bindingSeeds := ∅
  bindingOrigins := ∅
  failedBindingRecipes := ∅
  carrierVersions := ∅
  raiseNonces := ∅
  sessions := ∅
  order := []
  pendingCreate := ∅
  nextNumber := 1
  epoch := epoch
  revision := 0
  selection := .initial epoch

def checkedAdd (bound n : ℕ) : Option ℕ := if n < bound then some (n + 1) else none

namespace SessionManagerState

def rows (s : SessionManagerState) : List Session := Assoc.values s.sessions

def isPending (s : SessionManagerState) (id : Uuid) : Bool := (s.pendingCreate.lookup id).isSome

/-- `sessions.get_mut`, and a write through it. -/
def editRow (s : SessionManagerState) (id : Uuid) (f : Session → Session) : SessionManagerState :=
  { s with sessions := Assoc.adjust s.sessions id f }

def version (s : SessionManagerState) (id : Uuid) : ℕ := (s.carrierVersions.lookup id).getD 0

def bindingMatches (s : SessionManagerState) (binding : PendingCreateBinding) : Bool :=
  s.pendingCreate.lookup binding.sessionId = some binding.nonce

def clearFailedRecipeForRuntimeBinding (s : SessionManagerState) (runtime : Uuid) :
    SessionManagerState :=
  match s.codingAgentBindings.lookup runtime with
  | some id => { s with failedBindingRecipes := s.failedBindingRecipes.erase id }
  | none => s

def retireCodingAgentBinding (s : SessionManagerState) (runtime : Uuid) : SessionManagerState :=
  match s.codingAgentBindings.lookup runtime with
  | none => s
  | some binding =>
    let bindings := s.codingAgentBindings.erase runtime
    if binding ∉ Assoc.values bindings ∧ (s.failedBindingRecipes.lookup binding).isNone then
      { s with
        codingAgentBindings := bindings
        bindingSeeds := s.bindingSeeds.erase binding
        bindingOrigins := s.bindingOrigins.erase binding }
    else { s with codingAgentBindings := bindings }

def promptDomainExclusive (s : SessionManagerState) (key : PromptKey) (owner : Option Uuid) : Bool :=
  s.promptKeys.entries.all fun e => some e.1 = owner || e.2 ≠ key

/-- The rows that a write turned fresh. -/
def turnedFresh (before s : SessionManagerState) : List Session :=
  s.rows.filter fun row => row.startFreshOnRestore &&
    (before.sessions.lookup row.id).any fun old => !old.startFreshOnRestore

def invalidatePromptDomains (before s : SessionManagerState) : SessionManagerState :=
  let keys := Assoc.keep s.promptKeys fun id key => (s.sessions.lookup id).any key.matches
  let owners key := (Assoc.values keys).countP (· = key)
  let fresh := turnedFresh before s
  let freshKeys := fresh.filterMap fun row => keys.lookup row.id
  { s with
    promptKeys := keys
    retainedPrompts := freshKeys.foldl
      (fun m key => m.insert key ⟨none, 1 < owners key⟩) s.retainedPrompts
    promptSeedBlocked := s.promptSeedBlocked ∪ (fresh.map (·.id)).toFinset
    sessions := fresh.foldl
      (fun m row => Assoc.adjust m row.id fun r => { r with lastPrompt := none }) s.sessions }

/-- A version past its range stays as it is, and the tracker fails closed. -/
def bumpVersion (s : SessionManagerState) (id : Uuid) : SessionManagerState :=
  match checkedAdd u64Max (s.version id) with
  | some next => { s with carrierVersions := s.carrierVersions.insert id next }
  | none => s

def retireRow (s : SessionManagerState) (id : Uuid) : SessionManagerState :=
  let bumped := s.bumpVersion id
  { bumped with
    promptKeys := s.promptKeys.erase id
    pendingPrompts := s.pendingPrompts.erase id
    promptSeedBlocked := s.promptSeedBlocked.erase id
    raiseNonces := s.raiseNonces.erase id }

/-- Whether a write changed what a carrier of the row may rely on. -/
def carrierChanged (before s : SessionManagerState) (row : Session) : Bool :=
  (before.sessions.lookup row.id).all (fun old => !stableCarrierEqual old row) ||
    before.isPending row.id ≠ s.isPending row.id ||
    ((before.selection.id ≠ s.selection.id || before.selection.mode ≠ s.selection.mode) &&
      (before.selection.id = some row.id || s.selection.id = some row.id))

def publishRow (before s : SessionManagerState) (row : Session) : SessionManagerState :=
  if carrierChanged before s row then
    match checkedAdd u64Max (s.version row.id) with
    | none => s
    | some next =>
      { s with
        carrierVersions := s.carrierVersions.insert row.id next
        raiseNonces := s.raiseNonces.erase row.id }
  else s

/-- Dropping the `CarrierStateWrite` taken in `before`. -/
def drop (before s : SessionManagerState) : SessionManagerState :=
  let s := invalidatePromptDomains before s
  let removed := before.sessions.keys.filter fun id => (s.sessions.lookup id).isNone
  let s := removed.foldl retireRow s
  s.rows.foldl (publishRow before) s

/-- A mutation under the write guard. -/
def write (s : SessionManagerState) (f : SessionManagerState → SessionManagerState) :
    SessionManagerState :=
  drop s (f s)

/-- A mutation that came to nothing; the guard is dropped all the same. -/
def touch (s : SessionManagerState) : SessionManagerState := drop s s

/-- A write to a row that is not a pending create. -/
def editPublic (s : SessionManagerState) (id : Uuid) (f : Session → Session) :
    SessionManagerState :=
  s.write fun s => if s.isPending id then s else s.editRow id f

/-- `update_pending_with_carrier_permit`. -/
def updatePending (s : SessionManagerState) (binding : PendingCreateBinding)
    (f : Session → Session) : SessionManagerState :=
  s.write fun s => if s.bindingMatches binding then s.editRow binding.sessionId f else s

end SessionManagerState
end AgentsCommander.Sessions
