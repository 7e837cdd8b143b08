import AgentsCommander.Foundation.Ranking
import Mathlib.Data.List.Basic
import AgentsCommander.Capture.TurnCodex
import AgentsCommander.Foundation.Machine
import AgentsCommander.Foundation.Transaction
import AgentsCommander.Transcript.Reader

/-! The registered coding agents, and the two functions that keep their order. The operations on the
registered agents: add, update, remove, move and reorder. -/
namespace AgentsCommander.CodingAgents
open Foundation
open Capture.TurnCodex (trim)
open Transcript (eqIgnoreAsciiCase)

inductive CodingAgentEnvSource where
  | user | system
  deriving DecidableEq

structure CodingAgentEnv where
  key : String
  value : String
  source : CodingAgentEnvSource
  enabled : Bool
  deriving DecidableEq

structure ConfigSeedConfig where
  enabled : Bool
  dest : String
  deriving DecidableEq

inductive SessionBackendKind where
  | localProcess | containerTransport
  deriving DecidableEq

structure AgentBackendConfig where
  kind : SessionBackendKind
  image : Option String
  deriving DecidableEq

/-- `other`: the fields that nothing here reads. -/
structure AgentConfig (ρ : Type) where
  id : String
  label : String
  command : String
  color : String
  envs : List CodingAgentEnv
  isolatedHome : Bool
  instructionsFilename : Option String
  configSeed : Option ConfigSeedConfig
  order : Option UInt32
  backend : AgentBackendConfig
  other : ρ
  deriving DecidableEq

variable {ρ : Type}

def AgentConfig.withOrder (agent : AgentConfig ρ) (order : Option UInt32) : AgentConfig ρ :=
  { agent with order := order }

/-- The stored ordinal, or else the index. -/
def effectiveOrdinal (agent : AgentConfig ρ) (index : ℕ) : ℕ :=
  (agent.order.map UInt32.toNat).getD index

def agentOrderPermutation (agents : List (AgentConfig ρ)) : List ℕ :=
  Ranking.positions effectiveOrdinal agents

/-- Renumber in the order of the list. -/
def normalizeAgentOrder (agents : List (AgentConfig ρ)) : List (AgentConfig ρ) :=
  agents.mapIdx fun position agent => agent.withOrder (some (UInt32.ofNat position))

/-- Sort by the effective ordinals, and renumber. -/
def finalizeAgentOrder (agents : List (AgentConfig ρ)) : List (AgentConfig ρ) :=
  let permutation := agentOrderPermutation agents
  if permutation.zipIdx.all fun p => p.2 = p.1 then normalizeAgentOrder agents
  else normalizeAgentOrder (Ranking.takeSlots (agents.map some) permutation)

def ids (agents : List (AgentConfig ρ)) : List String := agents.map (·.id)

/-- What an agent is apart from its place. -/
def AgentConfig.record (agent : AgentConfig ρ) : AgentConfig ρ := agent.withOrder none

/-- The ordinals are the positions. -/
def Aligned (agents : List (AgentConfig ρ)) : Prop :=
  agents.map (·.order.map UInt32.toNat) = (List.range agents.length).map some

theorem record_withOrder (agent : AgentConfig ρ) (order : Option UInt32) :
    (agent.withOrder order).record = agent.record := rfl

theorem length_normalizeAgentOrder (agents : List (AgentConfig ρ)) :
    (normalizeAgentOrder agents).length = agents.length := List.length_mapIdx

theorem getElem?_normalizeAgentOrder (agents : List (AgentConfig ρ)) (i : ℕ) :
    (normalizeAgentOrder agents)[i]? =
      agents[i]?.map (·.withOrder (some (UInt32.ofNat i))) := List.getElem?_mapIdx

/-- Renumbering keeps the records. -/
theorem records_normalizeAgentOrder (agents : List (AgentConfig ρ)) :
    (normalizeAgentOrder agents).map AgentConfig.record = agents.map AgentConfig.record := by
  refine List.ext_getElem? fun i => ?_
  rw [List.getElem?_map, List.getElem?_map, getElem?_normalizeAgentOrder, Option.map_map]
  rfl

/-- It looks at the records alone. -/
theorem normalizeAgentOrder_congr {agents agents' : List (AgentConfig ρ)}
    (h : agents.map AgentConfig.record = agents'.map AgentConfig.record) :
    normalizeAgentOrder agents = normalizeAgentOrder agents' := by
  refine List.ext_getElem? fun i => ?_
  have hi : (agents.map AgentConfig.record)[i]? = (agents'.map AgentConfig.record)[i]? := by rw [h]
  rw [List.getElem?_map, List.getElem?_map] at hi
  have hback : ∀ o : Option (AgentConfig ρ), o.map (·.withOrder (some (UInt32.ofNat i))) =
      (o.map AgentConfig.record).map (·.withOrder (some (UInt32.ofNat i))) := by
    intro o
    cases o <;> rfl
  rw [getElem?_normalizeAgentOrder, getElem?_normalizeAgentOrder, hback, hi, ← hback]

theorem ids_of_records {agents agents' : List (AgentConfig ρ)}
    (h : agents.map AgentConfig.record = agents'.map AgentConfig.record) :
    ids agents = ids agents' := by
  have hids : ∀ l : List (AgentConfig ρ), ids l = (l.map AgentConfig.record).map (·.id) := by
    intro l
    rw [List.map_map]
    rfl
  rw [hids, h, ← hids]

theorem ids_normalizeAgentOrder (agents : List (AgentConfig ρ)) :
    ids (normalizeAgentOrder agents) = ids agents :=
  ids_of_records (records_normalizeAgentOrder agents)

theorem aligned_normalizeAgentOrder {agents : List (AgentConfig ρ)}
    (h : agents.length ≤ 2 ^ 32) : Aligned (normalizeAgentOrder agents) := by
  unfold Aligned
  refine List.ext_getElem? fun i => ?_
  rw [List.getElem?_map, List.getElem?_map, getElem?_normalizeAgentOrder,
    length_normalizeAgentOrder, Option.map_map]
  by_cases hi : i < agents.length
  · rw [List.getElem?_eq_getElem hi, List.getElem?_range hi]
    show some (some (UInt32.ofNat i).toNat) = some (some i)
    rw [UInt32.toNat_ofNat', Nat.mod_eq_of_lt (lt_of_lt_of_le hi h)]
  · rw [List.getElem?_eq_none (not_lt.mp hi),
      List.getElem?_eq_none (by rw [List.length_range]; exact not_lt.mp hi)]
    rfl

theorem Aligned.order {agents : List (AgentConfig ρ)} (h : Aligned agents) {i : ℕ}
    {agent : AgentConfig ρ} (hi : agents[i]? = some agent) :
    agent.order.map UInt32.toNat = some i := by
  have hlt : i < agents.length := (List.getElem?_eq_some_iff.mp hi).1
  have hget : (agents.map (·.order.map UInt32.toNat))[i]? =
      ((List.range agents.length).map some)[i]? := by rw [h]
  rw [List.getElem?_map, List.getElem?_map, hi, List.getElem?_range hlt] at hget
  exact Option.some.inj hget

/-- To renumber what is aligned changes nothing. -/
theorem Aligned.normalize {agents : List (AgentConfig ρ)} (h : Aligned agents) :
    normalizeAgentOrder agents = agents := by
  refine List.ext_getElem? fun i => ?_
  rw [getElem?_normalizeAgentOrder]
  cases hi : agents[i]? with
  | none => rfl
  | some agent =>
    have horder := h.order hi
    cases ho : agent.order with
    | none =>
      rw [ho] at horder
      cases horder
    | some ordinal =>
      rw [ho] at horder
      have hordinal : UInt32.ofNat i = ordinal := by
        rw [← Option.some.inj horder, UInt32.ofNat_toNat]
      rw [hordinal, ← ho]
      rfl

/-- The agents by their effective ordinals, renumbered. -/
theorem finalizeAgentOrder_eq (agents : List (AgentConfig ρ)) :
    finalizeAgentOrder agents =
      normalizeAgentOrder ((Ranking.ranked effectiveOrdinal agents).map (·.1)) := by
  unfold finalizeAgentOrder
  dsimp only
  split_ifs with hall
  · rw [Ranking.map_fst_ranked_of_identity hall]
  · rw [agentOrderPermutation, Ranking.takeSlots_positions]

/-- To finalize what is aligned changes nothing. -/
theorem Aligned.finalize {agents : List (AgentConfig ρ)} (h : Aligned agents) :
    finalizeAgentOrder agents = agents := by
  have hsorted : Ranking.ranked effectiveOrdinal agents = agents.zipIdx := by
    refine Ranking.ranked_eq_of_key fun p hp => ?_
    rw [effectiveOrdinal, h.order (List.mem_zipIdx_iff_getElem?.mp hp)]
    rfl
  rw [finalizeAgentOrder_eq, hsorted, List.zipIdx_map_fst, h.normalize]

/-- `other`: the settings that nothing here reads. -/
structure AppSettings (ρ σ : Type) where
  agents : List (AgentConfig ρ)
  other : σ

structure AgentPatch where
  label : Option String
  command : Option String
  color : Option String
  envs : Option (List CodingAgentEnv)
  isolatedHome : Option Bool
  instructionsFilename : Option String
  clearInstructionsFilename : Bool
  configSeedDest : Option String
  configSeedEnabled : Option Bool
  clearConfigSeed : Bool
  backendKind : Option SessionBackendKind
  containerImage : Option String
  clearContainerImage : Bool

inductive CodingAgentOp (ρ : Type) where
  | add (agent : AgentConfig ρ)
  | update (id : String) (patch : AgentPatch)
  | remove (id : String)

inductive OpKind where
  | add | update | remove
  deriving DecidableEq

structure CodingAgentOpOutcome (ρ : Type) where
  op : OpKind
  agent : Option (AgentConfig ρ)
  removedId : Option String

inductive AgentMoveDirection where
  | up | down
  deriving DecidableEq

def validateCustomAgentId (id : String) : Except String Unit :=
  if id.utf8ByteSize = 0 then .error "agent id must not be empty"
  else if 64 < id.utf8ByteSize then
    .error ("agent id '" ++ id ++ "' must be at most 64 characters")
  else if !id.toList.head?.any fun c => c.isLower || c.isDigit then
    .error ("agent id '" ++ id ++ "' must start with a lowercase letter or digit")
  else if !id.toList.all fun c => c.isLower || c.isDigit || c = '-' || c = '_' then
    .error ("agent id '" ++ id ++ "' must match ^[a-z0-9][a-z0-9_-]\x7b0,63\x7d$ " ++
      "(lowercase letters, digits, hyphen, underscore)")
  else .ok ()

def normalizeContainerImageInput (value context : String) : Except String String :=
  let trimmed := trim value
  if trimmed = "" then .error (context ++ " must not be empty")
  else if trimmed.toList.head? = some '-' then .error (context ++ " must not start with '-'")
  else .ok trimmed

/-- An enabled seed has a destination. -/
def ensureSeedConsistent (seed : Option ConfigSeedConfig) : Except String Unit :=
  ensure (!seed.any fun s => s.enabled && trim s.dest = "")
    "config seed is enabled but has no destination; pass --config-seed-dest"

section
variable {ρ σ : Type}

def AgentConfig.withImage (agent : AgentConfig ρ) (image : Option String) : AgentConfig ρ :=
  { agent with backend := { agent.backend with image := image } }

def ensureBackendConsistent (agent : AgentConfig ρ) : Except String (AgentConfig ρ) :=
  let image : Except String (Option String) := match agent.backend.image with
    | none => .ok none
    | some image =>
      if trim image = "" then .ok none
      else (normalizeContainerImageInput (trim image)
        ("Agent \"" ++ agent.label ++ "\" container image")).map some
  image.map fun image =>
    agent.withImage (if agent.backend.kind = .localProcess then none else image)

def patchLabel (agent : AgentConfig ρ) (patch : AgentPatch) : Except String (AgentConfig ρ) :=
  match patch.label with
  | none => .ok agent
  | some label =>
    if trim label = "" then .error "agent label must not be empty"
    else .ok { agent with label := trim label }

def patchSeed (agent : AgentConfig ρ) (patch : AgentPatch) : Except String (AgentConfig ρ) :=
  if patch.clearConfigSeed then .ok { agent with configSeed := none }
  else if patch.configSeedDest.isSome || patch.configSeedEnabled.isSome then
    let seed := agent.configSeed.getD ⟨true, ""⟩
    let seed : ConfigSeedConfig :=
      ⟨patch.configSeedEnabled.getD seed.enabled, patch.configSeedDest.getD seed.dest⟩
    (ensureSeedConsistent (some seed)).map fun _ => { agent with configSeed := some seed }
  else .ok agent

def patchImage (agent : AgentConfig ρ) (patch : AgentPatch) : Except String (AgentConfig ρ) :=
  if patch.clearContainerImage then .ok (agent.withImage none)
  else match patch.containerImage with
    | none => .ok agent
    | some image =>
      (normalizeContainerImageInput image "container image").map fun image =>
        agent.withImage (some image)

def applyPatch (agent : AgentConfig ρ) (patch : AgentPatch) : Except String (AgentConfig ρ) := do
  let agent ← patchLabel agent patch
  let agent : AgentConfig ρ := { agent with
    command := patch.command.getD agent.command
    color := patch.color.getD agent.color
    envs := patch.envs.getD agent.envs
    isolatedHome := patch.isolatedHome.getD agent.isolatedHome
    instructionsFilename := if patch.clearInstructionsFilename then none
      else patch.instructionsFilename <|> agent.instructionsFilename }
  let agent ← patchSeed agent patch
  let agent : AgentConfig ρ := { agent with
    backend := { agent.backend with kind := patch.backendKind.getD agent.backend.kind } }
  let agent ← patchImage agent patch
  ensureBackendConsistent agent

def unknownAgentIdError (id : String) (agents : List (AgentConfig ρ)) : String :=
  let available := ids agents
  "agent id '" ++ id ++ "' not found. Available ids: " ++
    if available = [] then "(none)" else String.intercalate ", " available

/-- The branches of `apply_coding_agent_op` before the agents are renumbered. -/
def editAgents (agents : List (AgentConfig ρ)) :
    CodingAgentOp ρ → Except String (List (AgentConfig ρ) × CodingAgentOpOutcome ρ)
  | .add agent => do
    validateCustomAgentId agent.id
    ensure (!agents.any fun a => eqIgnoreAsciiCase a.id agent.id)
      ("agent id '" ++ agent.id ++ "' already exists")
    ensure (trim agent.label ≠ "") "agent label must not be empty"
    ensureSeedConsistent agent.configSeed
    let newAgent ← ensureBackendConsistent { agent with label := trim agent.label }
    let newAgent := newAgent.withOrder (some (UInt32.ofNat agents.length))
    return (agents ++ [newAgent], ⟨.add, some newAgent, none⟩)
  | .update id patch => do
    let index ← require (agents.findIdx? (·.id = id)) (unknownAgentIdError id agents)
    let agent ← require agents[index]? (unknownAgentIdError id agents)
    let updated ← applyPatch agent patch
    let updated := updated.withOrder (some (UInt32.ofNat index))
    return (agents.set index updated, ⟨.update, some updated, none⟩)
  | .remove id => do
    let index ← require (agents.findIdx? (·.id = id)) (unknownAgentIdError id agents)
    return (agents.eraseIdx index, ⟨.remove, none, some id⟩)

/-- The final row, by its id. -/
def outcomeFromWritten (outcome : CodingAgentOpOutcome ρ) (written : AppSettings ρ σ) :
    Except String (CodingAgentOpOutcome ρ) :=
  if outcome.op = .add ∨ outcome.op = .update then do
    let agent ← require outcome.agent "coding-agent outcome is missing its required row"
    let row ← require (written.agents.find? (·.id = agent.id))
      ("written settings are missing agent '" ++ agent.id ++ "'")
    return { outcome with agent := some row }
  else .ok outcome

/-- `repair`: `validate_and_repair_settings`, which changes the settings also where it fails. -/
def applyCodingAgentOp (repair : AppSettings ρ σ → AppSettings ρ σ × Except String Unit)
    (settings : AppSettings ρ σ) (op : CodingAgentOp ρ) :
    AppSettings ρ σ × Except String (CodingAgentOpOutcome ρ) :=
  match editAgents settings.agents op with
  | .error e => (settings, .error e)
  | .ok (agents, outcome) =>
    let repaired := repair { settings with agents := normalizeAgentOrder agents }
    (repaired.1, repaired.2.bind fun _ => outcomeFromWritten outcome repaired.1)

/-- The loop of `unique_agent_index`: what is left of the list, and what has been found. -/
def uniqueIndexFrom (id : String) :
    List (AgentConfig ρ) → ℕ → Option ℕ → Except String (Option ℕ)
  | [], _, found => .ok found
  | agent :: rest, index, found =>
    if agent.id = id then
      if found.isSome then
        .error ("agent id '" ++ id ++ "' appears more than once; reordering requires unique ids")
      else uniqueIndexFrom id rest (index + 1) (some index)
    else uniqueIndexFrom id rest (index + 1) found

def uniqueAgentIndex (agents : List (AgentConfig ρ)) (id : String) : Except String ℕ := do
  let found ← uniqueIndexFrom id agents 0 none
  require found (unknownAgentIdError id agents)

/-- `slice::swap`. -/
def swap {α : Type} (l : List α) (i j : ℕ) : List α :=
  match l[i]?, l[j]? with
  | some a, some b => (l.set i b).set j a
  | _, _ => l

/-- The index of the neighbor, if there is one. -/
def moveTarget (length : ℕ) (index : ℕ) : AgentMoveDirection → Option ℕ
  | .up => if index = 0 then none else some (index - 1)
  | .down => if index + 1 < length then some (index + 1) else none

def moveError (length : ℕ) (id neighborId : String) (index : ℕ)
    (direction : AgentMoveDirection) : String :=
  match direction with
  | .up =>
    if index = 0 then "agent '" ++ id ++ "' is already at the top of the list" else notAdjacent
  | .down =>
    if length ≤ index + 1 then "agent '" ++ id ++ "' is already at the bottom of the list"
    else notAdjacent
where
  notAdjacent := "agent '" ++ neighborId ++ "' is not adjacent to '" ++ id ++
    "' in the requested direction"

/-- The agents after the swap with the adjacent tool. -/
def movedAgents (agents : List (AgentConfig ρ)) (id neighborId : String)
    (direction : AgentMoveDirection) : Except String (List (AgentConfig ρ)) := do
  let candidate := finalizeAgentOrder agents
  let index ← uniqueAgentIndex candidate id
  let neighbor ← uniqueAgentIndex candidate neighborId
  if moveTarget candidate.length index direction = some neighbor then
    return normalizeAgentOrder (swap candidate index neighbor)
  else throw (moveError candidate.length id neighborId index direction)

/-- The agents after one tool is moved to an index. -/
def reorderedAgents (agents : List (AgentConfig ρ)) (id : String) (expectedIds : List String)
    (targetIndex : ℕ) : Except String (List (AgentConfig ρ)) := do
  let candidate := finalizeAgentOrder agents
  ensure (ids candidate = expectedIds)
    "the agent order changed since it was read; refresh and retry the reorder"
  let index ← uniqueAgentIndex candidate id
  ensure (targetIndex < candidate.length) ("target index " ++ toString targetIndex ++
    " is out of range for " ++ toString candidate.length ++ " agents")
  ensure (targetIndex ≠ index) ("agent '" ++ id ++ "' is already at index " ++
    toString targetIndex ++ "; nothing to reorder")
  let agent ← require candidate[index]? (unknownAgentIdError id candidate)
  return normalizeAgentOrder ((candidate.eraseIdx index).insertIdx targetIndex agent)

/-- A transition over the order replaces the agents, or leaves the settings as they are. -/
def transition (settings : AppSettings ρ σ) (agents : Except String (List (AgentConfig ρ))) :
    AppSettings ρ σ × Except String (List String) :=
  match agents with
  | .error e => (settings, .error e)
  | .ok agents => ({ settings with agents := agents }, .ok (ids agents))

def moveRegisteredAgent (settings : AppSettings ρ σ) (id neighborId : String)
    (direction : AgentMoveDirection) : AppSettings ρ σ × Except String (List String) :=
  transition settings (movedAgents settings.agents id neighborId direction)

def reorderRegisteredAgent (settings : AppSettings ρ σ) (id : String) (expectedIds : List String)
    (targetIndex : ℕ) : AppSettings ρ σ × Except String (List String) :=
  transition settings (reorderedAgents settings.agents id expectedIds targetIndex)

end

inductive ToolEvent (ρ : Type) where
  | op (op : CodingAgentOp ρ)
  | move (id neighborId : String) (direction : AgentMoveDirection)
  | reorder (id : String) (expectedIds : List String) (targetIndex : ℕ)

inductive ToolReply (ρ : Type) where
  | outcome (outcome : CodingAgentOpOutcome ρ)
  | ordered (ids : List String)

def tools {ρ σ : Type} (repair : AppSettings ρ σ → AppSettings ρ σ × Except String Unit) :
    Machine (AppSettings ρ σ) (ToolEvent ρ) (Except String (ToolReply ρ)) where
  step settings
    | .op op => (applyCodingAgentOp repair settings op).map id (Except.map .outcome)
    | .move tool neighbor direction =>
      (moveRegisteredAgent settings tool neighbor direction).map id (Except.map .ordered)
    | .reorder tool expectedIds targetIndex =>
      (reorderRegisteredAgent settings tool expectedIds targetIndex).map id (Except.map .ordered)

end AgentsCommander.CodingAgents
