import YouMi.Mcp.Vault

/-!
# The tool context of an agent

`AgentToolContext` keeps the tier of each tool on the side of one agent.  Of its vault
it only asks whether a tool is there.  What idles is moved from hot to warm, on demand
or when a promotion finds no place.
-/

namespace YouMi.Mcp

open YouMi.Library

structure ContextEntry where
  toolName : String
  tier : ToolContextTier := .cold
  /-- Negative: never used. -/
  lastUsedTurn : Int := -1
  useCount : Nat := 0
  essential : Bool := false

structure AgentToolContext (V : Type) where
  vault : ToolVault V
  maxHotTools : Int := 20
  recycleAfterTurns : Int := 3
  contexts : OrderedDict String ContextEntry := []
  currentTurn : Int := 0

/-- The entry is hot, may be given up, and has not been used for as long as the threshold. -/
def ContextEntry.idles (entry : ContextEntry) (currentTurn threshold : Int) : Bool :=
  entry.tier = .hot && !entry.essential &&
    if entry.lastUsedTurn < 0 then decide (threshold ≤ currentTurn)
    else decide (threshold ≤ currentTurn - entry.lastUsedTurn)

def ContextEntry.recycled (entry : ContextEntry) (currentTurn threshold : Int) : ContextEntry :=
  if entry.idles currentTurn threshold then { entry with tier := .warm } else entry

/-- Essential tools are hot again, all others are cold and never used. -/
def ContextEntry.reset (entry : ContextEntry) : ContextEntry :=
  if entry.essential then { entry with tier := .hot }
  else { entry with tier := .cold, lastUsedTurn := -1, useCount := 0 }

namespace AgentToolContext

variable {V : Type}

/-- A tool that is not in the context is cold. -/
def getTier (context : AgentToolContext V) (toolName : String) : ToolContextTier :=
  match context.contexts.lookup toolName with
  | none => .cold
  | some entry => entry.tier

def hotCount (context : AgentToolContext V) : Nat :=
  (context.contexts.filter fun entry => entry.2.tier = .hot).length

/-- The names of the tools that are moved to warm, and the context without them among the
hot ones. -/
def recycle (context : AgentToolContext V) (idleThreshold : Option Int) :
    List String × AgentToolContext V :=
  let threshold := idleThreshold.getD context.recycleAfterTurns
  (OrderedDict.keys (context.contexts.filter fun entry =>
      entry.2.idles context.currentTurn threshold),
    { context with
      contexts := context.contexts.map fun entry =>
        (entry.1, entry.2.recycled context.currentTurn threshold) })

def setTier (context : AgentToolContext V) (toolName : String) (tier : ToolContextTier) :
    AgentToolContext V :=
  match context.contexts.lookup toolName with
  | none => context
  | some entry =>
      { context with contexts := context.contexts.assign toolName { entry with tier } }

/-- The tool gets an entry where it has none. -/
def enter (context : AgentToolContext V) (toolName : String) : AgentToolContext V :=
  if (context.contexts.lookup toolName).isSome then context
  else { context with contexts := context.contexts.assign toolName { toolName } }

/-- With all places taken, what has idled for a turn gives up its own. -/
def makeRoom (context : AgentToolContext V) : AgentToolContext V :=
  if context.maxHotTools ≤ context.hotCount then (context.recycle (some 1)).2 else context

/-- Whether the tool is hot now. -/
def promote (context : AgentToolContext V) (toolName : String) : Bool × AgentToolContext V :=
  match context.vault.entries.lookup toolName with
  | none => (false, context)
  | some _ =>
      let context := context.enter toolName
      if context.getTier toolName = .hot then (true, context)
      else (true, context.makeRoom.setTier toolName .hot)

/-- `record_usage` in the current turn. -/
def recordUsage (context : AgentToolContext V) (toolName : String) : AgentToolContext V :=
  match context.contexts.lookup toolName with
  | none => context
  | some entry =>
      { context with
        contexts := context.contexts.assign toolName
          { entry with
            lastUsedTurn := context.currentTurn
            useCount := entry.useCount + 1 } }

def advanceTurn (context : AgentToolContext V) : AgentToolContext V :=
  { context with currentTurn := context.currentTurn + 1 }

/-- `record_usage`; with no turn given, in the current one. -/
def recordUsageIn (context : AgentToolContext V) (toolName : String) (turn : Option Int) :
    AgentToolContext V :=
  match context.contexts.lookup toolName with
  | none => context
  | some entry =>
      { context with
        contexts := context.contexts.assign toolName
          { entry with
            lastUsedTurn := turn.getD context.currentTurn
            useCount := entry.useCount + 1 } }

/-- Whether the tool was hot and could be given up. -/
def demote (context : AgentToolContext V) (toolName : String) : Bool × AgentToolContext V :=
  match context.contexts.lookup toolName with
  | none => (false, context)
  | some entry =>
      if entry.tier ≠ .hot ∨ entry.essential then (false, context)
      else (true, context.setTier toolName .warm)

def registerTool (context : AgentToolContext V) (toolName : String) (tier : ToolContextTier)
    (essential : Bool) : AgentToolContext V :=
  { context with contexts := context.contexts.assign toolName { toolName, tier, essential } }

/-- `init_tools`; with no names of hot tools given, all tools of the vault are hot. -/
def initTools (context : AgentToolContext V) (essentialNames : List String)
    (hotNames : Option (List String)) : AgentToolContext V :=
  let hot := hotNames.getD context.vault.entries.keys
  context.vault.entries.keys.foldl (fun context name =>
    context.registerTool name
      (if name ∈ hot ∨ name ∈ essentialNames then .hot else .cold)
      (name ∈ essentialNames)) context

def reset (context : AgentToolContext V) : AgentToolContext V :=
  { context with
    contexts := context.contexts.map fun entry => (entry.1, entry.2.reset)
    currentTurn := 0 }

/-! ## Tiers -/

variable {context : AgentToolContext V} {toolName : String}

theorem isSome_lookup_enter (context : AgentToolContext V) (toolName : String) :
    ((context.enter toolName).contexts.lookup toolName).isSome = true := by
  unfold enter
  split
  · assumption
  · rw [OrderedDict.lookup_assign_self]
    rfl

theorem isSome_lookup_makeRoom (context : AgentToolContext V) (toolName : String) :
    (context.makeRoom.contexts.lookup toolName).isSome =
      (context.contexts.lookup toolName).isSome := by
  unfold makeRoom
  split
  · have mapped := OrderedDict.lookup_map_values context.contexts
      (fun entry => entry.recycled context.currentTurn 1) toolName
    exact (congrArg Option.isSome mapped).trans Option.isSome_map
  · rfl

theorem getTier_setTier (present : (context.contexts.lookup toolName).isSome = true)
    (tier : ToolContextTier) : (context.setTier toolName tier).getTier toolName = tier := by
  obtain ⟨entry, found⟩ := Option.isSome_iff_exists.mp present
  unfold setTier getTier
  rw [found]
  dsimp only
  rw [OrderedDict.lookup_assign_self]

/-- A promotion succeeds for the tools of the vault. -/
theorem promote_fst (context : AgentToolContext V) (toolName : String) :
    (context.promote toolName).1 = (context.vault.entries.lookup toolName).isSome := by
  unfold promote
  cases context.vault.entries.lookup toolName with
  | none => rfl
  | some entry =>
      dsimp only
      split <;> rfl

/-- A tool that is promoted is hot, whatever had to give way. -/
theorem getTier_promote (known : (context.vault.entries.lookup toolName).isSome = true) :
    (context.promote toolName).2.getTier toolName = .hot := by
  obtain ⟨entry, found⟩ := Option.isSome_iff_exists.mp known
  unfold promote
  rw [found]
  dsimp only
  split
  · assumption
  · apply getTier_setTier
    rw [isSome_lookup_makeRoom]
    exact isSome_lookup_enter context toolName

theorem promote_of_unknown (unknown : context.vault.entries.lookup toolName = none) :
    (context.promote toolName).2 = context := by
  unfold promote
  rw [unknown]

theorem vault_setTier (context : AgentToolContext V) (toolName : String)
    (tier : ToolContextTier) : (context.setTier toolName tier).vault = context.vault := by
  unfold setTier
  split <;> rfl

/-- A promotion asks the vault and leaves it alone. -/
theorem vault_promote (context : AgentToolContext V) (toolName : String) :
    (context.promote toolName).2.vault = context.vault := by
  have entered : (context.enter toolName).vault = context.vault := by
    unfold enter
    split <;> rfl
  have roomy : (context.enter toolName).makeRoom.vault = (context.enter toolName).vault := by
    unfold makeRoom
    split <;> rfl
  unfold promote
  cases context.vault.entries.lookup toolName with
  | none => rfl
  | some entry =>
      dsimp only
      split
      · exact entered
      · exact (vault_setTier ..).trans (roomy.trans entered)

theorem getTier_recordUsage (context : AgentToolContext V) (used toolName : String) :
    (context.recordUsage used).getTier toolName = context.getTier toolName := by
  unfold recordUsage
  split
  · rfl
  · rename_i entry found
    unfold getTier
    rw [OrderedDict.lookup_assign]
    by_cases same : toolName = used
    · subst same
      rw [if_pos rfl, found]
    · rw [if_neg same]

end AgentToolContext

end YouMi.Mcp
