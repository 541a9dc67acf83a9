import YouMi.Library.Runs
import YouMi.Mcp.Bridge

/-!
# Loads that report success

An agent with a context loads tools while it uses them, takes turns and has idle tools
recycled.  A load that finds the version chain of the tool active reports that it
reuses what is loaded; recycling leaves the chain active.
-/

namespace YouMi.Mcp

open YouMi.Library

structure LoadWorld (V : Type) where
  bridge : ToolBridge V
  vault : Option (ToolVault V)
  gate : Option AuditGate

inductive LoadEvent where
  | loadTool (toolName : String)
  /-- `_load_discovered_tool`, with what the server lists and the identifier drawn. -/
  | loadDiscoveredTool (listTools : Option (List String)) (freshId toolName : String)
  | recordUsage (toolName : String)
  | advanceTurn
  | recycleTools (idleThreshold : Int)

/-- The tool that an event asks to load. -/
def LoadEvent.requested : LoadEvent → Option String
  | .loadTool toolName => some toolName
  | .loadDiscoveredTool _ _ toolName => some toolName
  | _ => none

variable {V : Type}

namespace ToolBridge

/-- The tool is hot in the agent's context. -/
def IsHot (bridge : ToolBridge V) (toolName : String) : Prop :=
  ∃ context, bridge.context = some context ∧ context.getTier toolName = .hot

/-- The vault of the agent's context has the tool. -/
def Stocked (bridge : ToolBridge V) (toolName : String) : Prop :=
  ∃ context, bridge.context = some context ∧
    (context.vault.entries.lookup toolName).isSome = true

/-- The tool is hot, and a call of it passes the permission check. -/
def Ready (bridge : ToolBridge V) (toolName : String) : Prop :=
  bridge.IsHot toolName ∧ bridge.checkPermission toolName = true

end ToolBridge

namespace LoadWorld

def onContext (world : LoadWorld V) (change : AgentToolContext V → AgentToolContext V) :
    LoadWorld V :=
  { world with bridge := { world.bridge with context := world.bridge.context.map change } }

def step (world : LoadWorld V) : LoadEvent → LoadWorld V
  | .loadTool toolName =>
      let loaded := world.bridge.loadTool world.vault toolName
      { world with bridge := loaded.2.1, vault := loaded.2.2 }
  | .loadDiscoveredTool listTools freshId toolName =>
      let outcome :=
        world.bridge.loadDiscoveredTool world.vault world.gate listTools freshId toolName
      { bridge := outcome.bridge, vault := outcome.vault, gate := outcome.gate }
  | .recordUsage toolName => world.onContext fun context => context.recordUsage toolName
  | .advanceTurn => world.onContext AgentToolContext.advanceTurn
  | .recycleTools idleThreshold =>
      world.onContext fun context => (context.recycle (some idleThreshold)).2

/-- What the agent is told of its request. -/
def reportsSuccess (world : LoadWorld V) : LoadEvent → Bool
  | .loadTool toolName => (world.bridge.loadTool world.vault toolName).1
  | .loadDiscoveredTool listTools freshId toolName =>
      !(world.bridge.loadDiscoveredTool world.vault world.gate listTools freshId
        toolName).report.isError
  | _ => false

/-- A tool whose load reports success is ready afterwards. -/
def SuccessMeansReady (world : LoadWorld V) (event : LoadEvent) : Prop :=
  ∀ toolName, event.requested = some toolName → world.reportsSuccess event = true →
    (world.step event).bridge.Ready toolName

/-- What a successful load adds to the tool: `load_tool` makes it hot and leaves the
permissions alone; the other load adds nothing where it reuses a version chain or waits
for an approval, and else grants the tool and makes it hot if its vault has it. -/
def LoadWarranted (world : LoadWorld V) : LoadEvent → Prop
  | .loadTool toolName =>
      world.bridge.Stocked toolName → world.bridge.checkPermission toolName = true
  | .loadDiscoveredTool listTools _ toolName =>
      ToolExists world.vault listTools toolName →
        if world.bridge.activeLineages.lookup (lineageOf world.vault toolName) ≠ none then
          world.bridge.Ready toolName
        else
          match gateDecision world.gate (auditCandidate world.vault toolName)
            world.bridge.allowedTools with
          | .block => True
          | .manual => world.bridge.Ready toolName
          | .pass => world.bridge.IsHot toolName ∨ world.bridge.Stocked toolName
  | _ => True

/-- The agent has a context. -/
def HasContext (world : LoadWorld V) : Prop := ∃ context, world.bridge.context = some context

variable {world : LoadWorld V} {toolName : String}

/-! ## One load -/

theorem hasContext_onContext (owns : world.HasContext)
    (change : AgentToolContext V → AgentToolContext V) : (world.onContext change).HasContext := by
  obtain ⟨context, own⟩ := owns
  refine ⟨change context, ?_⟩
  unfold onContext
  dsimp only
  rw [own]
  rfl

end LoadWorld

theorem ToolBridge.context_loadAdmitted {bridge : ToolBridge V} {context : AgentToolContext V}
    (own : bridge.context = some context) (vault : Option (ToolVault V))
    (gate : Option AuditGate) (toolName : String) :
    (bridge.loadAdmitted vault gate toolName).bridge.context =
      some ((context.promote toolName).2.recordUsage toolName) := by
  have admitted := (fields_enlist bridge toolName).1.trans own
  exact context_activateTool admitted

theorem ToolBridge.checkPermission_loadAdmitted (bridge : ToolBridge V)
    (vault : Option (ToolVault V)) (gate : Option AuditGate) (toolName : String) :
    (bridge.loadAdmitted vault gate toolName).bridge.checkPermission toolName = true := by
  have granted := checkPermission_activateTool vault (bridge.enlist toolName) toolName toolName
  exact granted.trans (checkPermission_enlist_self _ toolName)

/-- A tool that is loaded and granted is ready exactly if it was hot or its vault has it. -/
theorem ToolBridge.ready_loadAdmitted_iff {bridge : ToolBridge V} {context : AgentToolContext V}
    (own : bridge.context = some context) (vault : Option (ToolVault V))
    (gate : Option AuditGate) (toolName : String) :
    (bridge.loadAdmitted vault gate toolName).bridge.Ready toolName ↔
      bridge.IsHot toolName ∨ bridge.Stocked toolName := by
  have after := context_loadAdmitted own vault gate toolName
  have permitted := checkPermission_loadAdmitted bridge vault gate toolName
  have tier : ∀ c, (bridge.loadAdmitted vault gate toolName).bridge.context = some c →
      c.getTier toolName = (context.promote toolName).2.getTier toolName := by
    intro c found
    rw [← Option.some.inj (after.symm.trans found), AgentToolContext.getTier_recordUsage]
  cases known : context.vault.entries.lookup toolName with
  | some entry =>
      have stocked : (context.vault.entries.lookup toolName).isSome = true := by rw [known]; rfl
      refine iff_of_true ⟨⟨_, after, ?_⟩, permitted⟩ (.inr ⟨context, own, stocked⟩)
      rw [tier _ after]
      exact AgentToolContext.getTier_promote stocked
  | none =>
      have same := AgentToolContext.promote_of_unknown known
      constructor
      · rintro ⟨⟨c, found, hot⟩, -⟩
        rw [tier c found, same] at hot
        exact .inl ⟨context, own, hot⟩
      · rintro (⟨c, found, hot⟩ | ⟨c, found, stocked⟩)
        · obtain rfl := Option.some.inj (own.symm.trans found)
          refine ⟨⟨_, after, ?_⟩, permitted⟩
          rw [tier _ after, same]
          exact hot
        · obtain rfl := Option.some.inj (own.symm.trans found)
          rw [known] at stocked
          cases stocked

namespace LoadWorld

variable {world : LoadWorld V} {toolName : String}

theorem bridge_step_loadTool {context : AgentToolContext V}
    (own : world.bridge.context = some context) (toolName : String) :
    (world.step (.loadTool toolName)).bridge =
      { world.bridge with context := some (context.promote toolName).2 } :=
  congrArg (·.2.1) (ToolBridge.loadTool_of_context own)

theorem reportsSuccess_loadTool {context : AgentToolContext V}
    (own : world.bridge.context = some context) (toolName : String) :
    world.reportsSuccess (.loadTool toolName) =
      (context.vault.entries.lookup toolName).isSome :=
  (congrArg Prod.fst (ToolBridge.loadTool_of_context own)).trans
    (AgentToolContext.promote_fst context toolName)

theorem hasContext_step (world : LoadWorld V) (event : LoadEvent) (owns : world.HasContext) :
    (world.step event).HasContext := by
  cases event with
  | loadTool toolName =>
      obtain ⟨context, own⟩ := owns
      exact ⟨_, congrArg ToolBridge.context (bridge_step_loadTool own toolName)⟩
  | loadDiscoveredTool listTools freshId toolName =>
      obtain ⟨context, own⟩ := owns
      have loads := ToolBridge.loadsTo_loadDiscoveredTool world.vault world.gate listTools freshId
        world.bridge toolName
      unfold step HasContext
      dsimp only
      generalize world.bridge.loadDiscoveredTool world.vault world.gate listTools freshId
        toolName = outcome at loads
      cases loads with
      | notFound missing => exact ⟨context, own⟩
      | reused activeId there active => exact ⟨context, own⟩
      | blocked reason there inactive decided => exact ⟨context, own⟩
      | pending reason recordId there inactive decided => exact ⟨context, own⟩
      | loaded there inactive decided =>
          exact ⟨_, ToolBridge.context_loadAdmitted own world.vault _ toolName⟩
  | recordUsage toolName => exact hasContext_onContext owns _
  | advanceTurn => exact hasContext_onContext owns _
  | recycleTools idleThreshold => exact hasContext_onContext owns _

theorem loadTool_ready_iff (owns : world.HasContext) (toolName : String) :
    world.SuccessMeansReady (.loadTool toolName) ↔ world.LoadWarranted (.loadTool toolName) := by
  obtain ⟨context, own⟩ := owns
  have after := bridge_step_loadTool own toolName
  have success := reportsSuccess_loadTool own toolName
  constructor
  · rintro honest ⟨c, found, stocked⟩
    obtain rfl := Option.some.inj (own.symm.trans found)
    have ready := (honest toolName rfl (success.trans stocked)).2
    rw [after] at ready
    exact ready
  · intro warranted other requested reported
    obtain rfl := Option.some.inj requested
    have stocked := success.symm.trans reported
    rw [after]
    exact ⟨⟨_, rfl, AgentToolContext.getTier_promote stocked⟩,
      warranted ⟨context, own, stocked⟩⟩

theorem loadDiscoveredTool_ready_iff (owns : world.HasContext) (listTools : Option (List String))
    (freshId toolName : String) :
    world.SuccessMeansReady (.loadDiscoveredTool listTools freshId toolName) ↔
      world.LoadWarranted (.loadDiscoveredTool listTools freshId toolName) := by
  obtain ⟨context, own⟩ := owns
  have loads := ToolBridge.loadsTo_loadDiscoveredTool world.vault world.gate listTools freshId
    world.bridge toolName
  have unfolded : world.SuccessMeansReady (.loadDiscoveredTool listTools freshId toolName) ↔
      ((world.bridge.loadDiscoveredTool world.vault world.gate listTools freshId
        toolName).report.isError = false →
      (world.bridge.loadDiscoveredTool world.vault world.gate listTools freshId
        toolName).bridge.Ready toolName) := by
    unfold SuccessMeansReady reportsSuccess step LoadEvent.requested
    simp
  rw [unfolded]
  unfold LoadWarranted
  dsimp only
  generalize world.bridge.loadDiscoveredTool world.vault world.gate listTools freshId
    toolName = outcome at loads
  cases loads with
  | notFound missing => exact iff_of_true (fun no => nomatch no) fun there => absurd there missing
  | reused activeId there active => simp [there, active, LoadReport.isError]
  | blocked reason there inactive decided =>
      simp [there, inactive, decided, LoadReport.isError]
  | pending reason recordId there inactive decided =>
      simp [there, inactive, decided, LoadReport.isError]
  | loaded there inactive decided =>
      rw [ToolBridge.ready_loadAdmitted_iff own]
      simp [there, inactive, decided, LoadReport.isError, ToolBridge.loadAdmitted]

theorem ready_iff_warranted (world : LoadWorld V) (event : LoadEvent) (owns : world.HasContext) :
    world.SuccessMeansReady event ↔ world.LoadWarranted event := by
  cases event with
  | loadTool toolName => exact loadTool_ready_iff owns toolName
  | loadDiscoveredTool listTools freshId toolName =>
      exact loadDiscoveredTool_ready_iff owns listTools freshId toolName
  | recordUsage toolName => exact iff_of_true (fun _ none => nomatch none) trivial
  | advanceTurn => exact iff_of_true (fun _ none => nomatch none) trivial
  | recycleTools idleThreshold => exact iff_of_true (fun _ none => nomatch none) trivial

/-- In every run of an agent with a context, the successful loads leave their tools ready
exactly if each load is warranted where it comes. -/
theorem loads_ready_iff (bridge : ToolBridge V) (context : AgentToolContext V)
    (vault : Option (ToolVault V)) (gate : Option AuditGate) (events : List LoadEvent) :
    StepsMeet step SuccessMeansReady ⟨{ bridge with context := some context }, vault, gate⟩
        events ↔
      StepsMeet step LoadWarranted ⟨{ bridge with context := some context }, vault, gate⟩
        events :=
  stepsMeet_congr step HasContext hasContext_step ready_iff_warranted ⟨context, rfl⟩ events

/-- A vault with one cold tool. -/
def oneTool : ToolVault Unit where
  entries := [("tool", { ToolStore.plainEntry "1.0.0" with tier := .cold })]
  store := ToolStore.StoreState.empty none

/-- An agent without a list that keeps its tools in a context over the vault. -/
def freshWorld : LoadWorld Unit :=
  ⟨{ agentId := "a", context := some { vault := oneTool } }, some oneTool, none⟩

/-- A tool that has idled for three turns is recycled and asked for again. -/
def loadedTwice : List LoadEvent :=
  [.loadDiscoveredTool none "" "tool", .advanceTurn, .advanceTurn, .advanceTurn,
    .recycleTools 3, .loadDiscoveredTool none "" "tool"]

theorem reused_while_warm : ¬StepsMeet step SuccessMeansReady freshWorld loadedTwice := by
  rintro ⟨-, -, -, -, -, honest, -⟩
  obtain ⟨⟨context, own, hot⟩, -⟩ := honest "tool" rfl (by decide)
  have warm : (run step freshWorld loadedTwice).bridge.context.map
      (fun context => context.getTier "tool") = some .warm := by decide
  have same : (run step freshWorld loadedTwice).bridge.context = some context := own
  rw [same, Option.map_some, hot] at warm
  exact absurd warm (by decide)

end LoadWorld

end YouMi.Mcp
