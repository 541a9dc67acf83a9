import YouMi.Mcp.AuditGate
import YouMi.Mcp.ToolContext

/-!
# The tool bridge

`ToolBridge` stands between one agent and the tools: it says which tools the agent may
call and loads what the agent has found.  A vault and a gate may be shared by bridges,
so they are given to an operation and handed back by it.  What the vault counts of the
use of a tool is left out, as are the search operations.
-/

namespace YouMi.Mcp

open YouMi.Core YouMi.Library

structure ToolBridge (V : Type) where
  agentId : String
  /-- Nothing: every tool may be called. -/
  allowedTools : Option (List String) := none
  context : Option (AgentToolContext V) := none
  rejectedTools : List String := []
  /-- The tool that is loaded for a version chain. -/
  activeLineages : OrderedDict String String := []
  rejectCount : Nat := 0

/-- What `_load_discovered_tool` answers. -/
inductive LoadReport where
  | notFound
  | reused (activeId : String)
  | blocked (reason : AuditReason)
  | pendingApproval (reason : AuditReason) (recordId : String)
  | loaded (promoted : Bool)

def LoadReport.isError : LoadReport → Bool
  | .notFound | .blocked _ => true
  | _ => false

def LoadReport.waits : LoadReport → Bool
  | .pendingApproval .. => true
  | _ => false

def LoadReport.activates : LoadReport → Bool
  | .loaded _ => true
  | _ => false

structure LoadOutcome (V : Type) where
  report : LoadReport
  bridge : ToolBridge V
  vault : Option (ToolVault V)
  gate : Option AuditGate

/-- The list a bridge is made with; an empty one sets no limit. -/
def allowList (given : List String) : Option (List String) :=
  if given = [] then none else some given

variable {V : Type}

def entryOf (vault : Option (ToolVault V)) (toolName : String) : Option (VaultEntry V) :=
  vault.bind fun vault => vault.entries.lookup toolName

/-- `_audit_candidate`: a tool without an entry counts as harmless. -/
def auditCandidate (vault : Option (ToolVault V)) (toolName : String) : ToolSearchResult :=
  match entryOf vault toolName with
  | some entry =>
      { toolName
        definition := some entry.definition
        summary := entry.summary
        riskLevel := entry.riskLevel
        requiredPermissions := entry.requiredPermissions
        lineageId := orElse entry.lineageId toolName }
  | none => { toolName }

theorem toolName_auditCandidate (vault : Option (ToolVault V)) (toolName : String) :
    (auditCandidate vault toolName).toolName = toolName := by
  unfold auditCandidate
  split <;> rfl

def lineageOf (vault : Option (ToolVault V)) (toolName : String) : String :=
  match entryOf vault toolName with
  | some entry => orElse entry.lineageId toolName
  | none => toolName

/-- `listTools` is what the server lists, nothing where the call raises. -/
def ToolExists (vault : Option (ToolVault V)) (listTools : Option (List String))
    (toolName : String) : Prop :=
  (entryOf vault toolName).isSome ∨ ∀ names, listTools = some names → toolName ∈ names

instance (vault : Option (ToolVault V)) (listTools : Option (List String)) (toolName : String) :
    Decidable (ToolExists vault listTools toolName) := by
  unfold ToolExists
  cases listTools with
  | none => exact isTrue (.inr fun _ given => nomatch given)
  | some names =>
      exact decidable_of_iff ((entryOf vault toolName).isSome ∨ toolName ∈ names) (by simp)

/-- What a gate decides; without a gate everything passes. -/
def gateDecision (gate : Option AuditGate) (candidate : ToolSearchResult)
    (granted : Option (List String)) : AuditDecision :=
  match gate with
  | none => .pass
  | some gate => AuditGate.decisionFor gate.riskThreshold candidate granted

namespace ToolBridge

def checkPermission (bridge : ToolBridge V) (toolName : String) : Bool :=
  match bridge.allowedTools with
  | none => true
  | some allowed => toolName ∈ allowed

def addAllowedTool (bridge : ToolBridge V) (toolName : String) : ToolBridge V :=
  { bridge with allowedTools := some ((bridge.allowedTools.getD []).insert toolName) }

/-- The tool is added where the agent has a list. -/
def enlist (bridge : ToolBridge V) (toolName : String) : ToolBridge V :=
  if bridge.allowedTools.isSome then bridge.addAllowedTool toolName else bridge

def rejectSearchResult (bridge : ToolBridge V) (toolName : String) : ToolBridge V :=
  { bridge with rejectedTools := bridge.rejectedTools.insert toolName }

/-- The agent's context is asked where there is one, and else the vault. -/
def loadTool (vault : Option (ToolVault V)) (bridge : ToolBridge V) (toolName : String) :
    Bool × ToolBridge V × Option (ToolVault V) :=
  match bridge.context with
  | some context =>
      let (promoted, context) := context.promote toolName
      (promoted, { bridge with context := some context }, vault)
  | none =>
      match vault with
      | none => (false, bridge, none)
      | some vault =>
          let (entry, vault) := vault.loadTool toolName
          (entry.isSome, bridge, some vault)

def registerLineage (vault : Option (ToolVault V)) (bridge : ToolBridge V) (toolName : String) :
    ToolBridge V :=
  let toolId :=
    match entryOf vault toolName with
    | some entry => entry.toolName ++ "@" ++ entry.version
    | none => toolName
  { bridge with
    activeLineages := bridge.activeLineages.assign (lineageOf vault toolName) toolId }

/-- `_activate_tool`, and so `confirm_search_result`. -/
def activateTool (vault : Option (ToolVault V)) (bridge : ToolBridge V) (toolName : String) :
    Bool × ToolBridge V × Option (ToolVault V) :=
  let (promoted, bridge, vault) := (bridge.enlist toolName).loadTool vault toolName
  let bridge := { bridge with
    context := bridge.context.map fun context : AgentToolContext V => context.recordUsage toolName
    rejectedTools := [] }
  (promoted, bridge.registerLineage vault toolName, vault)

/-- The end of `_load_discovered_tool`: the tool is granted and activated. -/
def loadAdmitted (vault : Option (ToolVault V)) (gate : Option AuditGate) (bridge : ToolBridge V)
    (toolName : String) : LoadOutcome V :=
  let (promoted, bridge, vault) := (bridge.enlist toolName).activateTool vault toolName
  { report := .loaded promoted, bridge := { bridge with rejectCount := 0 }, vault, gate }

/-- `freshId` is the identifier drawn for a record of approval. -/
def loadDiscoveredTool (vault : Option (ToolVault V)) (gate : Option AuditGate)
    (listTools : Option (List String)) (freshId : String) (bridge : ToolBridge V)
    (toolName : String) : LoadOutcome V :=
  if ¬ToolExists vault listTools toolName then { report := .notFound, bridge, vault, gate }
  else
    match bridge.activeLineages.lookup (lineageOf vault toolName) with
    | some activeId => { report := .reused activeId, bridge, vault, gate }
    | none =>
        match gate with
        | none => bridge.loadAdmitted vault none toolName
        | some gate =>
            let (audit, gate) :=
              gate.check freshId (auditCandidate vault toolName) bridge.agentId
                bridge.allowedTools
            match audit.decision with
            | .block =>
                { report := .blocked audit.reason
                  bridge := bridge.rejectSearchResult toolName
                  vault, gate := some gate }
            | .manual =>
                { report := .pendingApproval audit.reason audit.recordId
                  bridge, vault, gate := some gate }
            | .pass => bridge.loadAdmitted vault (some gate) toolName

/-- One name of `inject_tool_context`, and whether it counts as injected. -/
def injectTool (bridge : ToolBridge V) (toolName : String) : Bool × ToolBridge V :=
  match bridge.context with
  | none => (true, bridge.addAllowedTool toolName)
  | some context =>
      let (success, context) := context.promote toolName
      let bridge := { bridge with context := some context }
      (success, if success then bridge.addAllowedTool toolName else bridge)

/-- The number of tools that are injected. -/
def injectToolContext (bridge : ToolBridge V) : List String → Nat × ToolBridge V
  | [] => (0, bridge)
  | toolName :: rest =>
      let (success, bridge) := bridge.injectTool toolName
      let (injected, bridge) := bridge.injectToolContext rest
      (injected + success.toNat, bridge)

/-! ## What a load does -/

variable {vault : Option (ToolVault V)} {gate : Option AuditGate}
  {listTools : Option (List String)} {bridge : ToolBridge V} {freshId toolName : String}
  {context : AgentToolContext V}

theorem checkPermission_enlist (bridge : ToolBridge V) (toolName other : String) :
    (bridge.enlist toolName).checkPermission other =
      (bridge.checkPermission other || decide (other = toolName ∧ bridge.allowedTools ≠ none)) := by
  unfold enlist checkPermission
  cases found : bridge.allowedTools with
  | none => simp [found]
  | some allowed =>
      simp only [Option.isSome_some, ↓reduceIte, addAllowedTool, found, Option.getD_some]
      by_cases same : other = toolName <;> simp [same]

theorem checkPermission_enlist_self (bridge : ToolBridge V) (toolName : String) :
    (bridge.enlist toolName).checkPermission toolName = true := by
  rw [checkPermission_enlist]
  cases found : bridge.allowedTools with
  | none => simp [checkPermission, found]
  | some allowed => simp

theorem fields_enlist (bridge : ToolBridge V) (toolName : String) :
    (bridge.enlist toolName).context = bridge.context ∧
      (bridge.enlist toolName).agentId = bridge.agentId ∧
      (bridge.enlist toolName).activeLineages = bridge.activeLineages := by
  unfold enlist
  split <;> exact ⟨rfl, rfl, rfl⟩

theorem fields_loadTool (vault : Option (ToolVault V)) (bridge : ToolBridge V)
    (toolName : String) :
    (bridge.loadTool vault toolName).2.1.allowedTools = bridge.allowedTools ∧
      (bridge.loadTool vault toolName).2.1.agentId = bridge.agentId ∧
      (bridge.loadTool vault toolName).2.1.activeLineages = bridge.activeLineages := by
  unfold loadTool
  split
  · exact ⟨rfl, rfl, rfl⟩
  · split <;> exact ⟨rfl, rfl, rfl⟩

theorem loadTool_of_context (own : bridge.context = some context) :
    bridge.loadTool vault toolName =
      ((context.promote toolName).1,
        { bridge with context := some (context.promote toolName).2 }, vault) := by
  unfold loadTool
  rw [own]

/-- Activating a tool changes the permissions as admitting it does. -/
theorem checkPermission_activateTool (vault : Option (ToolVault V)) (bridge : ToolBridge V)
    (toolName other : String) :
    (bridge.activateTool vault toolName).2.1.checkPermission other =
      (bridge.enlist toolName).checkPermission other := by
  have kept := (fields_loadTool vault (bridge.enlist toolName) toolName).1
  unfold activateTool checkPermission
  exact congrArg (fun allowed : Option (List String) =>
    match allowed with
    | none => true
    | some allowed => decide (other ∈ allowed)) kept

theorem context_activateTool (own : bridge.context = some context) :
    (bridge.activateTool vault toolName).2.1.context =
      some ((context.promote toolName).2.recordUsage toolName) := by
  have admitted : (bridge.enlist toolName).context = some context :=
    (fields_enlist bridge toolName).1.trans own
  unfold activateTool
  rw [loadTool_of_context admitted]
  rfl

/-- The gate after it has been asked. -/
def askedGate (gate : Option AuditGate) (freshId : String) (vault : Option (ToolVault V))
    (bridge : ToolBridge V) (toolName : String) : Option AuditGate :=
  gate.map fun gate =>
    (gate.check freshId (auditCandidate vault toolName) bridge.agentId bridge.allowedTools).2

/-- The ways a load may go, each with what leads to it. -/
inductive LoadsTo (vault : Option (ToolVault V)) (gate : Option AuditGate)
    (listTools : Option (List String)) (freshId : String) (bridge : ToolBridge V)
    (toolName : String) : LoadOutcome V → Prop where
  | notFound (missing : ¬ToolExists vault listTools toolName) :
      LoadsTo vault gate listTools freshId bridge toolName ⟨.notFound, bridge, vault, gate⟩
  | reused (activeId : String) (there : ToolExists vault listTools toolName)
      (active : bridge.activeLineages.lookup (lineageOf vault toolName) = some activeId) :
      LoadsTo vault gate listTools freshId bridge toolName ⟨.reused activeId, bridge, vault, gate⟩
  | blocked (reason : AuditReason) (there : ToolExists vault listTools toolName)
      (inactive : bridge.activeLineages.lookup (lineageOf vault toolName) = none)
      (decided : gateDecision gate (auditCandidate vault toolName) bridge.allowedTools = .block) :
      LoadsTo vault gate listTools freshId bridge toolName
        ⟨.blocked reason, bridge.rejectSearchResult toolName, vault,
          askedGate gate freshId vault bridge toolName⟩
  | pending (reason : AuditReason) (recordId : String)
      (there : ToolExists vault listTools toolName)
      (inactive : bridge.activeLineages.lookup (lineageOf vault toolName) = none)
      (decided : gateDecision gate (auditCandidate vault toolName) bridge.allowedTools = .manual) :
      LoadsTo vault gate listTools freshId bridge toolName
        ⟨.pendingApproval reason recordId, bridge, vault,
          askedGate gate freshId vault bridge toolName⟩
  | loaded (there : ToolExists vault listTools toolName)
      (inactive : bridge.activeLineages.lookup (lineageOf vault toolName) = none)
      (decided : gateDecision gate (auditCandidate vault toolName) bridge.allowedTools = .pass) :
      LoadsTo vault gate listTools freshId bridge toolName
        (bridge.loadAdmitted vault (askedGate gate freshId vault bridge toolName) toolName)

theorem loadsTo_loadDiscoveredTool (vault : Option (ToolVault V)) (gate : Option AuditGate)
    (listTools : Option (List String)) (freshId : String) (bridge : ToolBridge V)
    (toolName : String) :
    LoadsTo vault gate listTools freshId bridge toolName
      (bridge.loadDiscoveredTool vault gate listTools freshId toolName) := by
  unfold loadDiscoveredTool
  by_cases there : ToolExists vault listTools toolName
  · rw [if_neg fun missing => missing there]
    cases active : bridge.activeLineages.lookup (lineageOf vault toolName) with
    | some activeId => exact .reused activeId there active
    | none =>
        cases gate with
        | none => exact .loaded there active rfl
        | some gate =>
            have decision := gate.check_decision freshId bridge.agentId
              (auditCandidate vault toolName) bridge.allowedTools
            dsimp only
            cases decided : (gate.check freshId (auditCandidate vault toolName) bridge.agentId
              bridge.allowedTools).1.decision with
            | block => exact .blocked _ there active (decision.symm.trans decided)
            | manual => exact .pending _ _ there active (decision.symm.trans decided)
            | pass => exact .loaded there active (decision.symm.trans decided)
  · rw [if_pos there]
    exact .notFound there

/-- A gate does not let a tool above its threshold be activated by a load. -/
theorem not_activates_of_aboveThreshold {gate : AuditGate}
    (above : AboveThreshold gate.riskThreshold (auditCandidate vault toolName).riskLevel)
    (listTools : Option (List String)) (freshId : String) (bridge : ToolBridge V) :
    (bridge.loadDiscoveredTool vault (some gate) listTools freshId toolName).report.activates =
      false := by
  have loads := loadsTo_loadDiscoveredTool vault (some gate) listTools freshId bridge toolName
  generalize bridge.loadDiscoveredTool vault (some gate) listTools freshId toolName = outcome
    at loads
  cases loads with
  | loaded there inactive decided =>
      exact absurd decided (AuditGate.not_pass_of_aboveThreshold above _)
  | _ => rfl

/-! ## What a load leaves alone -/

/-- Loading a tool changes its tier in the vault at most, which no candidate carries. -/
theorem auditCandidate_vault_loadTool (vault : ToolVault V) (toolName other : String) :
    auditCandidate (some (vault.loadTool toolName).2) other =
      auditCandidate (some vault) other := by
  unfold ToolVault.loadTool
  cases found : vault.entries.lookup toolName with
  | none => rfl
  | some entry =>
      dsimp only
      split
      · rfl
      · unfold auditCandidate entryOf
        simp only [Option.bind_some, OrderedDict.lookup_assign]
        by_cases same : other = toolName
        · subst same
          rw [if_pos rfl, found]
        · rw [if_neg same]

/-- A load by an agent without a context may load the tool in the vault. -/
theorem vault_loadTool (vault : Option (ToolVault V)) (bridge : ToolBridge V) (toolName : String) :
    (bridge.loadTool vault toolName).2.2 = vault ∨
      ∃ own, vault = some own ∧
        (bridge.loadTool vault toolName).2.2 = some (own.loadTool toolName).2 := by
  unfold loadTool
  split
  · exact .inl rfl
  · cases vault with
    | none => exact .inl rfl
    | some own => exact .inr ⟨own, rfl, rfl⟩

theorem vault_loadDiscoveredTool (vault : Option (ToolVault V)) (gate : Option AuditGate)
    (listTools : Option (List String)) (freshId : String) (bridge : ToolBridge V)
    (toolName : String) :
    (bridge.loadDiscoveredTool vault gate listTools freshId toolName).vault = vault ∨
      ∃ own, vault = some own ∧
        (bridge.loadDiscoveredTool vault gate listTools freshId toolName).vault =
          some (own.loadTool toolName).2 := by
  have loads := loadsTo_loadDiscoveredTool vault gate listTools freshId bridge toolName
  generalize bridge.loadDiscoveredTool vault gate listTools freshId toolName = outcome at loads
  cases loads with
  | loaded there inactive decided =>
      exact vault_loadTool vault ((bridge.enlist toolName).enlist toolName) toolName
  | _ => exact .inl rfl

theorem agentId_loadDiscoveredTool (vault : Option (ToolVault V)) (gate : Option AuditGate)
    (listTools : Option (List String)) (freshId : String) (bridge : ToolBridge V)
    (toolName : String) :
    (bridge.loadDiscoveredTool vault gate listTools freshId toolName).bridge.agentId =
      bridge.agentId := by
  have loads := loadsTo_loadDiscoveredTool vault gate listTools freshId bridge toolName
  generalize bridge.loadDiscoveredTool vault gate listTools freshId toolName = outcome at loads
  cases loads with
  | loaded there inactive decided =>
      have kept := (fields_loadTool vault ((bridge.enlist toolName).enlist toolName) toolName).2.1
      exact kept.trans ((fields_enlist _ _).2.1.trans (fields_enlist _ _).2.1)
  | _ => rfl

end ToolBridge

end YouMi.Mcp
