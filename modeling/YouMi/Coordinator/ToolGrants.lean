import YouMi.Coordinator.ApprovalLaws
import YouMi.Library.Runs
import Mathlib.Data.Fintype.EquivFin

/-!
# Granting tools

What an agent may call is limited by a list, and an absent list sets no limit.  A grant
should add to what may be called, and a critical tool should be granted by a person.
-/

namespace YouMi.Coordinator

open YouMi.Core YouMi.Library YouMi.Mcp YouMi.Python

variable {V : Type}

/-! ## Critical tools -/

section Critical

variable (lower : String → String) (master : MasterState V) (request : ToolRequest)

/-- The tools that reach the granting branch when a request is handled. -/
def grantedBy : List String :=
  match master.verdictOn lower request with
  | .approved matchedTools _ => matchedTools
  | _ => []

/-- The definition of the tool in the registry or in the vault, or what the search returns of
it, is of critical risk. -/
def RegisteredCritical (toolName : String) : Prop :=
  (∃ definition, master.toolRegistry.lookup toolName = some definition ∧
      definition.riskLevel = "critical") ∨
    (∃ entry, entryOf master.vault toolName = some entry ∧
      entry.definition.riskLevel = "critical") ∨
    ∃ hit ∈ request.found, hit.toolName = toolName ∧ hit.riskLevel = "critical"

variable {lower master request}

theorem mem_grantedBy_iff {toolName : String} :
    toolName ∈ grantedBy lower master request ↔
      Matches lower master request toolName ∧
        ∀ other, Matches lower master request other →
          ¬NeedsPerson master.approvalManager other := by
  have decides := decides_verdictOn lower master request
  unfold grantedBy
  generalize master.verdictOn lower request = verdict at decides
  cases decides with
  | notFound unmatched => simp [unmatched]
  | manualReview sensitive first listed =>
      obtain ⟨sent, member⟩ := List.exists_mem_of_ne_nil sensitive first
      obtain ⟨matched, needs⟩ := (listed sent).mp member
      exact iff_of_false List.not_mem_nil fun granted => granted.2 sent matched needs
  | approved matchedTools approvalMode listed spared =>
      rw [listed]
      exact ⟨fun matched => ⟨matched, spared⟩, And.left⟩

theorem grantedBy_ne_nil_iff :
    grantedBy lower master request ≠ [] ↔
      (∃ toolName, Matches lower master request toolName) ∧
        ∀ toolName, Matches lower master request toolName →
          ¬NeedsPerson master.approvalManager toolName := by
  constructor
  · intro some
    obtain ⟨toolName, member⟩ := List.exists_mem_of_ne_nil _ some
    obtain ⟨matched, spared⟩ := mem_grantedBy_iff.mp member
    exact ⟨⟨toolName, matched⟩, spared⟩
  · rintro ⟨⟨toolName, matched⟩, spared⟩
    exact List.ne_nil_of_mem (mem_grantedBy_iff.mpr ⟨matched, spared⟩)

/--
Handling a request grants no critical tool outside the list of automatic
approvals exactly if a tool it matches needs a person, so that nothing is
granted, or it matches no such tool.
-/
theorem critical_withheld_iff (lower : String → String) (master : MasterState V)
    (request : ToolRequest) :
    (∀ toolName ∈ grantedBy lower master request, RegisteredCritical master request toolName →
        toolName ∈ master.approvalManager.autoApproveList) ↔
      (∃ toolName, Matches lower master request toolName ∧
          NeedsPerson master.approvalManager toolName) ∨
        ∀ toolName, Matches lower master request toolName →
          RegisteredCritical master request toolName →
            toolName ∈ master.approvalManager.autoApproveList := by
  constructor
  · intro withheld
    by_cases person : ∃ toolName, Matches lower master request toolName ∧
        NeedsPerson master.approvalManager toolName
    · exact .inl person
    · refine .inr fun toolName matched => withheld toolName (mem_grantedBy_iff.mpr ⟨matched, ?_⟩)
      exact fun other meets needs => person ⟨other, meets, needs⟩
  · rintro (⟨other, matched, needs⟩ | automatic) toolName granted critical
    · exact absurd needs ((mem_grantedBy_iff.mp granted).2 other matched)
    · exact automatic toolName (mem_grantedBy_iff.mp granted).1 critical

/-- A master with one critical tool, on no list. -/
def deletingMaster : MasterState Unit where
  agentId := "master"
  toolRegistry :=
    [("delete_file", { ToolStore.plainDefinition "deletes a file" with riskLevel := "critical" })]
  subAgents := [("a", {})]

/-- The master grants the critical tool itself. -/
theorem critical_tool_granted :
    ¬∀ (master : MasterState Unit) (request : ToolRequest),
      ∀ toolName ∈ grantedBy id master request, RegisteredCritical master request toolName →
        toolName ∈ master.approvalManager.autoApproveList := by
  intro withheld
  have listed := withheld deletingMaster
    { requesterId := "a"
      content := some (.dict [("tool_description", .str "delete the file")])
      freshId := id }
    "delete_file" (by decide) (.inl ⟨_, rfl, rfl⟩)
  exact absurd listed List.not_mem_nil

end Critical

/-! ## Limits -/

/-- An absent list sets no limit. -/
def permits (limit : Option (List String)) (toolName : String) : Bool :=
  match limit with
  | none => true
  | some allowed => toolName ∈ allowed

/-- What is permitted afterwards is what was permitted before, and the tools that are named. -/
def Widens (before after : Option (List String)) (toolNames : List String) : Prop :=
  ∀ toolName, permits after toolName = true ↔ permits before toolName = true ∨ toolName ∈ toolNames

section Limits

variable {before between after : Option (List String)} {toolName : String}
  {toolNames : List String}

theorem Widens.refl (limit : Option (List String)) : Widens limit limit [] := by
  intro toolName
  simp

theorem Widens.cons (first : Widens before between [toolName])
    (rest : Widens between after toolNames) : Widens before after (toolName :: toolNames) := by
  intro other
  rw [rest other, first other, List.mem_singleton, List.mem_cons, or_assoc]

/-- Nothing short of no limit permits all there is. -/
theorem widens_none_iff : Widens none after toolNames ↔ after = none := by
  constructor
  · intro widens
    cases after with
    | none => rfl
    | some allowed =>
        obtain ⟨toolName, outside⟩ := Infinite.exists_notMem_finset allowed.toFinset
        have permitted := (widens toolName).mpr (.inl rfl)
        exact absurd (List.mem_toFinset.mpr (of_decide_eq_true permitted)) outside
  · rintro rfl toolName
    simp [permits]

theorem widens_addAllowedTool_iff (bridge : ToolBridge V) (toolName : String) :
    Widens bridge.allowedTools (bridge.addAllowedTool toolName).allowedTools [toolName] ↔
      bridge.allowedTools ≠ none := by
  cases own : bridge.allowedTools with
  | none => simp [widens_none_iff, ToolBridge.addAllowedTool]
  | some allowed =>
      refine iff_of_true (fun other => ?_) (Option.some_ne_none allowed)
      simp [permits, ToolBridge.addAllowedTool, own, or_comm]

/-- Activating a tool adds it to a list, and makes none. -/
theorem widens_activateTool (vault : Option (ToolVault V)) (bridge : ToolBridge V)
    (toolName : String) :
    Widens bridge.allowedTools (bridge.activateTool vault toolName).2.1.allowedTools
      [toolName] := by
  intro other
  have permitted := (ToolBridge.checkPermission_activateTool vault bridge toolName other).trans
    (ToolBridge.checkPermission_enlist bridge toolName other)
  change permits _ other = (permits bridge.allowedTools other || _) at permitted
  rw [permitted, List.mem_singleton]
  cases own : bridge.allowedTools with
  | none => simp [permits]
  | some allowed => simp [permits]

end Limits

/-! ## Injected tools -/

section Injected

variable {bridge : ToolBridge V} {toolName : String} {toolNames : List String}

/-- The agent has no context, or its vault has the tool. -/
def injects (bridge : ToolBridge V) (toolName : String) : Bool :=
  match bridge.context with
  | none => true
  | some context => (context.vault.entries.lookup toolName).isSome

theorem allowedTools_injectTool (bridge : ToolBridge V) (toolName : String) :
    (bridge.injectTool toolName).2.allowedTools =
      if injects bridge toolName then (bridge.addAllowedTool toolName).allowedTools
      else bridge.allowedTools := by
  unfold ToolBridge.injectTool injects
  cases own : bridge.context with
  | none => rfl
  | some context =>
      simp only [context.promote_fst]
      split <;> rfl

theorem injects_injectTool (bridge : ToolBridge V) (toolName : String) :
    injects (bridge.injectTool toolName).2 = injects bridge := by
  unfold ToolBridge.injectTool
  cases own : bridge.context with
  | none =>
      funext other
      simp [injects, ToolBridge.addAllowedTool, own]
  | some context =>
      have kept := context.vault_promote toolName
      funext other
      dsimp only
      split <;> simp [injects, ToolBridge.addAllowedTool, own, kept]

/-- There is no list only where there was none and nothing is injected. -/
theorem allowedTools_injectToolContext_eq_none_iff (bridge : ToolBridge V)
    (toolNames : List String) :
    (bridge.injectToolContext toolNames).2.allowedTools = none ↔
      bridge.allowedTools = none ∧ ∀ toolName ∈ toolNames, injects bridge toolName = false := by
  induction toolNames generalizing bridge with
  | nil => simp [ToolBridge.injectToolContext]
  | cons first rest ih =>
      have later := ih (bridge.injectTool first).2
      rw [injects_injectTool, allowedTools_injectTool] at later
      refine later.trans ?_
      cases injected : injects bridge first with
      | true => simp [injected, ToolBridge.addAllowedTool]
      | false => simp [injected]

/-- A list is extended by what is injected. -/
theorem widens_injectToolContext (limited : bridge.allowedTools ≠ none) :
    Widens bridge.allowedTools (bridge.injectToolContext toolNames).2.allowedTools
      (toolNames.filter (injects bridge)) := by
  induction toolNames generalizing bridge with
  | nil => exact Widens.refl _
  | cons first rest ih =>
      have step := allowedTools_injectTool bridge first
      by_cases injected : injects bridge first = true
      · rw [if_pos injected] at step
        have still : (bridge.injectTool first).2.allowedTools ≠ none := by
          rw [step]
          exact Option.some_ne_none _
        have later := ih still
        rw [injects_injectTool] at later
        rw [List.filter_cons_of_pos injected]
        refine Widens.cons ?_ later
        rw [step]
        exact (widens_addAllowedTool_iff bridge first).mpr limited
      · rw [if_neg injected] at step
        have later := ih (step ▸ limited)
        rw [injects_injectTool, step] at later
        rw [List.filter_cons_of_neg injected]
        exact later

theorem widens_injectToolContext_iff (bridge : ToolBridge V) (toolNames : List String) :
    Widens bridge.allowedTools (bridge.injectToolContext toolNames).2.allowedTools
        (toolNames.filter (injects bridge)) ↔
      ((∃ toolName ∈ toolNames, injects bridge toolName = true) → bridge.allowedTools ≠ none) := by
  by_cases limitless : bridge.allowedTools = none
  · rw [limitless, widens_none_iff, allowedTools_injectToolContext_eq_none_iff]
    simp [limitless]
  · exact iff_of_true (widens_injectToolContext limitless) fun _ => limitless

end Injected

/-! ## Grants to a sub-agent -/

namespace SubAgent

/-- An agent without a bridge is given one with the list of its configuration. -/
def limit (agent : SubAgent V) : Option (List String) :=
  match agent.bridge with
  | some bridge => bridge.allowedTools
  | none => allowList agent.allowedTools

def mayCall (agent : SubAgent V) (toolName : String) : Bool := permits agent.limit toolName

/-- The agent has a bridge, or a list to which a tool can be added. -/
def Steady (agent : SubAgent V) : Prop := agent.bridge ≠ none ∨ agent.allowedTools ≠ []

variable {vault : Option (ToolVault V)} {agent : SubAgent V} {toolName : String}
  {toolNames : List String}

theorem bridge_list (agent : SubAgent V) (toolName : String) :
    (agent.list toolName).bridge = agent.bridge := by
  unfold list
  split <;> rfl

theorem bridge_listEach (agent : SubAgent V) (toolNames : List String) :
    (agent.listEach toolNames).bridge = agent.bridge := by
  unfold listEach
  induction toolNames generalizing agent with
  | nil => rfl
  | cons first rest ih => exact (ih _).trans (bridge_list agent first)

theorem mem_allowedTools_listEach {other : String} :
    other ∈ (agent.listEach toolNames).allowedTools ↔
      other ∈ agent.allowedTools ∨ other ∈ toolNames := by
  unfold listEach
  induction toolNames generalizing agent with
  | nil => simp
  | cons first rest ih =>
      have listed : other ∈ (agent.list first).allowedTools ↔
          other ∈ agent.allowedTools ∨ other = first := by
        unfold list
        split
        · rename_i there
          constructor
          · exact .inl
          · rintro (member | rfl)
            · exact member
            · exact there
        · simp
      rw [List.foldl_cons, ih, listed, List.mem_cons, or_assoc]

theorem allowedTools_listEach_eq_nil_iff :
    (agent.listEach toolNames).allowedTools = [] ↔ agent.allowedTools = [] ∧ toolNames = [] := by
  simp only [List.eq_nil_iff_forall_not_mem, mem_allowedTools_listEach, not_or, forall_and]

theorem limit_of_bridge {bridge : ToolBridge V} (own : agent.bridge = some bridge) :
    agent.limit = bridge.allowedTools := by
  unfold limit
  rw [own]

theorem limit_of_unbridged (unbridged : agent.bridge = none) :
    agent.limit = allowList agent.allowedTools := by
  unfold limit
  rw [unbridged]

/-- Where there is no bridge, a tool can be added to a list that is not empty only. -/
theorem widens_listEach_iff (unbridged : agent.bridge = none) :
    Widens agent.limit (agent.listEach toolNames).limit toolNames ↔
      (toolNames ≠ [] → agent.allowedTools ≠ []) := by
  rw [limit_of_unbridged unbridged, limit_of_unbridged ((bridge_listEach ..).trans unbridged)]
  unfold allowList
  by_cases limitless : agent.allowedTools = []
  · rw [if_pos limitless, widens_none_iff]
    simp [allowedTools_listEach_eq_nil_iff, limitless]
  · have still : (agent.listEach toolNames).allowedTools ≠ [] :=
      fun empty => limitless (allowedTools_listEach_eq_nil_iff.mp empty).1
    rw [if_neg limitless, if_neg still]
    refine iff_of_true (fun other => ?_) fun _ => limitless
    simp [permits, mem_allowedTools_listEach]

theorem confirm_of_unbridged (unbridged : agent.bridge = none) :
    agent.confirm vault toolName = (agent, vault) := by
  unfold confirm
  rw [unbridged]

theorem grantEach_of_unbridged (unbridged : agent.bridge = none) :
    agent.grantEach vault toolNames = (agent.listEach toolNames, vault) := by
  induction toolNames generalizing agent with
  | nil => rfl
  | cons first rest ih =>
      unfold grantEach
      rw [confirm_of_unbridged unbridged]
      exact ih ((bridge_list agent first).trans unbridged)

theorem confirmEach_of_unbridged (unbridged : agent.bridge = none) :
    agent.confirmEach vault toolNames = (agent, vault) := by
  induction toolNames with
  | nil => rfl
  | cons first rest ih =>
      unfold confirmEach
      rw [confirm_of_unbridged unbridged]
      exact ih

/-- Confirming a tool through a bridge keeps the bridge and adds the tool. -/
theorem widens_confirm (bridged : agent.bridge ≠ none) (vault : Option (ToolVault V))
    (toolName : String) :
    (agent.confirm vault toolName).1.bridge ≠ none ∧
      Widens agent.limit (agent.confirm vault toolName).1.limit [toolName] := by
  obtain ⟨bridge, own⟩ := Option.ne_none_iff_exists'.mp bridged
  rw [limit_of_bridge own]
  unfold confirm
  rw [own]
  exact ⟨Option.some_ne_none _, widens_activateTool _ bridge toolName⟩

/-- What a bridge permits does not depend on the configuration. -/
theorem limit_congr {other : SubAgent V} (bridged : agent.bridge ≠ none)
    (same : other.bridge = agent.bridge) : other.limit = agent.limit := by
  obtain ⟨bridge, own⟩ := Option.ne_none_iff_exists'.mp bridged
  rw [limit_of_bridge own, limit_of_bridge (same.trans own)]

theorem widens_grantEach (bridged : agent.bridge ≠ none) (vault : Option (ToolVault V))
    (toolNames : List String) :
    Widens agent.limit (agent.grantEach vault toolNames).1.limit toolNames := by
  induction toolNames generalizing agent vault with
  | nil => exact Widens.refl _
  | cons first rest ih =>
      obtain ⟨still, widens⟩ := widens_confirm bridged vault first
      have kept : ((agent.confirm vault first).1.list first).bridge ≠ none := by
        rw [bridge_list]
        exact still
      have later := ih kept (agent.confirm vault first).2
      rw [limit_congr still (bridge_list ..)] at later
      exact widens.cons later

theorem widens_confirmEach (bridged : agent.bridge ≠ none) (vault : Option (ToolVault V))
    (toolNames : List String) :
    (agent.confirmEach vault toolNames).1.bridge ≠ none ∧
      Widens agent.limit (agent.confirmEach vault toolNames).1.limit toolNames := by
  induction toolNames generalizing agent vault with
  | nil => exact ⟨bridged, Widens.refl _⟩
  | cons first rest ih =>
      obtain ⟨still, widens⟩ := widens_confirm bridged vault first
      obtain ⟨kept, later⟩ := ih still (agent.confirm vault first).2
      exact ⟨kept, widens.cons later⟩

/-- The grants of a request. -/
theorem widens_grantEach_iff (vault : Option (ToolVault V)) (agent : SubAgent V)
    (toolNames : List String) :
    Widens agent.limit (agent.grantEach vault toolNames).1.limit toolNames ↔
      (toolNames ≠ [] → agent.Steady) := by
  by_cases unbridged : agent.bridge = none
  · rw [grantEach_of_unbridged unbridged, widens_listEach_iff unbridged]
    simp [Steady, unbridged]
  · exact iff_of_true (widens_grantEach unbridged vault toolNames) fun _ => .inl unbridged

/-- The grants of a person. -/
theorem widens_confirmEach_listEach_iff (vault : Option (ToolVault V)) (agent : SubAgent V)
    (toolNames : List String) :
    Widens agent.limit ((agent.confirmEach vault toolNames).1.listEach toolNames).limit
        toolNames ↔
      (toolNames ≠ [] → agent.Steady) := by
  by_cases unbridged : agent.bridge = none
  · rw [confirmEach_of_unbridged unbridged, widens_listEach_iff unbridged]
    simp [Steady, unbridged]
  · obtain ⟨kept, widens⟩ := widens_confirmEach unbridged vault toolNames
    rw [limit_congr kept (bridge_listEach ..)]
    exact iff_of_true widens fun _ => .inl unbridged

end SubAgent

/-! ## Grants along a run -/

inductive GrantEvent where
  | addAllowedTool (agentId toolName : String)
  | injectToolContext (agentId : String) (toolNames : List String)
  | toolRequest (request : ToolRequest)
  | approve (agentId : String) (toolNames : List String)

/-- The agent to which the event grants. -/
def GrantEvent.agentId : GrantEvent → String
  | .addAllowedTool agentId _ => agentId
  | .injectToolContext agentId _ => agentId
  | .toolRequest request => request.requesterId
  | .approve agentId _ => agentId

/-- The bridge of the agent changes, where it has one. -/
def MasterState.onBridge (master : MasterState V) (agentId : String)
    (change : ToolBridge V → ToolBridge V) : MasterState V :=
  match master.subAgents.lookup agentId with
  | none => master
  | some agent =>
      { master with
        subAgents :=
          master.subAgents.assign agentId { agent with bridge := agent.bridge.map change } }

section Grants

variable (lower : String → String)

def grantStep (master : MasterState V) : GrantEvent → MasterState V
  | .addAllowedTool agentId toolName =>
      master.onBridge agentId fun bridge => bridge.addAllowedTool toolName
  | .injectToolContext agentId toolNames =>
      master.onBridge agentId fun bridge => (bridge.injectToolContext toolNames).2
  | .toolRequest request => (master.handleToolRequest lower request).2
  | .approve agentId toolNames => (master.approveToolRequest agentId toolNames).2

/-- The tools that an event grants to its agent. -/
def granted (master : MasterState V) (agent : SubAgent V) : GrantEvent → List String
  | .addAllowedTool _ toolName => if agent.bridge.isSome then [toolName] else []
  | .injectToolContext _ toolNames =>
      match agent.bridge with
      | none => []
      | some bridge => toolNames.filter (injects bridge)
  | .toolRequest request => grantedBy lower master request
  | .approve _ toolNames => toolNames

/-- Afterwards each agent may call what it could call before, and what is granted to it. -/
def GrantsAdd (master : MasterState V) (event : GrantEvent) : Prop :=
  ∀ agentId agent, master.subAgents.lookup agentId = some agent →
    ∃ after, (grantStep lower master event).subAgents.lookup agentId = some after ∧
      ∀ toolName, after.mayCall toolName = true ↔
        agent.mayCall toolName = true ∨
          agentId = event.agentId ∧ toolName ∈ granted lower master agent event

/-- Through its bridge an agent is granted tools if it has a list there already; a request
or a person grants tools to an agent that has a bridge or a list in its configuration. -/
def Spares (master : MasterState V) (agent : SubAgent V) : GrantEvent → Prop
  | .addAllowedTool _ _ => ∀ bridge, agent.bridge = some bridge → bridge.allowedTools ≠ none
  | .injectToolContext _ toolNames =>
      ∀ bridge, agent.bridge = some bridge →
        (∃ toolName ∈ toolNames, injects bridge toolName = true) → bridge.allowedTools ≠ none
  | .toolRequest request =>
      (∃ toolName, Matches lower master request toolName) →
        (∀ toolName, Matches lower master request toolName →
          ¬NeedsPerson master.approvalManager toolName) → agent.Steady
  | .approve _ toolNames => toolNames ≠ [] → agent.Steady

def GrantSpared (master : MasterState V) (event : GrantEvent) : Prop :=
  ∀ agent, master.subAgents.lookup event.agentId = some agent → Spares lower master agent event

variable {lower} {master : MasterState V}

/-- The agent of an event after it. -/
def grantedAgent (lower : String → String) (master : MasterState V) (agent : SubAgent V) :
    GrantEvent → SubAgent V
  | .addAllowedTool _ toolName =>
      { agent with bridge := agent.bridge.map fun bridge => bridge.addAllowedTool toolName }
  | .injectToolContext _ toolNames =>
      { agent with
        bridge := agent.bridge.map fun bridge => (bridge.injectToolContext toolNames).2 }
  | .toolRequest request => (agent.grantEach master.vault (grantedBy lower master request)).1
  | .approve _ toolNames => (agent.confirmEach master.vault toolNames).1.listEach toolNames

theorem lookup_onBridge (master : MasterState V) (agentId : String)
    (change : ToolBridge V → ToolBridge V) (other : String) :
    (master.onBridge agentId change).subAgents.lookup other =
      (master.subAgents.lookup other).map fun agent =>
        if other = agentId then { agent with bridge := agent.bridge.map change } else agent := by
  unfold MasterState.onBridge
  cases found : master.subAgents.lookup agentId with
  | none => exact (OrderedDict.map_lookup_of_lookup_eq_none found _ other).symm
  | some agent =>
      exact OrderedDict.lookup_assign_of_lookup found fun agent =>
        { agent with bridge := agent.bridge.map change }

theorem lookup_grantMatched (master : MasterState V) (agentId : String)
    (matched : List String) (other : String) :
    (master.grantMatched agentId matched).subAgents.lookup other =
      (master.subAgents.lookup other).map fun agent =>
        if other = agentId then (agent.grantEach master.vault matched).1 else agent := by
  unfold MasterState.grantMatched
  cases found : master.subAgents.lookup agentId with
  | none => exact (OrderedDict.map_lookup_of_lookup_eq_none found _ other).symm
  | some agent =>
      exact OrderedDict.lookup_assign_of_lookup found fun agent =>
        (agent.grantEach master.vault matched).1

theorem lookup_approveToolRequest (master : MasterState V) (agentId : String)
    (toolNames : List String) (other : String) :
    (master.approveToolRequest agentId toolNames).2.subAgents.lookup other =
      (master.subAgents.lookup other).map fun agent =>
        if other = agentId then (agent.confirmEach master.vault toolNames).1.listEach toolNames
        else agent := by
  cases found : master.subAgents.lookup agentId with
  | none =>
      rw [approveToolRequest_of_unknown found]
      exact (OrderedDict.map_lookup_of_lookup_eq_none found _ other).symm
  | some agent =>
      unfold MasterState.approveToolRequest
      rw [found]
      exact OrderedDict.lookup_assign_of_lookup found fun agent =>
        (agent.confirmEach master.vault toolNames).1.listEach toolNames

theorem lookup_grantStep (lower : String → String) (master : MasterState V)
    (event : GrantEvent) (other : String) :
    (grantStep lower master event).subAgents.lookup other =
      (master.subAgents.lookup other).map fun agent =>
        if other = event.agentId then grantedAgent lower master agent event else agent := by
  cases event with
  | addAllowedTool agentId toolName => exact lookup_onBridge master agentId _ other
  | injectToolContext agentId toolNames => exact lookup_onBridge master agentId _ other
  | toolRequest request =>
      change (master.handleToolRequest lower request).2.subAgents.lookup other =
        (master.subAgents.lookup other).map fun agent =>
          if other = request.requesterId then
            (agent.grantEach master.vault (grantedBy lower master request)).1
          else agent
      rw [subAgents_handleToolRequest]
      unfold grantedBy
      cases master.verdictOn lower request with
      | approved matchedTools approvalMode =>
          exact lookup_grantMatched master request.requesterId matchedTools other
      | _ => simp [SubAgent.grantEach]
  | approve agentId toolNames => exact lookup_approveToolRequest master agentId toolNames other

/-- The grants add up if they do for the agent they are meant for. -/
theorem grantsAdd_iff_widens (master : MasterState V) (event : GrantEvent) :
    GrantsAdd lower master event ↔
      ∀ agent, master.subAgents.lookup event.agentId = some agent →
        Widens agent.limit (grantedAgent lower master agent event).limit
          (granted lower master agent event) := by
  constructor
  · intro adds agent found toolName
    obtain ⟨after, stands, calls⟩ := adds event.agentId agent found
    rw [lookup_grantStep, found, Option.map_some, if_pos rfl, Option.some.injEq] at stands
    subst stands
    refine (calls toolName).trans (or_congr Iff.rfl ?_)
    exact ⟨And.right, fun member => ⟨rfl, member⟩⟩
  · intro widens agentId agent found
    refine ⟨_, by rw [lookup_grantStep, found, Option.map_some], fun toolName => ?_⟩
    by_cases own : agentId = event.agentId
    · rw [if_pos own]
      subst own
      refine (widens agent found toolName).trans (or_congr Iff.rfl ?_)
      exact ⟨fun member => ⟨rfl, member⟩, And.right⟩
    · rw [if_neg own]
      simp [own]

theorem widens_grantedAgent_iff (master : MasterState V) (agent : SubAgent V)
    (event : GrantEvent) :
    Widens agent.limit (grantedAgent lower master agent event).limit
        (granted lower master agent event) ↔
      Spares lower master agent event := by
  cases event with
  | addAllowedTool agentId toolName =>
      obtain ⟨own, attached, allowedTools⟩ := agent
      cases own with
      | none => exact iff_of_true (Widens.refl _) fun _ own => nomatch own
      | some bridge =>
          refine (widens_addAllowedTool_iff bridge toolName).trans ?_
          simp [Spares]
  | injectToolContext agentId toolNames =>
      obtain ⟨own, attached, allowedTools⟩ := agent
      cases own with
      | none => exact iff_of_true (Widens.refl _) fun _ own => nomatch own
      | some bridge =>
          refine (widens_injectToolContext_iff bridge toolNames).trans ?_
          simp [Spares]
  | toolRequest request =>
      refine (SubAgent.widens_grantEach_iff master.vault agent _).trans ?_
      rw [grantedBy_ne_nil_iff, and_imp]
      rfl
  | approve agentId toolNames =>
      exact SubAgent.widens_confirmEach_listEach_iff master.vault agent toolNames

/--
In every run of grants each grant adds to what may be called, and takes nothing
away, exactly if through a bridge only agents with a list are granted tools, and
by the master only agents with a bridge or a list in their configuration.
-/
theorem grants_add_iff (lower : String → String) (master : MasterState V)
    (events : List GrantEvent) :
    StepsMeet (grantStep lower) (GrantsAdd lower) master events ↔
      StepsMeet (grantStep lower) (GrantSpared lower) master events := by
  refine stepsMeet_congr (grantStep lower) (fun _ => True) (fun _ _ _ => trivial) ?_ trivial events
  intro master event _
  rw [grantsAdd_iff_widens]
  exact forall_congr' fun agent => imp_congr_right fun _ =>
    widens_grantedAgent_iff master agent event

/-- An agent that may call everything may call one tool after a grant. -/
theorem grant_revokes :
    ¬StepsMeet (grantStep id) (GrantsAdd id)
      { agentId := "master"
        subAgents := [("a", { bridge := some { agentId := "a" } })] : MasterState Unit }
      [.addAllowedTool "a" "read_mail"] := by
  rintro ⟨adds, -⟩
  obtain ⟨after, stands, calls⟩ := adds "a" _ rfl
  obtain rfl := Option.some.inj stands
  exact absurd ((calls "send_mail").mpr (.inl rfl)) (by decide)

end Grants

end YouMi.Coordinator
